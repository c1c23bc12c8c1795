import EasyConnection.Config.Export
import EasyConnection.Core.Outcomes

/-! # Secrets that profiles share

The secrets that an operation writes are the password and the link of the profile that it is
applied to. No other profile refers to them, as long as no import brings references in that are
in use already.
-/
namespace EasyConnection.Core
open Async Codec Config Secrets Ssh

section Own

/-- The references whose secrets the operations on a profile write. -/
def ownRefs (cfg : ConnectionConfig) : List SecretRef :=
  (match cfg.authentication with
    | .password secret => secret.toList
    | _ => []) ++ cfg.smartLinkSecret.toList

/-- No other profile than that under `id` refers to `r`. -/
def Private (w : World) (id : Uuid) (r : SecretRef) : Prop :=
  ∀ id' cfg, w.profiles.lookup id' = some cfg → id' ≠ id → r ∉ cfg.secretRefs

/-- No operation on another profile than that under `id` writes the secret of `r`. -/
def Unowned (w : World) (id : Uuid) (r : SecretRef) : Prop :=
  ∀ id' cfg, w.profiles.lookup id' = some cfg → id' ≠ id → r ∉ ownRefs cfg

structure Separate (w : World) : Prop where
  keyed : ∀ {id cfg}, w.profiles.lookup id = some cfg → cfg.id = id
  own : ∀ {id cfg r}, w.profiles.lookup id = some cfg → r ∈ ownRefs cfg → Private w id r
  proxy : ∀ {id cfg r}, w.profiles.lookup id = some cfg → cfg.proxy.authSecret = some r →
    r ∉ ownRefs cfg

variable {w w' : World} {cfg : ConnectionConfig} {id : Uuid} {r : SecretRef}

theorem mem_secretRefs : r ∈ cfg.secretRefs ↔
    r ∈ cfg.authentication.secretRefs ++ cfg.smartLinkSecret.toList ∨
      cfg.proxy.authSecret = some r := by
  simp only [ConnectionConfig.secretRefs, List.mem_append, Option.mem_toList]
  tauto

theorem mem_of_ownRefs (h : r ∈ ownRefs cfg) :
    r ∈ cfg.authentication.secretRefs ++ cfg.smartLinkSecret.toList := by
  obtain h | h := List.mem_append.1 h
  · refine List.mem_append_left _ ?_
    cases hauth : cfg.authentication with
    | password secret => rwa [hauth] at h
    | _ => rw [hauth] at h; cases h
  · exact List.mem_append_right _ h

theorem mem_secretRefs_of_ownRefs (h : r ∈ ownRefs cfg) : r ∈ cfg.secretRefs :=
  mem_secretRefs.2 (.inl (mem_of_ownRefs h))

theorem mem_secretRefs_of_proxy (h : cfg.proxy.authSecret = some r) : r ∈ cfg.secretRefs :=
  mem_secretRefs.2 (.inr h)

theorem private_of_unused (h : r ∉ w.refs) : Private w id r :=
  fun _ _ hrow _ hr => h (mem_refs hrow hr)

theorem Private.unowned (h : Private w id r) : Unowned w id r :=
  fun id' cfg hrow hne hr => h id' cfg hrow hne (mem_secretRefs_of_ownRefs hr)

theorem Separate.unowned (h : Separate w) (hrow : w.profiles.lookup id = some cfg)
    (hr : r ∈ cfg.secretRefs) : Unowned w id r :=
  fun _ _ hrow' hne hr' => h.own hrow' hr' id cfg hrow hne.symm hr

/-- The secret for a proxy is written by no operation at all. -/
theorem Separate.proxy_unowned (h : Separate w) (hrow : w.profiles.lookup id = some cfg)
    (hr : cfg.proxy.authSecret = some r) (id' : Uuid) : Unowned w id' r := by
  intro id₁ cfg₁ hrow₁ _ hr₁
  by_cases hid : id₁ = id
  · subst hid
    obtain rfl := Option.some.inj (hrow.symm.trans hrow₁)
    exact h.proxy hrow hr hr₁
  · exact h.unowned hrow (mem_secretRefs_of_proxy hr) id₁ cfg₁ hrow₁ hid hr₁

theorem separate_empty : Separate .empty where
  keyed h := nomatch h
  own h := nomatch h
  proxy h := nomatch h

theorem Separate.congr (h : Separate w) (heq : w'.profiles = w.profiles) : Separate w' := by
  obtain ⟨profiles, vault⟩ := w
  obtain ⟨profiles', vault'⟩ := w'
  obtain rfl : profiles' = profiles := heq
  exact ⟨h.keyed, h.own, h.proxy⟩

theorem Separate.drop (h : Separate w) (id : Uuid) : Separate (w.drop id) where
  keyed hrow := h.keyed (lookup_of_lookup_drop hrow).2
  own hrow hr _ _ hrow' := h.own (lookup_of_lookup_drop hrow).2 hr _ _ (lookup_of_lookup_drop hrow').2
  proxy hrow := h.proxy (lookup_of_lookup_drop hrow).2

theorem Separate.store (h : Separate w) (hown : ∀ r ∈ ownRefs cfg, Private w cfg.id r)
    (hrefs : ∀ r ∈ cfg.secretRefs, Unowned w cfg.id r)
    (hproxy : ∀ r, cfg.proxy.authSecret = some r → r ∉ ownRefs cfg) : Separate (w.store cfg) := by
  refine ⟨fun hrow => ?_, fun hrow hr id' cfg' hrow' hne => ?_, fun hrow hr => ?_⟩
  · obtain ⟨rfl, rfl⟩ | ⟨-, hrow⟩ := lookup_store_cases hrow
    · rfl
    · exact h.keyed hrow
  · obtain ⟨rfl, rfl⟩ | ⟨hid, hold⟩ := lookup_store_cases hrow
    · obtain ⟨rfl, rfl⟩ | ⟨-, hrow'⟩ := lookup_store_cases hrow'
      · exact absurd rfl hne
      · exact hown _ hr id' cfg' hrow' hne
    · obtain ⟨rfl, rfl⟩ | ⟨-, hrow'⟩ := lookup_store_cases hrow'
      · exact fun hr' => hrefs _ hr' _ _ hold hid hr
      · exact h.own hold hr id' cfg' hrow' hne
  · obtain ⟨rfl, rfl⟩ | ⟨-, hrow⟩ := lookup_store_cases hrow
    · exact hproxy _ hr
    · exact h.proxy hrow hr

theorem not_own_of_nodup (h : cfg.secretRefs.Nodup) (hr : cfg.proxy.authSecret = some r) :
    r ∉ ownRefs cfg := by
  intro hown
  simp only [ConnectionConfig.secretRefs, hr, List.nodup_append', Option.toList_some] at h
  obtain ⟨⟨-, -, hauth⟩, -, hlink⟩ := h
  obtain hown | hown := List.mem_append.1 (mem_of_ownRefs hown)
  · exact hauth hown (List.mem_singleton_self r)
  · exact hlink (List.mem_append_right _ (List.mem_singleton_self r)) hown

theorem Separate.store_new (h : Separate w) (hunused : ∀ r ∈ cfg.secretRefs, r ∉ w.refs)
    (hnodup : cfg.secretRefs.Nodup) : Separate (w.store cfg) :=
  h.store (fun r hr => private_of_unused (hunused r (mem_secretRefs_of_ownRefs hr)))
    (fun r hr => (private_of_unused (hunused r hr)).unowned) fun _ => not_own_of_nodup hnodup

theorem Separate.store_withPassword (h : Separate w) (hrow : w.profiles.lookup id = some cfg)
    (hr : Private w id r) (hproxy : cfg.proxy.authSecret ≠ some r) (t : Time) :
    Separate (w.store (withPassword cfg r t)) := by
  obtain rfl := h.keyed hrow
  refine h.store (fun r' hr' => ?_) (fun r' hr' => ?_) fun r' hr' hown => ?_
  · obtain hr' | hr' := List.mem_append.1 hr'
    · exact List.mem_singleton.1 hr' ▸ hr
    · exact h.own hrow (List.mem_append_right _ hr')
  · obtain hr' | hr' := mem_secretRefs.1 hr'
    · obtain hr' | hr' := List.mem_append.1 hr'
      · exact List.mem_singleton.1 hr' ▸ hr.unowned
      · exact h.unowned hrow (mem_secretRefs.2 (.inl (List.mem_append_right _ hr')))
    · exact h.unowned hrow (mem_secretRefs_of_proxy hr')
  · obtain hown | hown := List.mem_append.1 hown
    · exact hproxy (List.mem_singleton.1 hown ▸ hr')
    · exact h.proxy hrow hr' (List.mem_append_right _ hown)

theorem Separate.own_id_ne {id' : Uuid} {cfg' : ConnectionConfig} {r' : SecretRef} (h : Separate w)
    (hrow : w.profiles.lookup id = some cfg) (hr : r ∈ ownRefs cfg)
    (hrow' : w.profiles.lookup id' = some cfg') (hr' : r' ∈ cfg'.secretRefs)
    (hne : some id ≠ some id') : r.id ≠ r'.id :=
  ref_id_ne (h.own hrow hr id' cfg' hrow' fun heq => hne (congrArg some heq.symm)) hr'

theorem mem_ownRefs_of_password (h : cfg.authentication = .password (some r)) :
    r ∈ ownRefs cfg := by
  simp [ownRefs, h]

theorem mem_ownRefs_of_link (h : cfg.smartLinkSecret = some r) : r ∈ ownRefs cfg := by
  simp [ownRefs, h]

end Own

section Requests
variable {L : Library} {w w' : World} {req : Request} {ok : Bool}

/-- The references that an import brings in are different and in use nowhere. -/
def BringsOwn (L : Library) (w : World) : Request → Prop
  | .importProfileText raw =>
    (importedRefs L.imports raw).Nodup ∧ ∀ r ∈ importedRefs L.imports raw, r ∉ w.refs
  | _ => True

instance : DecidablePred (BringsOwn L w)
  | .importProfileText _ => inferInstanceAs (Decidable (_ ∧ _))
  | .addProfile _ | .saveProfile _ | .deleteProfile _ | .duplicateProfile _
  | .setPasswordSecret _ _ | .importSmartLink _ | .fetchZones _ | .setSelectedZone _ _ =>
    .isTrue trivial

theorem Outcome.separate (h : Outcome L w req ok w') (hw : Separate w)
    (hbrings : BringsOwn L w req) : Separate w' := by
  cases h with
  | spared h => exact hw.congr h.profiles
  | added target new grown =>
    exact (hw.store_new grown.unused grown.nodup).congr (store_profiles_congr grown.profiles)
  | imported new refs => exact hw.store_new (refs ▸ hbrings.2) (refs ▸ hbrings.1)
  | @duplicated id cfg copy w₁ row new proxy grown =>
    refine (hw.store (fun r hr => ?_) (fun r hr => ?_) fun r hr hown => ?_).congr
      (store_profiles_congr grown.profiles)
    · exact private_of_unused (grown.unused r (mem_of_ownRefs hr))
    · obtain hr | hr := mem_secretRefs.1 hr
      · exact (private_of_unused (grown.unused r hr)).unowned
      · exact hw.proxy_unowned row (proxy ▸ hr) copy.id
    · exact grown.unused r (mem_of_ownRefs hown) (mem_refs row (mem_secretRefs_of_proxy (proxy ▸ hr)))
  | overwritten row auth => exact hw.congr rfl
  | changed row auth =>
    have hown := mem_ownRefs_of_password auth
    exact (hw.store_withPassword row (hw.own row hown) (fun hr => hw.proxy row hr hown) _).congr rfl
  | @given id password cfg r t w₁ row grown auth =>
    have hunused := grown.unused r (List.mem_singleton_self r)
    exact (hw.store_withPassword row (private_of_unused hunused)
      (fun hr => hunused (mem_refs row (mem_secretRefs_of_proxy hr))) t).congr
        (store_profiles_congr grown.profiles)
  | dropped row link => exact hw.drop _
  | forgotten row link => exact (hw.drop _).congr rfl

/-- What the references of a profile stand for stays, unless the request is for that profile. -/
theorem Outcome.kept {id : Uuid} {cfg : ConnectionConfig} {r : SecretRef} (h : Outcome L w req ok w')
    (hw : Separate w) (hrow : w.profiles.lookup id = some cfg) (hother : req.target ≠ some id)
    (hr : r ∈ cfg.secretRefs) : w'.vault.lookup r.id = w.vault.lookup r.id := by
  cases h with
  | spared h => exact h.kept r (mem_refs hrow hr)
  | added target new grown => exact grown.spared.kept r (mem_refs hrow hr)
  | imported new refs => rfl
  | duplicated row new proxy grown => exact grown.spared.kept r (mem_refs hrow hr)
  | overwritten row auth | changed row auth =>
    exact World.lookup_put_of_ne (hw.own_id_ne row (mem_ownRefs_of_password auth) hrow hr hother) _
  | given row grown auth => exact grown.spared.kept r (mem_refs hrow hr)
  | dropped row link => rfl
  | forgotten row link =>
    exact World.lookup_forget_of_ne (hw.own_id_ne row (mem_ownRefs_of_link link) hrow hr hother)

/-- A request, with how its accesses go. -/
def operate [Texts] (L : Library) (w : World) (e : Request × List Choice) : Option World :=
  (w.perform L e.1 e.2).map Prod.snd

theorem operate_outcome [Texts] {e : Request × List Choice} (hreq : e.1.handlesSecrets = true)
    (h : operate L w e = some w') : ∃ ok, Outcome L w e.1 ok w' := by
  obtain ⟨⟨r, w₁⟩, hperform, rfl⟩ := Option.map_eq_some_iff.1 h
  exact ⟨r.isOk, (program_outcome hreq).runWith hperform⟩

theorem separate_of_run [Texts] {es : List (Request × List Choice)}
    (hreqs : ∀ e ∈ es, e.1.handlesSecrets = true)
    (hbrings : Meets (operate L) (fun w e => BringsOwn L w e.1) .empty es)
    (hrun : run (operate L) .empty es = some w) : Separate w := by
  refine run_invariant (fun w e w' hw he hstep => ?_) separate_empty
    (hbrings.and_labels hreqs) hrun
  obtain ⟨ok, h⟩ := operate_outcome he.2 hstep
  exact h.separate hw he.1

end Requests

/-- If the imports bring in no references but their own, an operation leaves what every reference
of every other profile stands for. -/
theorem secrets_of_others_kept [Texts] (L : Library) (es : List (Request × List Choice)) (w : World)
    (hreqs : ∀ e ∈ es, e.1.handlesSecrets = true)
    (hbrings : Meets (operate L) (fun w e => BringsOwn L w e.1) .empty es)
    (hrun : run (operate L) .empty es = some w) (e : Request × List Choice) (w' : World)
    (hreq : e.1.handlesSecrets = true) (hstep : operate L w e = some w')
    (id : Uuid) (cfg : ConnectionConfig) (hrow : w.profiles.lookup id = some cfg)
    (hother : e.1.target ≠ some id) :
    ∀ r ∈ cfg.secretRefs, w'.vault.lookup r.id = w.vault.lookup r.id := by
  intro r hr
  obtain ⟨ok, h⟩ := operate_outcome hreq hstep
  exact h.kept (separate_of_run hreqs hbrings hrun) hrow hother hr

section Sample

def passwordDraft : Draft where
  config := { ConnectionConfig.newSsh 0 0 "First" "192.0.2.1" 22 with username := some "user" }
  credentials := .password (some "one")
  proxyAuth := none
  smartLink := none

/-- An export of the profile that the draft becomes, to which its reference has been added. -/
def passwordJson : Json :=
  Sample.exportJson "First" "192.0.2.1" 22 [] [("username", .string "user"),
    ("authentication", .object [("type", .string "password"),
      ("secret", .object [("id", .string (newRef 1).id)])])]

def documentLibrary : Library :=
  Sample.coreLibrary [(passwordJson,
    { passwordDraft.config with authentication := .password (some (newRef 1)) })]

/-- A number of accesses without a fault, in which one id is drawn. -/
def drawing (u : Uuid) (n : ℕ) : List Choice := List.replicate n ⟨1, u, none, .error noZones⟩

def addPassword : Request × List Choice := (.addProfile passwordDraft, drawing 1 5)

/-- A second profile is made, and then gets the password, which is seen under `r`. -/
def getsPassword [Texts] (second : Request × List Choice) (r : SecretRef) : Bool :=
  (run (operate documentLibrary) .empty [addPassword, second]).any fun w =>
    w.vault.lookup (newRef 1).id == some "one" &&
    (w.profiles.lookup 1).any (fun cfg => newRef 1 ∈ cfg.secretRefs) &&
    (operate documentLibrary w (.setPasswordSecret 2 "two", drawing 3 4)).any fun w' =>
      w'.vault.lookup r.id == some "two"

theorem runs_of_getsPassword [Texts] {second : Request × List Choice} {r : SecretRef}
    (h : getsPassword second r = true) :
    ∃ w w' cfg, run (operate documentLibrary) .empty [addPassword, second] = some w ∧
      operate documentLibrary w (.setPasswordSecret 2 "two", drawing 3 4) = some w' ∧
      w.profiles.lookup 1 = some cfg ∧ newRef 1 ∈ cfg.secretRefs ∧
      w.vault.lookup (newRef 1).id = some "one" ∧ w'.vault.lookup r.id = some "two" := by
  obtain ⟨w, hrun, hw⟩ := (Option.any_eq_true _ _).1 h
  simp only [Bool.and_eq_true, beq_iff_eq] at hw
  obtain ⟨⟨hone, hrow⟩, hstep⟩ := hw
  obtain ⟨cfg, hrow, hr⟩ := (Option.any_eq_true _ _).1 hrow
  obtain ⟨w', hstep, htwo⟩ := (Option.any_eq_true _ _).1 hstep
  exact ⟨w, w', cfg, hrun, hstep, hrow, of_decide_eq_true hr, hone, eq_of_beq htwo⟩

open Sample

theorem password_of_copy_changed :
    ∃ w w', run (operate documentLibrary) .empty [addPassword, (.duplicateProfile 1, drawing 2 6)] =
        some w ∧ operate documentLibrary w (.setPasswordSecret 2 "two", drawing 3 4) = some w' ∧
      w'.vault.lookup (newRef 2).id = some "two" ∧ w'.vault.lookup (newRef 1).id = some "one" := by
  have hbrings : Meets (operate documentLibrary) (fun w e => BringsOwn documentLibrary w e.1) .empty
      [addPassword, (.duplicateProfile 1, drawing 2 6)] := by
    decide +kernel
  have hgets : getsPassword (.duplicateProfile 1, drawing 2 6) (newRef 2) = true := by
    decide +kernel
  obtain ⟨w, w', cfg, hrun, hstep, hrow, hr, hone, htwo⟩ := runs_of_getsPassword hgets
  refine ⟨w, w', hrun, hstep, htwo, ?_⟩
  rw [secrets_of_others_kept documentLibrary _ w (by decide) hbrings hrun _ w' rfl hstep 1 cfg hrow
    (by decide) (newRef 1) hr, hone]

theorem passwordJson_parsed [Texts] (id : Uuid) (now : Time) :
    parseImport documentLibrary.imports id now (jsonText passwordJson) = do
      let imported := { passwordDraft.config with
        id := id, updatedAt := now, routingMode := .proxyOnly
        authentication := .password (some (newRef 1)) }
      validateConnection imported
      return ⟨imported, none⟩ :=
  parseImport_writes (exportJson_writes ..) rfl (by decide +kernel) rfl

/-- A document that is imported brings in the reference of a stored profile. The password that the
new profile gets is then the old one's too. -/
theorem imported_reference_shared :
    ∃ w w' cfg, run (operate documentLibrary) .empty
        [addPassword, (.importProfileText (jsonText passwordJson), drawing 2 4)] = some w ∧
      operate documentLibrary w (.setPasswordSecret 2 "two", drawing 3 4) = some w' ∧
      w.profiles.lookup 1 = some cfg ∧ newRef 1 ∈ cfg.secretRefs ∧
      w.vault.lookup (newRef 1).id = some "one" ∧ w'.vault.lookup (newRef 1).id = some "two" := by
  refine runs_of_getsPassword ?_
  -- The text is not run through the parser: the kernel would take it apart byte by byte.
  simp only [getsPassword, run, operate, World.perform, Request.program, importProfileText,
    passwordJson_parsed]
  decide +kernel

end Sample

end EasyConnection.Core
