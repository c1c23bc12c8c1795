import EasyConnection.Core.Contracts

/-! # What the operations on credentials can do

The operations that make, change and delete profiles, each with everything that it can leave
behind, in the vault as well as in the table.
-/
namespace EasyConnection.Core
open Async Codec Config Secrets Ssh

section Growth

/-- The vault has new entries under the references `news`, which were in use nowhere. Nothing else
has changed. -/
structure Grown (w w' : World) (news : List SecretRef) : Prop where
  profiles : w'.profiles = w.profiles
  kept : ∀ id, (∀ r ∈ news, r.id ≠ id) → w'.vault.lookup id = w.vault.lookup id
  present : ∀ r ∈ news, w'.vault.lookup r.id ≠ none
  absent : ∀ r ∈ news, w.vault.lookup r.id = none
  unused : ∀ r ∈ news, r ∉ w.refs
  nodup : news.Nodup

/-- The table and what its references stand for are as they were. -/
structure Spared (w w' : World) : Prop where
  profiles : w'.profiles = w.profiles
  kept : ∀ r ∈ w.refs, w'.vault.lookup r.id = w.vault.lookup r.id

variable {w w₁ w₂ : World} {news news' : List SecretRef}

theorem Spared.refl (w : World) : Spared w w := ⟨rfl, fun _ _ => rfl⟩

theorem refs_congr (h : w₁.profiles = w.profiles) : w₁.refs = w.refs := by
  simp only [World.refs, h]

theorem ref_id_ne {r r' : SecretRef} {l : List SecretRef} (h : r ∉ l) (h' : r' ∈ l) :
    r.id ≠ r'.id := by
  intro hid
  cases r
  cases r'
  cases hid
  exact h h'

theorem Grown.refl (w : World) : Grown w w [] :=
  ⟨rfl, fun _ _ => rfl, fun _ h => (nomatch h), fun _ h => (nomatch h), fun _ h => (nomatch h),
    List.nodup_nil⟩

theorem Grown.put {r : SecretRef} (hvault : r.id ∉ w.vault) (hrefs : r ∉ w.refs) (value : String) :
    Grown w (w.put r value) [r] where
  profiles := rfl
  kept _ h := World.lookup_put_of_ne (h r (List.mem_singleton_self r)) value
  present := by simp
  absent := by simpa [AList.lookup_eq_none] using hvault
  unused := by simpa using hrefs
  nodup := List.nodup_singleton r

theorem Grown.trans (h : Grown w w₁ news) (h' : Grown w₁ w₂ news') :
    Grown w w₂ (news ++ news') := by
  have hne : ∀ r ∈ news, ∀ r' ∈ news', r'.id ≠ r.id := by
    intro r hr r' hr' heq
    exact h.present r hr (heq ▸ h'.absent r' hr')
  refine ⟨h'.profiles.trans h.profiles, fun id hid => ?_, fun r hr => ?_, fun r hr => ?_,
    fun r hr => ?_, ?_⟩
  · rw [h'.kept id fun r hr => hid r (List.mem_append_right _ hr),
      h.kept id fun r hr => hid r (List.mem_append_left _ hr)]
  · obtain hr | hr := List.mem_append.1 hr
    · rw [h'.kept r.id fun r' hr' => hne r hr r' hr']
      exact h.present r hr
    · exact h'.present r hr
  · obtain hr | hr := List.mem_append.1 hr
    · exact h.absent r hr
    · rw [← h.kept r.id fun r' hr' => (hne r' hr' r hr).symm]
      exact h'.absent r hr
  · obtain hr | hr := List.mem_append.1 hr
    · exact h.unused r hr
    · rw [← refs_congr h.profiles]
      exact h'.unused r hr
  · exact List.nodup_append'.2 ⟨h.nodup, h'.nodup, fun r hr hr' => hne r hr r hr' rfl⟩

theorem Grown.spared (h : Grown w w₁ news) : Spared w w₁ :=
  ⟨h.profiles, fun r hr => h.kept r.id fun _ hr' => ref_id_ne (h.unused _ hr') hr⟩

theorem Grown.spared_forget {r : SecretRef} (h : Grown w w₁ [r]) : Spared w (w₁.forget r) where
  profiles := h.profiles
  kept r' hr' := by
    have hne := ref_id_ne (h.unused r (List.mem_singleton_self r)) hr'
    rw [World.lookup_forget_of_ne hne]
    exact h.spared.kept r' hr'

end Growth

section Growing
variable [Texts] {α β : Type} {w : World}

/-- What is left of an operation that puts secrets into the vault. -/
def Leaves (refs : α → List SecretRef) (w : World) : Except CoreError α → World → Prop
  | .ok a, w' => Grown w w' (refs a)
  | .error _, w' => ∃ news, Grown w w' news

/-- The operation does nothing but put secrets into the vault, and returns their references. -/
def Grows (refs : α → List SecretRef) (x : CoreM α) : Prop := ∀ w, Runs (Leaves refs w) x w

theorem Grows.then {refs : α → List SecretRef} {x : CoreM α} (h : Grows refs x)
    {f : α → CoreM β} {post : Except CoreError β → World → Prop}
    (hok : ∀ a w₁, Grown w w₁ (refs a) → Runs post (f a) w₁)
    (herror : ∀ e w₁ news, Grown w w₁ news → post (.error e) w₁) : Runs post (x >>= f) w := by
  refine Prog.ensures_of_then ((h w).mono fun r w₁ hr => ?_)
  cases r with
  | ok a => exact hok a w₁ hr
  | error e =>
    obtain ⟨news, hnews⟩ := hr
    exact herror e w₁ news hnews

theorem putSecret_grows (value : String) : Grows (fun r => [r]) (putSecret value) :=
  fun w => putSecret_runs (fun _ hvault hrefs => .put hvault hrefs value) fun _ => ⟨[], .refl w⟩

theorem cloneSecret_grows (old : Option SecretRef) :
    Grows Option.toList (cloneSecret old) := by
  intro w
  cases old with
  | none => exact Grown.refl w
  | some old =>
    refine Prog.ensures_of_then (getSecret_runs (fun value _ => ?_) fun _ => ⟨[], .refl w⟩)
    exact (putSecret_grows value).then (fun _ _ h => h) fun _ _ news h => ⟨news, h⟩

theorem storeSecret_grows (value : Option String) :
    Grows Option.toList (storeSecret value) := by
  intro w
  cases value with
  | none => exact Grown.refl w
  | some value => exact (putSecret_grows value).then (fun _ _ h => h) fun _ _ news h => ⟨news, h⟩

/-- The two secrets of a private key. -/
theorem privateKey_grows {x y : CoreM (Option SecretRef)} (hx : Grows Option.toList x)
    (hy : Grows Option.toList y) (path : Option String) :
    Grows AuthMethod.secretRefs (do return .privateKey path (← x) (← y)) := fun _ =>
  hx.then (fun _ _ h => hy.then (fun _ _ h' => h.trans h') fun _ _ _ h' => ⟨_, h.trans h'⟩)
    fun _ _ news h => ⟨news, h⟩

theorem password_grows {x : CoreM (Option SecretRef)} (hx : Grows Option.toList x) :
    Grows AuthMethod.secretRefs (do return .password (← x)) := fun _ =>
  hx.then (fun _ _ h => h) fun _ _ news h => ⟨news, h⟩

theorem cloneAuth_grows (auth : AuthMethod) :
    Grows AuthMethod.secretRefs (cloneAuth auth) := by
  cases auth with
  | password secret => exact password_grows (cloneSecret_grows secret)
  | privateKey path passphrase keyMaterial =>
    exact privateKey_grows (cloneSecret_grows passphrase) (cloneSecret_grows keyMaterial) path
  | agent => exact fun w => Grown.refl w
  | none => exact fun w => Grown.refl w

theorem Credentials.store_grows (credentials : Credentials) :
    Grows AuthMethod.secretRefs credentials.store := by
  cases credentials with
  | password secret => exact password_grows (storeSecret_grows secret)
  | privateKey path passphrase keyMaterial =>
    exact privateKey_grows (storeSecret_grows passphrase) (storeSecret_grows keyMaterial) path
  | agent => exact fun w => Grown.refl w
  | none => exact fun w => Grown.refl w

end Growing

section Outcomes

/-- The operations that make, change and delete profiles with their secrets. -/
def Request.handlesSecrets : Request → Bool
  | .addProfile _ | .importProfileText _ | .importSmartLink _ | .duplicateProfile _
  | .setPasswordSecret _ _ | .deleteProfile _ => true
  | _ => false

/-- The profile that a request changes or deletes. -/
def Request.target : Request → Option Uuid
  | .setPasswordSecret id _ | .deleteProfile id => some id
  | _ => none

def withPassword (cfg : ConnectionConfig) (r : SecretRef) (t : Time) : ConnectionConfig :=
  { cfg with authentication := .password (some r), updatedAt := t }

/-- What a request can do, with whether it succeeds. -/
inductive Outcome (L : Library) (w : World) : Request → Bool → World → Prop
  | spared {req : Request} {w' : World} (h : Spared w w') : Outcome L w req false w'
  /-- A new profile, of which all secrets are new. -/
  | added {req : Request} {cfg : ConnectionConfig} {w₁ : World} (target : req.target = none)
      (new : cfg.id ∉ w.profiles) (grown : Grown w w₁ cfg.secretRefs) :
      Outcome L w req true (w₁.store cfg)
  | imported {raw : String} {cfg : ConnectionConfig} (new : cfg.id ∉ w.profiles)
      (refs : cfg.secretRefs = importedRefs L.imports raw) :
      Outcome L w (.importProfileText raw) true (w.store cfg)
  | duplicated {id : Uuid} {cfg copy : ConnectionConfig} {w₁ : World}
      (row : w.profiles.lookup id = some cfg) (new : copy.id ∉ w.profiles)
      (proxy : copy.proxy = cfg.proxy)
      (grown : Grown w w₁ (copy.authentication.secretRefs ++ copy.smartLinkSecret.toList)) :
      Outcome L w (.duplicateProfile id) true (w₁.store copy)
  /-- The password has been changed and the profile has not been stored. -/
  | overwritten {id : Uuid} {password : String} {cfg : ConnectionConfig} {r : SecretRef}
      (row : w.profiles.lookup id = some cfg) (auth : cfg.authentication = .password (some r)) :
      Outcome L w (.setPasswordSecret id password) false (w.put r password)
  | changed {id : Uuid} {password : String} {cfg : ConnectionConfig} {r : SecretRef} {t : Time}
      (row : w.profiles.lookup id = some cfg) (auth : cfg.authentication = .password (some r)) :
      Outcome L w (.setPasswordSecret id password) true
        ((w.put r password).store (withPassword cfg r t))
  /-- The profile has got a password instead of another authentication. -/
  | given {id : Uuid} {password : String} {cfg : ConnectionConfig} {r : SecretRef} {t : Time}
      {w₁ : World} (row : w.profiles.lookup id = some cfg) (grown : Grown w w₁ [r])
      (auth : ∀ r', cfg.authentication ≠ .password (some r')) :
      Outcome L w (.setPasswordSecret id password) true (w₁.store (withPassword cfg r t))
  /-- The row is gone. If the operation has succeeded, there was no link to forget. -/
  | dropped {id : Uuid} {cfg : ConnectionConfig} {ok : Bool} (row : w.profiles.lookup id = some cfg)
      (link : ok = true → cfg.smartLinkSecret = none) :
      Outcome L w (.deleteProfile id) ok (w.drop id)
  | forgotten {id : Uuid} {cfg : ConnectionConfig} {r : SecretRef}
      (row : w.profiles.lookup id = some cfg) (link : cfg.smartLinkSecret = some r) :
      Outcome L w (.deleteProfile id) true ((w.drop id).forget r)

variable {L : Library} {w : World}

theorem outcome_unchanged {req : Request} : Outcome L w req false w := .spared (.refl w)

variable [Texts]

theorem addProfile_outcome (draft : Draft) :
    Runs (fun r w' => Outcome L w (.addProfile draft) r.isOk w') (addProfile draft) w := by
  refine Prog.ensures_of_then (newId_runs fun id hid => ?_)
  refine Prog.ensures_of_then (now_runs fun created => ?_)
  refine draft.credentials.store_grows.then (fun auth w₁ h₁ => ?_) fun _ _ _ h => .spared h.spared
  refine (storeSecret_grows _).then (fun proxyAuth w₂ h₂ => ?_)
    fun _ _ _ h => .spared (h₁.trans h).spared
  refine (storeSecret_grows _).then (fun link w₃ h₃ => ?_)
    fun _ _ _ h => .spared ((h₁.trans h₂).trans h).spared
  have hgrown := (h₁.trans h₂).trans h₃
  exact saveProfile_runs (fun _ => .added rfl hid hgrown) fun _ => .spared hgrown.spared

theorem duplicateProfile_outcome (id : Uuid) :
    Runs (fun r w' => Outcome L w (.duplicateProfile id) r.isOk w') (duplicateProfile id) w := by
  refine Prog.ensures_of_then (getProfile_runs (fun cfg hcfg => ?_) fun _ => outcome_unchanged)
  refine Prog.ensures_of_then (newId_runs fun copyId hid => ?_)
  refine Prog.ensures_of_then (now_runs fun created => ?_)
  refine (cloneAuth_grows _).then (fun auth w₁ h₁ => ?_) fun _ _ _ h => .spared h.spared
  refine (cloneSecret_grows _).then (fun link w₂ h₂ => ?_)
    fun _ _ _ h => .spared (h₁.trans h).spared
  have hgrown := h₁.trans h₂
  exact Prog.ensures_of_then (upsertProfile_runs (fun _ => .duplicated hcfg hid rfl hgrown)
    fun _ => .spared hgrown.spared)

theorem setPasswordSecret_outcome (id : Uuid) (password : String) :
    Runs (fun r w' => Outcome L w (.setPasswordSecret id password) r.isOk w')
      (setPasswordSecret id password) w := by
  refine Prog.ensures_of_then (getProfile_runs (fun cfg hcfg => ?_) fun _ => outcome_unchanged)
  dsimp only [Prog.Then, storePassword]
  split
  · next r hauth =>
    refine Prog.ensures_of_then (Prog.ensures_of_then (updateSecret_runs ?_ fun _ => outcome_unchanged))
    refine Prog.ensures_of_then (now_runs fun t => ?_)
    exact Prog.ensures_of_then (upsertProfile_runs (fun _ => .changed hcfg hauth)
      fun _ => .overwritten hcfg hauth)
  · next hauth =>
    refine (putSecret_grows password).then (fun r w₁ h => ?_) fun _ _ _ h => .spared h.spared
    refine Prog.ensures_of_then (now_runs fun t => ?_)
    exact Prog.ensures_of_then (upsertProfile_runs (fun _ => .given hcfg h hauth)
      fun _ => .spared h.spared)

theorem upsertOrForget_runs {cfg : ConnectionConfig} {secret : SecretRef}
    {post : Except CoreError Unit → World → Prop} (hok : post (.ok ()) (w.store cfg))
    (hkept : ∀ e, post (.error e) w) (hforgotten : ∀ e, post (.error e) (w.forget secret)) :
    Runs post (upsertOrForget cfg secret) w := by
  refine (Prog.ensures_bind _ _).2 (upsertProfile_runs (fun _ => hok) fun e => ?_)
  rintro ⟨now, uuid, fault, response⟩ -
  cases fault with
  | none => exact hforgotten e
  | some message => exact hkept e

theorem importSmartLink_outcome (link : String) :
    Runs (fun r w' => Outcome L w (.importSmartLink link) r.isOk w') (importSmartLink L link) w := by
  refine Prog.ensures_of_then (check_runs (fun smart _ => ?_) fun _ => outcome_unchanged)
  dsimp only [Prog.Then]
  split
  · exact outcome_unchanged
  · refine (putSecret_grows link).then (fun r w₁ h => ?_) fun _ _ _ h => .spared h.spared
    refine Prog.ensures_of_then (newId_runs fun id hid => ?_)
    refine Prog.ensures_of_then (now_runs fun created => ?_)
    refine Prog.ensures_of_then (upsertOrForget_runs ?_ (fun _ => ?_) fun _ => ?_)
    · exact .added rfl (h.profiles ▸ hid) h
    · exact .spared h.spared
    · exact .spared h.spared_forget

theorem importProfileText_outcome (raw : String) :
    Runs (fun r w' => Outcome L w (.importProfileText raw) r.isOk w') (importProfileText L raw) w := by
  refine Prog.ensures_of_then (newId_runs fun id hid => ?_)
  refine Prog.ensures_of_then (now_runs fun t => ?_)
  refine Prog.ensures_of_then (check_runs (fun parsed hparsed => ?_) fun _ => outcome_unchanged)
  obtain ⟨hidentity, hlink⟩ := parseImport_identity hparsed
  obtain ⟨hparsedId, hrefs⟩ := Prod.mk.inj hidentity
  have hnew : parsed.config.id ∉ w.profiles := hparsedId ▸ hid
  dsimp only [Prog.Then]
  split
  · exact saveProfile_runs (fun _ => .imported hnew hrefs) fun _ => outcome_unchanged
  · next password hpassword =>
    refine (putSecret_grows password).then (fun r w₁ h => ?_) fun _ _ _ h => .spared h.spared
    have hnone := hrefs.trans (hlink (by rw [hpassword]; rfl))
    have hsecrets : ({ parsed.config with authentication := .password (some r) } :
        ConnectionConfig).secretRefs = [r] := by
      simp only [ConnectionConfig.secretRefs, List.append_eq_nil_iff] at hnone ⊢
      rw [hnone.1.2, hnone.2]
      rfl
    exact saveProfile_runs (fun t => .added rfl hnew (hsecrets ▸ h)) fun _ => .spared h.spared

theorem deleteProfile_outcome (id : Uuid) :
    Runs (fun r w' => Outcome L w (.deleteProfile id) r.isOk w') (deleteProfile id) w := by
  refine Prog.ensures_of_then (getProfile_runs (fun cfg hcfg => ?_) fun _ => outcome_unchanged)
  refine Prog.ensures_of_then (deleteRow_runs ?_ fun _ => outcome_unchanged)
  dsimp only [Prog.Then]
  split
  · next secret hlink =>
    exact deleteSecret_runs (.forgotten hcfg hlink) fun _ => .dropped hcfg fun h => (nomatch h)
  · next hlink => exact .dropped hcfg fun _ => hlink

theorem outcome_map {req : Request} {α β : Type} {f : α → β} {x : CoreM α}
    (h : Runs (fun r w' => Outcome L w req r.isOk w') x w) :
    Runs (fun r w' => Outcome L w req r.isOk w') (f <$> x) w := by
  refine runs_map (h.mono fun r _ hr => ?_)
  cases r <;> exact hr

/-- Whatever the clock, the vault and the network do, a request on credentials has one of the
outcomes. -/
theorem program_outcome {req : Request} (hreq : req.handlesSecrets = true) :
    (req.program L).Ensures exec Unused (fun r w' => Outcome L w req r.isOk w') w := by
  cases req with
  | addProfile draft => exact outcome_map (addProfile_outcome draft)
  | importProfileText raw => exact outcome_map (importProfileText_outcome raw)
  | importSmartLink link => exact outcome_map (importSmartLink_outcome link)
  | duplicateProfile id => exact outcome_map (duplicateProfile_outcome id)
  | setPasswordSecret id password => exact outcome_map (setPasswordSecret_outcome id password)
  | deleteProfile id => exact outcome_map (deleteProfile_outcome id)
  | saveProfile cfg => cases hreq
  | fetchZones id => cases hreq
  | setSelectedZone id zoneId => cases hreq

end Outcomes

end EasyConnection.Core
