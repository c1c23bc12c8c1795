import EasyConnection.Core.Aliasing

/-! # Secrets that no profile refers to

A deletion takes the link of a Smart Config out of the vault and no other secret, and a password
that takes the place of a private key leaves the secrets of the key. Where neither leaves an entry,
some profile refers to every entry of the vault.
-/
namespace EasyConnection.Core
open Async Codec Config Secrets Ssh

section Accounts
variable {w w' w₁ : World} {cfg : ConnectionConfig} {id : Uuid} {r : SecretRef}

structure Accounted (w : World) : Prop where
  keyed : ∀ {id cfg}, w.profiles.lookup id = some cfg → cfg.id = id
  referenced : ∀ {id}, w.vault.lookup id ≠ none → ∃ r ∈ w.refs, r.id = id

theorem no_row (h : id ∉ w.profiles) : w.profiles.lookup id ≠ some cfg := by
  rw [AList.lookup_eq_none.2 h]
  exact nofun

theorem accounted_empty : Accounted .empty where
  keyed h := nomatch h
  referenced h := absurd rfl h

theorem mem_refs_store (h : r ∈ w.refs)
    (hold : ∀ old, w.profiles.lookup cfg.id = some old → r ∈ old.secretRefs → r ∈ cfg.secretRefs) :
    r ∈ (w.store cfg).refs := by
  obtain ⟨id, old, hrow, hr⟩ := World.mem_refs.1 h
  by_cases hid : id = cfg.id
  · subst hid
    exact mem_refs (World.lookup_store cfg) (hold old hrow hr)
  · exact mem_refs ((World.lookup_store_of_ne hid).trans hrow) hr

theorem mem_refs_drop (h : r ∈ w.refs) (hrow : w.profiles.lookup id = some cfg)
    (hr : r ∉ cfg.secretRefs) : r ∈ (w.drop id).refs := by
  obtain ⟨id', cfg', hrow', hr'⟩ := World.mem_refs.1 h
  have hne : id' ≠ id := by
    rintro rfl
    obtain rfl := Option.some.inj (hrow.symm.trans hrow')
    exact hr hr'
  exact mem_refs ((World.lookup_drop_of_ne hne).trans hrow') hr'

theorem Grown.lookup_cases {news : List SecretRef} {key : String} (h : Grown w w' news)
    (hkey : w'.vault.lookup key ≠ none) :
    w.vault.lookup key ≠ none ∨ ∃ r ∈ news, r.id = key := by
  by_cases hnew : ∃ r ∈ news, r.id = key
  · exact .inr hnew
  · exact .inl (h.kept key (fun r hr hid => hnew ⟨r, hr, hid⟩) ▸ hkey)

/-- A row is stored after new entries have been made, each of which it refers to. -/
theorem Accounted.store (h : Accounted w) (hprofiles : w₁.profiles = w.profiles)
    (hvault : ∀ key, w₁.vault.lookup key ≠ none →
      w.vault.lookup key ≠ none ∨ ∃ r ∈ cfg.secretRefs, r.id = key)
    (hold : ∀ old, w.profiles.lookup cfg.id = some old → ∀ r ∈ old.secretRefs,
      w.vault.lookup r.id ≠ none → r ∈ cfg.secretRefs) : Accounted (w₁.store cfg) := by
  refine ⟨fun hrow => ?_, fun {key} hkey => ?_⟩
  · obtain ⟨rfl, rfl⟩ | ⟨-, hrow⟩ := lookup_store_cases hrow
    · rfl
    · exact h.keyed (hprofiles ▸ hrow)
  · obtain hkey | ⟨r, hr, hid⟩ := hvault key hkey
    · obtain ⟨r, hr, hid⟩ := h.referenced hkey
      refine ⟨r, ?_, hid⟩
      rw [refs_congr (store_profiles_congr hprofiles)]
      exact mem_refs_store hr fun old hrow hr => hold old hrow r hr (hid.symm ▸ hkey)
    · exact ⟨r, mem_refs (World.lookup_store cfg) hr, hid⟩

theorem Accounted.store_withPassword {t : Time} (h : Accounted w)
    (hrow : w.profiles.lookup id = some cfg) (hprofiles : w₁.profiles = w.profiles)
    (hvault : ∀ key, w₁.vault.lookup key ≠ none → w.vault.lookup key ≠ none ∨ r.id = key)
    (hauth : ∀ r' ∈ cfg.authentication.secretRefs, w.vault.lookup r'.id ≠ none → r' = r) :
    Accounted (w₁.store (withPassword cfg r t)) := by
  obtain rfl := h.keyed hrow
  refine h.store hprofiles (fun key hkey => ?_) fun old hold r' hr' hkept => ?_
  · exact (hvault key hkey).imp_right fun hid =>
      ⟨r, mem_secretRefs.2 (.inl (List.mem_append_left _ (List.mem_singleton_self r))), hid⟩
  · obtain rfl := Option.some.inj (hrow.symm.trans hold)
    obtain hr' | hr' := mem_secretRefs.1 hr'
    · refine mem_secretRefs.2 (.inl (List.mem_append.2 ?_))
      exact (List.mem_append.1 hr').imp_left fun hr' => List.mem_singleton.2 (hauth r' hr' hkept)
    · exact mem_secretRefs_of_proxy hr'

theorem Accounted.drop (h : Accounted w) (hrow : w.profiles.lookup id = some cfg)
    (hprofiles : w₁.profiles = (w.drop id).profiles)
    (hvault : ∀ key, w₁.vault.lookup key ≠ none →
      w.vault.lookup key ≠ none ∧ ∀ r ∈ cfg.secretRefs, r.id ≠ key) : Accounted w₁ := by
  refine ⟨fun hrow' => ?_, fun {key} hkey => ?_⟩
  · rw [hprofiles] at hrow'
    exact h.keyed (lookup_of_lookup_drop hrow').2
  · obtain ⟨hkey, hne⟩ := hvault key hkey
    obtain ⟨r, hr, hid⟩ := h.referenced hkey
    refine ⟨r, ?_, hid⟩
    rw [refs_congr hprofiles]
    exact mem_refs_drop hr hrow fun hr' => hne r hr' hid

end Accounts

section Requests
variable {L : Library} {w w' : World} {req : Request} {cfg : ConnectionConfig} {id : Uuid}

/-- A profile is deleted only if none of its secrets but the link is in the vault, and gets a
password only if its authentication has nothing there but the old one. -/
def Tidy (w : World) : Request → Prop
  | .deleteProfile id => ∀ cfg ∈ w.profiles.lookup id,
    ∀ r ∈ cfg.authentication.secretRefs ++ cfg.proxy.authSecret.toList, r.id ∉ w.vault
  | .setPasswordSecret id _ => ∀ cfg ∈ w.profiles.lookup id,
    ∀ r ∈ cfg.authentication.secretRefs, r.id ∈ w.vault → cfg.authentication = .password (some r)
  | _ => True

instance : DecidablePred (Tidy w)
  | .deleteProfile _ => inferInstanceAs (Decidable (∀ cfg ∈ _, ∀ r ∈ _, _))
  | .setPasswordSecret _ _ => inferInstanceAs (Decidable (∀ cfg ∈ _, ∀ r ∈ _, _ → _ = _))
  | .addProfile _ | .saveProfile _ | .duplicateProfile _ | .importProfileText _
  | .importSmartLink _ | .fetchZones _ | .setSelectedZone _ _ => .isTrue trivial

theorem Tidy.absent_or_link {r : SecretRef} (htidy : Tidy w (.deleteProfile id))
    (hrow : w.profiles.lookup id = some cfg) (hr : r ∈ cfg.secretRefs) :
    w.vault.lookup r.id = none ∨ cfg.smartLinkSecret = some r := by
  obtain hr | hr := List.mem_append.1 hr
  · exact .inl (AList.lookup_eq_none.2 (htidy cfg hrow r hr))
  · exact .inr (Option.mem_toList.1 hr)

theorem Outcome.accounted (h : Outcome L w req true w') (hw : Accounted w) (htidy : Tidy w req) :
    Accounted w' := by
  cases h with
  | added target new grown =>
    exact hw.store grown.profiles (fun _ => grown.lookup_cases) fun _ hrow => absurd hrow (no_row new)
  | imported new refs => exact hw.store rfl (fun _ => .inl) fun _ hrow => absurd hrow (no_row new)
  | duplicated row new proxy grown =>
    refine hw.store grown.profiles (fun key hkey => ?_) fun _ hrow => absurd hrow (no_row new)
    refine (grown.lookup_cases hkey).imp_right ?_
    rintro ⟨r, hr, hid⟩
    exact ⟨r, mem_secretRefs.2 (.inl hr), hid⟩
  | @changed id password cfg r t row auth =>
    refine hw.store_withPassword row rfl (fun key hkey => ?_) (by simp [auth, AuthMethod.secretRefs])
    by_cases hid : r.id = key
    · exact .inr hid
    · exact .inl (World.lookup_put_of_ne hid password ▸ hkey)
  | @given id password cfg r t w₁ row grown auth =>
    refine hw.store_withPassword row grown.profiles (fun key hkey => ?_) fun r' hr' hkept => ?_
    · simpa using grown.lookup_cases hkey
    · refine absurd (htidy cfg row r' hr' ?_) (auth r')
      by_contra habsent
      exact hkept (AList.lookup_eq_none.2 habsent)
  | @dropped id cfg ok row link =>
    refine hw.drop row rfl fun key hkey => ⟨hkey, ?_⟩
    rintro r hr rfl
    obtain habsent | hlink := htidy.absent_or_link row hr
    · exact hkey habsent
    · cases (link rfl).symm.trans hlink
  | @forgotten id cfg r row link =>
    refine hw.drop row rfl fun key hkey => ?_
    have hne : r.id ≠ key := by
      rintro rfl
      exact hkey (World.lookup_forget r)
    have hkept : w.vault.lookup key ≠ none := World.lookup_forget_of_ne hne ▸ hkey
    refine ⟨hkept, ?_⟩
    rintro r' hr rfl
    obtain habsent | hlink := htidy.absent_or_link row hr
    · exact hkept habsent
    · exact hne (congrArg SecretRef.id (Option.some.inj (link.symm.trans hlink)))

/-- Nothing that a deleted profile referred to is left in the vault. -/
theorem Outcome.deleted (h : Outcome L w (.deleteProfile id) true w')
    (htidy : Tidy w (.deleteProfile id)) (hrow : w.profiles.lookup id = some cfg) :
    ∀ r ∈ cfg.secretRefs, w'.vault.lookup r.id = none := by
  intro r hr
  have hr := htidy.absent_or_link hrow hr
  cases h with
  | added target new grown => cases target
  | dropped row link =>
    obtain rfl := Option.some.inj (hrow.symm.trans row)
    rw [link rfl] at hr
    exact hr.resolve_right nofun
  | @forgotten _ _ r' row link =>
    obtain rfl := Option.some.inj (hrow.symm.trans row)
    by_cases hid : r'.id = r.id
    · exact hid ▸ World.lookup_forget r'
    · refine (World.lookup_forget_of_ne hid).trans (hr.resolve_right fun hlink => hid ?_)
      exact congrArg SecretRef.id (Option.some.inj (link.symm.trans hlink))

/-- A request that succeeds, with how its accesses go. -/
def succeed [Texts] (L : Library) (w : World) (e : Request × List Choice) : Option World :=
  (w.perform L e.1 e.2).bind fun x => if x.1.isOk then some x.2 else none

theorem succeed_outcome [Texts] {e : Request × List Choice} (hreq : e.1.handlesSecrets = true)
    (h : succeed L w e = some w') : Outcome L w e.1 true w' := by
  obtain ⟨⟨r, w₁⟩, hperform, h⟩ := Option.bind_eq_some_iff.1 h
  have houtcome := (program_outcome hreq).runWith hperform
  split at h
  · next hok =>
    obtain rfl := Option.some.inj h
    exact hok ▸ houtcome
  · cases h

theorem accounted_of_run [Texts] {es : List (Request × List Choice)}
    (hreqs : ∀ e ∈ es, e.1.handlesSecrets = true)
    (htidy : Meets (succeed L) (fun w e => Tidy w e.1) .empty es)
    (hrun : run (succeed L) .empty es = some w) : Accounted w := by
  refine run_invariant (fun w e w' hw he hstep => ?_) accounted_empty (htidy.and_labels hreqs) hrun
  exact (succeed_outcome he.2 hstep).accounted hw he.1

end Requests

/-- While no profile is deleted that has more in the vault than its Smart Config link, and no
password takes the place of other secrets in the vault, some profile refers to every entry of the
vault, and a deletion leaves nothing of what it deletes. -/
theorem vault_referenced [Texts] (L : Library) (es : List (Request × List Choice)) (w : World)
    (hreqs : ∀ e ∈ es, e.1.handlesSecrets = true)
    (htidy : Meets (succeed L) (fun w e => Tidy w e.1) .empty es)
    (hrun : run (succeed L) .empty es = some w) :
    (∀ key ∈ w.vault, ∃ id cfg, w.profiles.lookup id = some cfg ∧ ∃ r ∈ cfg.secretRefs, r.id = key) ∧
    ∀ id cfg cs w', w.profiles.lookup id = some cfg → Tidy w (.deleteProfile id) →
      succeed L w (.deleteProfile id, cs) = some w' → ∀ r ∈ cfg.secretRefs, r.id ∉ w'.vault := by
  refine ⟨fun key hkey => ?_, fun id cfg cs w' hrow hdelete hstep r hr => ?_⟩
  · have hpresent : w.vault.lookup key ≠ none := fun h => AList.lookup_eq_none.1 h hkey
    obtain ⟨r, hr, hid⟩ := (accounted_of_run hreqs htidy hrun).referenced hpresent
    obtain ⟨id, cfg, hrow, hr⟩ := World.mem_refs.1 hr
    exact ⟨id, cfg, hrow, r, hr, hid⟩
  · exact AList.lookup_eq_none.1 ((succeed_outcome rfl hstep).deleted hdelete hrow r hr)

section Sample

def linkDraft : Draft where
  config := ConnectionConfig.newSmart 0 0 "Smart" "192.0.2.1" 443 ⟨"sec_"⟩
  credentials := .none
  proxyAuth := none
  smartLink := some "link"

def addLink : Request × List Choice := (.addProfile linkDraft, drawing 2 5)

open Sample

theorem link_deleted :
    ∃ w w' cfg, run (succeed documentLibrary) .empty [addPassword, addLink] = some w ∧
      succeed documentLibrary w (.deleteProfile 2, drawing 3 3) = some w' ∧
      w.profiles.lookup 2 = some cfg ∧ newRef 2 ∈ cfg.secretRefs ∧
      (newRef 2).id ∈ w.vault ∧ (newRef 2).id ∉ w'.vault := by
  have htidy : Meets (succeed documentLibrary) (fun w e => Tidy w e.1) .empty
      [addPassword, addLink] := by
    decide +kernel
  have hend : (run (succeed documentLibrary) .empty [addPassword, addLink]).any (fun w =>
      decide ((newRef 2).id ∈ w.vault ∧ Tidy w (.deleteProfile 2)) &&
      (w.profiles.lookup 2).any (fun cfg => newRef 2 ∈ cfg.secretRefs) &&
      (succeed documentLibrary w (.deleteProfile 2, drawing 3 3)).isSome) = true := by
    decide +kernel
  obtain ⟨w, hrun, hw⟩ := (Option.any_eq_true _ _).1 hend
  simp only [Bool.and_eq_true, decide_eq_true_eq] at hw
  obtain ⟨⟨⟨hvault, hdelete⟩, hrow⟩, hstep⟩ := hw
  obtain ⟨cfg, hrow, hr⟩ := (Option.any_eq_true _ _).1 hrow
  obtain ⟨w', hstep⟩ := Option.isSome_iff_exists.1 hstep
  have hr : newRef 2 ∈ cfg.secretRefs := of_decide_eq_true hr
  refine ⟨w, w', cfg, hrun, hstep, hrow, hr, hvault, ?_⟩
  exact (vault_referenced documentLibrary _ w (by decide) htidy hrun).2 2 cfg _ w' hrow hdelete hstep
    _ hr

/-- The profile is deleted and its password is still in the vault. -/
theorem password_left_behind :
    ∃ w, run (succeed documentLibrary) .empty [addPassword, (.deleteProfile 1, drawing 2 2)] =
        some w ∧ w.vault.lookup (newRef 1).id = some "one" ∧ w.refs = [] := by
  have hend : (run (succeed documentLibrary) .empty
      [addPassword, (.deleteProfile 1, drawing 2 2)]).any (fun w =>
        decide (w.vault.lookup (newRef 1).id = some "one" ∧ w.refs = [])) = true := by
    decide +kernel
  obtain ⟨w, hrun, hw⟩ := (Option.any_eq_true _ _).1 hend
  exact ⟨w, hrun, of_decide_eq_true hw⟩

end Sample

end EasyConnection.Core
