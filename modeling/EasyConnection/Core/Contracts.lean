import EasyConnection.Core.Controller

/-! # What the accesses do

One rule for each access of the controller: what has to hold for the rest of the operation when
it succeeds, and when it fails.
-/
namespace EasyConnection.Core
open Async Codec Config Secrets Ssh

/-- Run alone from `w`, the operation ends in `post`, if the ids it draws are not in use. -/
abbrev Runs [Texts] {α : Type} (post : Except CoreError α → World → Prop) (x : CoreM α)
    (w : World) : Prop :=
  x.run.Ensures exec Unused post w

variable {cfg : ConnectionConfig} {ref : SecretRef}

section Stores
variable {w : World}

theorem World.mem_refs {r : SecretRef} :
    r ∈ w.refs ↔ ∃ id cfg, w.profiles.lookup id = some cfg ∧ r ∈ cfg.secretRefs := by
  simp only [World.refs, List.mem_flatMap]
  constructor
  · rintro ⟨⟨id, cfg⟩, hrow, hr⟩
    exact ⟨id, cfg, AList.mem_lookup_iff.2 hrow, hr⟩
  · rintro ⟨id, cfg, hlookup, hr⟩
    exact ⟨⟨id, cfg⟩, AList.mem_lookup_iff.1 hlookup, hr⟩

@[simp] theorem World.forget_profiles (ref : SecretRef) : (w.forget ref).profiles = w.profiles := rfl

@[simp] theorem World.lookup_store (cfg : ConnectionConfig) :
    (w.store cfg).profiles.lookup cfg.id = some cfg := AList.lookup_insert _

theorem World.lookup_store_of_ne {id : Uuid} (h : id ≠ cfg.id) :
    (w.store cfg).profiles.lookup id = w.profiles.lookup id := AList.lookup_insert_ne h

@[simp] theorem World.lookup_drop (id : Uuid) : (w.drop id).profiles.lookup id = none :=
  AList.lookup_erase id _

theorem World.lookup_drop_of_ne {id id' : Uuid} (h : id' ≠ id) :
    (w.drop id).profiles.lookup id' = w.profiles.lookup id' := AList.lookup_erase_ne h

@[simp] theorem World.lookup_put (ref : SecretRef) (value : String) :
    (w.put ref value).vault.lookup ref.id = some value :=
  (Secrets.Request.put ref.id value).lookup_apply w.vault

theorem World.lookup_put_of_ne {id : String} (h : ref.id ≠ id) (value : String) :
    (w.put ref value).vault.lookup id = w.vault.lookup id :=
  Secrets.Request.lookup_apply_of_ne (show (Secrets.Request.put ref.id value).id ≠ id from h) w.vault

@[simp] theorem World.lookup_forget (ref : SecretRef) :
    (w.forget ref).vault.lookup ref.id = none :=
  (Secrets.Request.delete ref.id).lookup_apply w.vault

theorem World.lookup_forget_of_ne {id : String} (h : ref.id ≠ id) :
    (w.forget ref).vault.lookup id = w.vault.lookup id :=
  Secrets.Request.lookup_apply_of_ne (show (Secrets.Request.delete ref.id).id ≠ id from h) w.vault

theorem mem_refs {id : Uuid} {r : SecretRef} (hrow : w.profiles.lookup id = some cfg)
    (hr : r ∈ cfg.secretRefs) : r ∈ w.refs :=
  World.mem_refs.2 ⟨id, cfg, hrow, hr⟩

theorem lookup_of_lookup_drop {id id' : Uuid} (h : (w.drop id).profiles.lookup id' = some cfg) :
    id' ≠ id ∧ w.profiles.lookup id' = some cfg := by
  have hne : id' ≠ id := by
    rintro rfl
    rw [World.lookup_drop] at h
    cases h
  exact ⟨hne, World.lookup_drop_of_ne hne ▸ h⟩

/-- A row of the table is the one that has just been stored, or an old one under another id. -/
theorem lookup_store_cases {id : Uuid} {new : ConnectionConfig}
    (h : (w.store new).profiles.lookup id = some cfg) :
    id = new.id ∧ cfg = new ∨ id ≠ new.id ∧ w.profiles.lookup id = some cfg := by
  by_cases hid : id = new.id
  · subst hid
    rw [World.lookup_store] at h
    exact .inl ⟨rfl, (Option.some.inj h).symm⟩
  · rw [World.lookup_store_of_ne hid] at h
    exact .inr ⟨hid, h⟩

theorem store_profiles_congr {w' : World} (h : w'.profiles = w.profiles) :
    (w'.store cfg).profiles = (w.store cfg).profiles :=
  congrArg (fun profiles => profiles.insert cfg.id cfg) h

end Stores

section Rules
variable {α β : Type} {w : World}

theorem runs_map [Texts] {f : α → β} {x : CoreM α} {post : Except CoreError β → World → Prop}
    (h : Runs (fun r w' => post (r.map f) w') x w) : Runs post (f <$> x) w := by
  refine (Prog.ensures_bind x.run _).2 (h.mono fun r w' hr => ?_)
  cases r <;> exact hr

theorem now_runs [Texts] {post : Except CoreError Time → World → Prop} (h : ∀ t, post (.ok t) w) :
    Runs post now w :=
  fun c _ => h c.now

theorem newId_runs [Texts] {post : Except CoreError Uuid → World → Prop}
    (h : ∀ id, id ∉ w.profiles → post (.ok id) w) : Runs post newId w :=
  fun c hc => h c.uuid hc

theorem exchange_runs [Texts] {req : ZoneHttpRequest}
    {post : Except CoreError (Except SshError HttpResponse) → World → Prop}
    (h : ∀ answer, post (.ok answer) w) : Runs post (exchange req) w :=
  fun c _ => h c.response

theorem check_runs [Texts] {r : Except ConfigError α} {post : Except CoreError α → World → Prop}
    (hok : ∀ a, r = .ok a → post (.ok a) w) (herror : ∀ e, post (.error e) w) :
    Runs post (check r) w := by
  cases r with
  | ok a => exact hok a rfl
  | error e => exact herror _

theorem getProfile_runs [Texts] {id : Uuid}
    {post : Except CoreError ConnectionConfig → World → Prop}
    (hok : ∀ cfg, w.profiles.lookup id = some cfg → post (.ok cfg) w)
    (herror : ∀ text, post (.error (.config (.notFound text))) w) : Runs post (getProfile id) w := by
  rintro ⟨now, uuid, fault, response⟩ -
  cases hlookup : w.profiles.lookup id with
  | none => cases fault <;> (simp only [exec, hlookup]; exact herror _)
  | some cfg =>
    cases fault with
    | none =>
      simp only [exec, hlookup]
      exact hok cfg hlookup
    | some message =>
      simp only [exec]
      exact herror _

variable {post : Except CoreError Unit → World → Prop}

theorem upsertProfile_runs [Texts]
    (hok : validateConnection cfg = .ok () → post (.ok ()) (w.store cfg))
    (herror : ∀ e, post (.error e) w) : Runs post (upsertProfile cfg) w := by
  rintro ⟨now, uuid, fault, response⟩ -
  cases hvalid : validateConnection cfg with
  | error e =>
    simp only [exec, hvalid]
    exact herror _
  | ok u =>
    cases fault with
    | none =>
      simp only [exec, hvalid]
      exact hok hvalid
    | some message =>
      simp only [exec, hvalid]
      exact herror _

theorem deleteRow_runs [Texts] {id : Uuid} (hok : post (.ok ()) (w.drop id))
    (herror : ∀ e, post (.error e) w) : Runs post (ofConfig (perform (.deleteProfile id))) w := by
  rintro ⟨now, uuid, fault, response⟩ -
  cases fault with
  | some message => exact herror _
  | none =>
    simp only [exec]
    split
    · exact hok
    · exact herror _

/-- An access to the vault that fails leaves everything. -/
theorem vaultCall_ensures {x : World × Except SecretsError α} {c : Choice}
    {post : Except CoreError α → World → Prop} (hok : post (x.2.mapError .secrets) x.1)
    (herror : ∀ e, post (.error (.secrets e)) w) :
    post ((w.vaultCall c x).2.mapError .secrets) (w.vaultCall c x).1 := by
  unfold World.vaultCall
  cases c.fault with
  | none => exact hok
  | some message => exact herror _

theorem getSecret_runs [Texts] {post : Except CoreError String → World → Prop}
    (hok : ∀ value, w.vault.lookup ref.id = some value → post (.ok value) w)
    (herror : ∀ e, post (.error (.secrets e)) w) : Runs post (getSecret ref) w := by
  intro c _
  simp only [exec]
  split
  · exact herror _
  · refine vaultCall_ensures ?_ herror
    cases hlookup : w.vault.lookup ref.id with
    | none => exact herror _
    | some value => exact hok value hlookup

theorem putSecret_runs [Texts] {value : String} {post : Except CoreError SecretRef → World → Prop}
    (hok : ∀ ref, ref.id ∉ w.vault → ref ∉ w.refs → post (.ok ref) (w.put ref value))
    (herror : ∀ e, post (.error (.secrets e)) w) : Runs post (putSecret value) w :=
  fun c hc => vaultCall_ensures (hok (newRef c.uuid) hc.1 hc.2) herror

theorem updateSecret_runs [Texts] {value : String} (hok : post (.ok ()) (w.put ref value))
    (herror : ∀ e, post (.error (.secrets e)) w) :
    Runs post (ofSecrets (perform (.updateSecret ref value))) w := by
  intro c _
  simp only [exec]
  split
  · exact herror _
  · exact vaultCall_ensures hok herror

theorem deleteSecret_runs [Texts] (hok : post (.ok ()) (w.forget ref))
    (herror : ∀ e, post (.error (.secrets e)) w) :
    Runs post (ofSecrets (perform (.deleteSecret ref))) w :=
  fun _ _ => vaultCall_ensures hok herror

/-- The profile as `save_profile` stores it. -/
def saved (cfg : ConnectionConfig) (t : Time) : ConnectionConfig :=
  { cfg with updatedAt := t, routingMode := .proxyOnly }

theorem saveProfile_runs [Texts] {post : Except CoreError ConnectionConfig → World → Prop}
    (hok : ∀ t, post (.ok (saved cfg t)) (w.store (saved cfg t)))
    (herror : ∀ e, post (.error e) w) : Runs post (saveProfile cfg) w := by
  refine Prog.ensures_of_then (now_runs fun t => ?_)
  refine Prog.ensures_of_then (check_runs (fun _ _ => ?_) herror)
  exact Prog.ensures_of_then (upsertProfile_runs (fun _ => hok t) herror)

theorem storePassword_runs [Texts] {auth : AuthMethod} {password : String}
    {post : Except CoreError SecretRef → World → Prop}
    (h : ∀ r w', w'.profiles = w.profiles → post r w') : Runs post (storePassword auth password) w := by
  unfold storePassword
  split
  · exact Prog.ensures_of_then (updateSecret_runs (h _ _ rfl) fun _ => h _ _ rfl)
  · exact putSecret_runs (fun _ _ _ => h _ _ rfl) fun _ => h _ _ rfl

/-- The row of the profile is read, and written back with the password in the vault. -/
theorem setPasswordSecret_runs [Texts] {id : Uuid} {password : String}
    {post : Except CoreError ConnectionConfig → World → Prop}
    (hok : ∀ cfg r t (w' : World), w.profiles.lookup id = some cfg → w'.profiles = w.profiles →
      post (.ok { cfg with authentication := .password (some r), updatedAt := t })
        (w'.store { cfg with authentication := .password (some r), updatedAt := t }))
    (herror : ∀ e (w' : World), w'.profiles = w.profiles → post (.error e) w') :
    Runs post (setPasswordSecret id password) w := by
  refine Prog.ensures_of_then (getProfile_runs (fun cfg hcfg => ?_) fun _ => herror _ _ rfl)
  refine Prog.ensures_of_then (storePassword_runs fun r w₁ hw₁ => ?_)
  cases r with
  | error e => exact herror e w₁ hw₁
  | ok reference =>
    refine Prog.ensures_of_then (now_runs fun t => ?_)
    exact Prog.ensures_of_then (upsertProfile_runs (fun _ => hok cfg reference t w₁ hcfg hw₁)
      fun e => herror e w₁ hw₁)

end Rules

end EasyConnection.Core
