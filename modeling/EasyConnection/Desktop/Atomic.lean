import EasyConnection.Core.Refusals
import EasyConnection.Desktop.Editing
import EasyConnection.Desktop.ZoneChoice

/-! # Credentials of a rejected profile

The operations that store a credential write to the vault and to the table one after the other.
What the first write has left is still there when the second is rejected: only the import of a
link takes it out again.
-/
namespace EasyConnection.Desktop
open Async Codec Config EasyConnection.Core Ssh

/-- The validation or the table has rejected a profile. -/
def CommandError.rejects : CommandError → Bool
  | .message _ => false
  | .core e => e.rejects

/-- The operations that may store a credential. -/
inductive CredentialRequest where
  | duplicateProfile (id : Uuid)
  | setPasswordSecret (id : Uuid) (password : String)
  | importProfileText (raw : String)
  | importSmartLink (link : String)
  | addSshProfile (args : AddSshProfile)
  | addSsProfile (args : AddSsProfile)
  | updateSshProfile (args : UpdateProfile)
  deriving DecidableEq

section Requests
variable (L : Library)

/-- The operation, with what it returns left out. -/
def CredentialRequest.program [Texts] : CredentialRequest → CommandM Unit
  | .duplicateProfile id => (fun _ => ()) <$> ofCore (Core.duplicateProfile id)
  | .setPasswordSecret id password => (fun _ => ()) <$> ofCore (Core.setPasswordSecret id password)
  | .importProfileText raw => (fun _ => ()) <$> ofCore (Core.importProfileText L.core raw)
  | .importSmartLink link => (fun _ => ()) <$> ofCore (Core.importSmartLink L.core link)
  | .addSshProfile args => (fun _ => ()) <$> Desktop.addSshProfile args
  | .addSsProfile args => (fun _ => ()) <$> Desktop.addSsProfile args
  | .updateSshProfile args => (fun _ => ()) <$> Desktop.updateSshProfile L args

/-- The id that an update is for and the profile that it stores before it looks at the password. -/
def UpdateProfile.stored [Texts] (args : UpdateProfile) (w : World) :
    List Choice → Option (Uuid × ConnectionConfig)
  | _ :: clock :: upsert :: _ => do
    let id ← (L.parseUuid args.id).toOption
    let cfg ← w.profiles.lookup id
    let new ← (edited cfg args).toOption
    if validateConnection (saved new clock.now) = .ok () ∧ upsert.fault = none then
      some (id, saved new clock.now)
    else none
  | _ => none

/-- What has to hold for a rejected profile to leave the stores as they were. -/
def Undisturbed [Texts] (w : World) (cs : List Choice) : CredentialRequest → Prop
  -- There is nothing to copy.
  | .duplicateProfile id => ∀ cfg, w.profiles.lookup id = some cfg →
      cfg.authentication.secretRefs = [] ∧ cfg.smartLinkSecret = none
  | .setPasswordSecret id password => w.HasPassword id password
  | .importProfileText raw => ∀ c₁ c₂ cs' parsed, cs = c₁ :: c₂ :: cs' →
      parseImport L.core.imports c₁.uuid c₂.now raw = .ok parsed → parsed.password = none
  -- The last access takes the link out of the vault.
  | .importSmartLink _ => ∀ c ∈ cs.getLast?, c.fault = none
  | .addSshProfile _ | .addSsProfile _ => False
  -- The update is two operations, of which the first may stand.
  | .updateSshProfile args => ∀ id new password, args.stored L w cs = some (id, new) →
      args.newPassword = some password →
        w.profiles.lookup new.id = some new ∧ w.HasPassword id password

end Requests

section Runs
variable {α β : Type} {L : Library} {w w' : World} {cs : List Choice} {e : CommandError}

theorem ofCore_failed [Texts] {x : CoreM α}
    (h : (ofCore x).run.runWith exec Unused cs w = some (.error e, w')) :
    ∃ e', e = .core e' ∧ x.run.runWith exec Unused cs w = some (.error e', w') := by
  obtain ⟨r, hr, hx⟩ := Prog.runWith_mapError h
  cases r with
  | ok a => cases hr
  | error e' => exact ⟨e', Except.error.inj hr, hx⟩

theorem ofCore_then_run [Texts] {x : CoreM α} {f : α → CommandM β} {r : Except CommandError β}
    (h : (ofCore x >>= f).run.runWith exec Unused cs w = some (r, w')) :
    (∃ cs₁ cs₂ a w₁, cs = cs₁ ++ cs₂ ∧ x.run.runWith exec Unused cs₁ w = some (.ok a, w₁) ∧
      (f a).run.runWith exec Unused cs₂ w₁ = some (r, w')) ∨
    ∃ e, r = .error (.core e) ∧ x.run.runWith exec Unused cs w = some (.error e, w') := by
  rcases Prog.runWith_except_bind h with ⟨cs₁, cs₂, a, w₁, hcs, hx, hf⟩ | ⟨e, rfl, hx⟩
  · obtain ⟨r₁, hr₁, hx⟩ := Prog.runWith_mapError hx
    cases r₁ with
    | error e => cases hr₁
    | ok b =>
      obtain rfl := Except.ok.inj hr₁
      exact .inl ⟨cs₁, cs₂, a, w₁, hcs, hx, hf⟩
  · obtain ⟨e', rfl, hfailed⟩ := ofCore_failed hx
    exact .inr ⟨e', rfl, hfailed⟩

theorem ofExcept_then_rejected [Texts] {x : Except String α} {f : α → CommandM β}
    (h : (ofExcept x >>= f).run.runWith exec Unused cs w = some (.error e, w'))
    (hrejects : e.rejects = true) :
    ∃ a, x = .ok a ∧ (f a).run.runWith exec Unused cs w = some (.error e, w') := by
  cases x with
  | ok a => exact ⟨a, rfl, h⟩
  | error text =>
    obtain ⟨-, he, -⟩ := Prog.runWith_ret_eq_some.1 h
    obtain rfl := Except.error.inj he
    cases hrejects

theorem getProfile_then_rejected [Texts] {id : Uuid} {f : ConnectionConfig → CommandM β}
    (h : (ofCore (Core.getProfile id) >>= f).run.runWith exec Unused cs w = some (.error e, w'))
    (hrejects : e.rejects = true) :
    ∃ c cs' cfg, cs = c :: cs' ∧ w.profiles.lookup id = some cfg ∧
      (f cfg).run.runWith exec Unused cs' w = some (.error e, w') := by
  rcases ofCore_then_run h with ⟨cs₁, cs₂, cfg, w₁, rfl, hget, hrest⟩ | ⟨e', he, hget⟩
  · obtain ⟨c, rfl, rfl, ⟨cfg', hcfg, hr⟩ | ⟨text, hr⟩⟩ := getProfile_run hget
    · obtain rfl := Except.ok.inj hr
      exact ⟨c, cs₂, cfg, rfl, hcfg, hrest⟩
    · cases hr
  · obtain rfl := Except.error.inj he
    obtain ⟨c, -, -, ⟨cfg', -, hr⟩ | ⟨text, hr⟩⟩ := getProfile_run hget
    · cases hr
    · obtain rfl := Except.error.inj hr
      cases hrejects

/-- The failure is that of the save, which leaves everything, or comes after a save that stands. -/
theorem saveProfile_then_failed [Texts] {cfg : ConnectionConfig} {f : ConnectionConfig → CommandM β}
    (h : (ofCore (saveProfile cfg) >>= f).run.runWith exec Unused cs w = some (.error e, w')) :
    (w' = w ∧ ∀ clock upsert cs', cs = clock :: upsert :: cs' → upsert.fault ≠ none) ∨
      ∃ clock upsert cs', cs = clock :: upsert :: cs' ∧
        validateConnection (saved cfg clock.now) = .ok () ∧ upsert.fault = none ∧
        (f (saved cfg clock.now)).run.runWith exec Unused cs' (w.store (saved cfg clock.now)) =
          some (.error e, w') := by
  rcases ofCore_then_run h with ⟨cs₁, cs₂, stored, w₁, rfl, hsave, hrest⟩ | ⟨e', -, hsave⟩
  · obtain ⟨clock, cs', rfl, ⟨-, hr, -⟩ | ⟨hvalid, upsert, rfl, hupsert⟩⟩ := saveProfile_run hsave
    · cases hr
    · obtain ⟨hfault, hr, rfl⟩ | ⟨-, hr, -⟩ := hupsert
      · obtain rfl := Except.ok.inj hr
        exact .inr ⟨clock, upsert, cs₂, rfl, hvalid, hfault, hrest⟩
      · cases hr
  · obtain ⟨clock, cs', rfl, ⟨rfl, -, rfl⟩ | ⟨-, upsert, rfl, hupsert⟩⟩ := saveProfile_run hsave
    · exact .inl ⟨rfl, nofun⟩
    · obtain ⟨-, hr, -⟩ | ⟨hfault, -, rfl⟩ := hupsert
      · cases hr
      · refine .inl ⟨rfl, fun clock' upsert' cs' hcs => ?_⟩
        obtain ⟨-, rfl, -⟩ := by simpa using hcs
        exact hfault

/-- A command that stores the password of a new profile before it saves the profile. -/
theorem newProfile_refused [Texts] (build : Uuid → Time → Except String ConnectionConfig)
    (password : String) (f : ConnectionConfig → SecretRef → ConnectionConfig) :
    (do
      let id ← ofCore newId
      let created ← ofCore now
      let cfg ← ofExcept (build id created)
      let secret ← ofCore (putSecret password)
      return toDto (← ofCore (saveProfile (f cfg secret))) : CommandM ProfileDto).run.Ensures exec
        Unused (fun r w' => ∀ e, r = .error e → e.rejects = true → ¬ w.Same w') w := by
  refine Prog.ensures_of_then (ofCore_runs (newId_runs fun id _ => ?_))
  refine Prog.ensures_of_then (ofCore_runs (now_runs fun created => ?_))
  refine Prog.ensures_of_then ?_
  cases hbuild : build id created with
  | error text => exact fun e he hrejects => absurd hrejects (Except.error.inj he ▸ nofun)
  | ok cfg =>
    refine Prog.ensures_of_then (ofCore_runs (putSecret_runs (fun r hvault hrefs => ?_) ?_))
    · refine Prog.ensures_of_then (ofCore_runs (saveProfile_runs (fun t => nofun) fun e => ?_))
      intro _ _ _ hsame
      exact List.cons_ne_nil r [] ((Grown.put hvault hrefs password).same_iff.1 hsame)
    · exact fun _ e he hrejects => absurd hrejects (Except.error.inj he ▸ nofun)

/-- After a first save that stands, the password is set in a store that has the new profile. -/
theorem same_iff_of_store {new : ConnectionConfig} {id : Uuid} {password : String}
    (hprofiles : w'.profiles = (w.store new).profiles)
    (hsame : (w.store new).Same w' ↔ (w.store new).HasPassword id password) :
    w.Same w' ↔ w.profiles.lookup new.id = some new ∧ w.HasPassword id password := by
  constructor
  · intro h
    have hstore : w.Same (w.store new) := ⟨fun id => by rw [← hprofiles, h.profiles], fun _ => rfl⟩
    exact ⟨same_store_iff.1 hstore, hstore.symm.hasPassword (hsame.1 (hstore.symm.trans h))⟩
  · rintro ⟨hrow, hpassword⟩
    have hstore : w.Same (w.store new) := same_store_iff.2 hrow
    exact hstore.trans (hsame.2 (hstore.hasPassword hpassword))

theorem stored_eq [Texts] {args : UpdateProfile} {id : Uuid} {cfg new : ConnectionConfig}
    {c clock upsert : Choice} (hid : L.parseUuid args.id = .ok id)
    (hcfg : w.profiles.lookup id = some cfg) (hnew : edited cfg args = .ok new)
    (hvalid : validateConnection (saved new clock.now) = .ok ()) (hfault : upsert.fault = none) :
    args.stored L w (c :: clock :: upsert :: cs) = some (id, saved new clock.now) := by
  simp [UpdateProfile.stored, hid, hcfg, hnew, hvalid, hfault, Except.toOption]

theorem stored_upsert [Texts] {args : UpdateProfile} {id : Uuid} {new : ConnectionConfig}
    {c : Choice} (h : args.stored L w (c :: cs) = some (id, new)) :
    ∃ clock upsert cs', cs = clock :: upsert :: cs' ∧ upsert.fault = none := by
  unfold UpdateProfile.stored at h
  split at h
  · next clock upsert cs' hcs =>
    obtain ⟨-, rfl⟩ := List.cons.inj hcs
    simp only [Option.bind_eq_bind, Option.bind_eq_some_iff] at h
    obtain ⟨_, -, _, -, _, -, hstored⟩ := h
    split at hstored
    · next hvalid => exact ⟨clock, upsert, cs', rfl, hvalid.2⟩
    · cases hstored
  · cases h

theorem updateSshProfile_refused [Texts] {args : UpdateProfile}
    (h : (updateSshProfile L args).run.runWith exec Unused cs w = some (.error e, w'))
    (hrejects : e.rejects = true) : w.Same w' ↔ Undisturbed L w cs (.updateSshProfile args) := by
  obtain ⟨id, hid, hget⟩ := ofExcept_then_rejected h hrejects
  obtain ⟨c, cs', cfg, rfl, hcfg, hedit⟩ := getProfile_then_rejected hget hrejects
  obtain ⟨new, hnew, hsave⟩ := ofExcept_then_rejected hedit hrejects
  rcases saveProfile_then_failed hsave with
    ⟨rfl, hfault⟩ | ⟨clock, upsert, cs', rfl, hvalid, hfault, hpassword⟩
  · refine iff_of_true (World.Same.refl w') fun id' new' password hstored => ?_
    obtain ⟨clock, upsert, cs', hcs, hupsert⟩ := stored_upsert hstored
    exact absurd hupsert (hfault clock upsert cs' hcs)
  · split at hpassword
    · next password hsome =>
      rcases ofCore_then_run hpassword with ⟨cs₁, cs₂, cfg', w₁, -, -, hret⟩ | ⟨e', he, hset⟩
      · obtain ⟨-, hr, -⟩ := Prog.runWith_ret_eq_some.1 hret
        cases hr
      · obtain rfl := Except.error.inj he
        obtain ⟨hprofiles, hsame⟩ := (setPasswordSecret_refused id password).runWith hset hrejects
        rw [same_iff_of_store hprofiles hsame]
        simp [Undisturbed, stored_eq hid hcfg hnew hvalid hfault, hsome]
    · obtain ⟨-, hr, -⟩ := Prog.runWith_ret_eq_some.1 hpassword
      cases hr

end Runs

/-- If an operation fails because a profile was rejected, the table and the vault are as before
exactly if nothing had to be stored for it or what was stored is taken out again. -/
theorem rejected_unchanged_iff [Texts] (L : Library) (req : CredentialRequest) (w w' : World)
    (cs : List Choice) (e : CommandError)
    (hrun : (req.program L).run.runWith exec Unused cs w = some (.error e, w'))
    (hrejects : e.rejects = true) : w.Same w' ↔ Undisturbed L w cs req := by
  cases req with
  | addSshProfile args | addSsProfile args =>
    have hrefused := (newProfile_refused _ _ _).runWith (Prog.runWith_map_error hrun)
    exact iff_false_intro (hrefused e rfl hrejects)
  | updateSshProfile args => exact updateSshProfile_refused (Prog.runWith_map_error hrun) hrejects
  | duplicateProfile id =>
    obtain ⟨e', rfl, hrun'⟩ := ofCore_failed (Prog.runWith_map_error hrun)
    exact (duplicateProfile_refused id).runWith hrun' hrejects
  | setPasswordSecret id password =>
    obtain ⟨e', rfl, hrun'⟩ := ofCore_failed (Prog.runWith_map_error hrun)
    exact ((setPasswordSecret_refused id password).runWith hrun' hrejects).2
  | importProfileText raw =>
    obtain ⟨e', rfl, hrun'⟩ := ofCore_failed (Prog.runWith_map_error hrun)
    exact importProfileText_refused hrun' hrejects
  | importSmartLink link =>
    obtain ⟨e', rfl, hrun'⟩ := ofCore_failed (Prog.runWith_map_error hrun)
    exact importSmartLink_refused hrun' hrejects

section Sample

/-- An access, with what may go wrong in it. -/
def access (fault : Option String) : Choice := ⟨1, 7, fault, .error noZones⟩

open Sample

/-- A link that the table does not take is not in the vault any more. -/
theorem rejected_link_forgotten : ∃ w',
    ((CredentialRequest.importSmartLink smartLink).program library).run.runWith exec Unused
      [access none, access none, access none, access (some "database is locked"), access none]
      .empty = some (.error (.core (.config (.db "database is locked"))), w') ∧
    World.empty.Same w' := by
  have hrun : (((CredentialRequest.importSmartLink smartLink).program library).run.runWith exec
      Unused
      [access none, access none, access none, access (some "database is locked"), access none]
      .empty).any (fun final => decide (final.1 = .error
        (.core (.config (.db "database is locked"))))) = true := by
    decide +kernel
  obtain ⟨⟨r, w'⟩, hrun, hr⟩ := (Option.any_eq_true _ _).1 hrun
  obtain rfl := of_decide_eq_true hr
  refine ⟨w', hrun, (rejected_unchanged_iff library (.importSmartLink smartLink) .empty w' _ _
    hrun rfl).2 fun c hc => ?_⟩
  obtain rfl := Option.some.inj hc
  rfl

/-- The arguments of a new profile that has no name. -/
def namelessProfile : AddSshProfile where
  name := ""
  host := "192.0.2.1"
  port := 22
  username := "alice"
  password := "hunter2"
  tofu := none
  common := ⟨none, none, none, none, none, none, none, none⟩
  udpgw := ⟨none, none, none, none⟩
  tls := ⟨none, none, none, none, none, none, none⟩
  share := ⟨none, none, none⟩

/-- The profile has no name and is rejected, and its password is in the vault, where no profile
refers to it. -/
theorem rejected_password_kept : ∃ w',
    ((CredentialRequest.addSshProfile namelessProfile).program library).run.runWith exec Unused
      (List.replicate 4 (access none)) .empty =
        some (.error (.core (.config (.validation "name is required"))), w') ∧
    w'.vault.lookup (newRef 7).id = some "hunter2" ∧ w'.refs = [] ∧ ¬ World.empty.Same w' := by
  have hrun : (((CredentialRequest.addSshProfile namelessProfile).program library).run.runWith
      exec Unused (List.replicate 4 (access none)) .empty).any (fun final =>
        decide (final.1 = .error (.core (.config (.validation "name is required"))) ∧
          final.2.vault.lookup (newRef 7).id = some "hunter2" ∧ final.2.refs = [])) = true := by
    decide +kernel
  obtain ⟨⟨r, w'⟩, hrun, hend⟩ := (Option.any_eq_true _ _).1 hrun
  obtain ⟨rfl, hvalue, hrefs⟩ := of_decide_eq_true hend
  refine ⟨w', hrun, hvalue, hrefs, fun hsame => ?_⟩
  have hempty : World.empty.vault.lookup (newRef 7).id = some "hunter2" :=
    (hsame.vault (newRef 7).id).symm.trans hvalue
  cases hempty

end Sample

end EasyConnection.Desktop
