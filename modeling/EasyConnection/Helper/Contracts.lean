import EasyConnection.Helper.Session

/-! # What the routines do when they run alone

One contract per routine: what it leaves of the session record, the device and the table,
whatever fails on the way.
-/
namespace EasyConnection.Helper
open Async Nftables

variable {ι : Type}

/-- The commands that take a table or a device away succeed where there is one. -/
def RollsBack : Op → Option Failure → World ι → Prop
  | .nftDelete, c, w => c = none ∨ w.table = none
  | .ip (.linkDelete _), c, w => c = none ∨ w.tun = none
  | _, _, _ => True

instance (w : World ι) : (o : Op) → (c : Option Failure) → Decidable (RollsBack o c w)
  | .nftDelete, c => inferInstanceAs (Decidable (c = none ∨ w.table = none))
  | .ip (.linkDelete _), c => inferInstanceAs (Decidable (c = none ∨ w.tun = none))
  | .ip (.linkSetMtu _ _), _ | .ip (.addrAdd _ _), _ | .ip (.linkSetUp _), _
  | .ip (.routeDel _), _ | .sessionActive, _ | .takeSession, _ | .setSession _, _ | .tunOpen, _
  | .tunClose _, _ | .nftLoad _, _ | .resolvectl _, _ | .readJournal, _ | .writeJournal _, _
  | .removeJournal, _ => inferInstanceAs (Decidable True)

/-- Calls that touch neither the record, nor the device, nor the table. -/
def Op.Quiet : Op → Prop
  | .resolvectl _ => True
  | .readJournal => True
  | .writeJournal _ => True
  | .removeJournal => True
  | .ip (.linkDelete _) => False
  | .ip _ => True
  | _ => False

/-- Calls that set the device or its resolver up. -/
def Op.Configures : Op → Prop
  | .resolvectl _ => True
  | .ip (.linkDelete _) => False
  | .ip _ => True
  | _ => False

variable {o : Op}

theorem Op.Configures.quiet (h : o.Configures) : o.Quiet := by
  cases o with
  | ip cmd => cases cmd <;> trivial
  | _ => trivial

/-- Calls that leave the record alone. -/
def Op.KeepsRecord : Op → Prop
  | .takeSession => False
  | .setSession _ => False
  | _ => True

/-- Calls of the clean-up: they only take things away, and not the record. -/
def Op.Cleans : Op → Prop
  | .resolvectl _ => True
  | .readJournal => True
  | .removeJournal => True
  | .nftDelete => True
  | .ip (.linkDelete _) => True
  | .ip (.routeDel _) => True
  | _ => False

theorem Op.Cleans.keepsRecord (h : o.Cleans) : o.KeepsRecord := by
  cases o <;> trivial

/-- The record, the device and the table are the same. -/
structure Same (w w' : World ι) : Prop where
  session : w'.session = w.session
  tun : w'.tun = w.tun
  table : w'.table = w.table

namespace Same

theorem refl (w : World ι) : Same w w := ⟨rfl, rfl, rfl⟩

theorem trans {w w' w'' : World ι} (h : Same w w') (h' : Same w' w'') : Same w w'' :=
  ⟨h'.session.trans h.session, h'.tun.trans h.tun, h'.table.trans h.table⟩

end Same

theorem resolvectl_same (w : World ι) (cmd : ResolvedCmd) : Same w (w.resolvectl cmd).1 := by
  cases cmd <;> simp only [World.resolvectl] <;> (try split_ifs) <;> exact ⟨rfl, rfl, rfl⟩

theorem exec_quiet (me : ι) (h : o.Quiet) (c : Option Failure) (w : World ι) :
    Same w (exec me o c w).1 := by
  cases o with
  | resolvectl cmd =>
    cases c with
    | none => exact resolvectl_same w cmd
    | some e => exact .refl w
  | readJournal => cases c <;> exact .refl w
  | writeJournal added => rcases c with _ | (_ | _) <;> exact ⟨rfl, rfl, rfl⟩
  | removeJournal => cases c <;> exact ⟨rfl, rfl, rfl⟩
  | ip cmd =>
    cases c with
    | some e => exact .refl w
    | none =>
      cases cmd with
      | linkDelete dev => exact absurd h id
      | _ => exact .refl w
  | _ => exact absurd h id

theorem exec_keepsRecord (me : ι) (h : o.KeepsRecord) (c : Option Failure) (w : World ι) :
    (exec me o c w).1.session = w.session := by
  cases o with
  | takeSession => exact absurd h id
  | setSession added => exact absurd h id
  | sessionActive => rfl
  | tunOpen =>
    rcases c with _ | (_ | _)
    · simp only [exec]
      split_ifs <;> rfl
    · rfl
    · rfl
  | tunClose fd => exact w.closeTun_session fd
  | nftDelete =>
    cases c with
    | none =>
      simp only [exec]
      split_ifs <;> rfl
    | some e => rfl
  | nftLoad script => cases c <;> rfl
  | ip cmd =>
    cases c with
    | some e => rfl
    | none =>
      cases cmd with
      | linkDelete dev =>
        simp only [exec, World.ip]
        split_ifs <;> rfl
      | _ => rfl
  | _ => exact (exec_quiet me (by trivial) c w).session

section Routines
variable {me : ι} {w : World ι}

/-- Any command may fail. -/
def anyChoice (_ : Op) (_ : Option Failure) (_ : World ι) : Prop := True

variable {ok : Op → Option Failure → World ι → Prop} {α : Type} {p : HelperM α}

theorem Quiet.ensures (h : p.Only Op.Quiet) : p.Ensures (exec me) ok (fun _ w' => Same w w') w :=
  h.ensures (fun _ c w' ho hw => hw.trans (exec_quiet me ho c w')) (.refl w)

theorem Configures.ensures (h : p.Only Op.Configures) :
    p.Ensures (exec me) ok (fun _ w' => Same w w') w :=
  Quiet.ensures (h.mono fun _ ho => ho.quiet)

theorem KeepsRecord.ensures (h : p.Only Op.KeepsRecord) :
    p.Ensures (exec me) ok (fun _ w' => w'.session = w.session) w :=
  h.ensures (fun _ c w' ho hw => (exec_keepsRecord me ho c w').trans hw) rfl

variable {P : Op → Prop}

theorem only_runIp {cmd : IpCmd} (h : P (.ip cmd)) : (runIp cmd).run.Only P := by
  refine (Prog.only_perform h).bind fun r => ?_
  rcases r with (_ | _) | _ <;> trivial

variable {x : TryM Unit}

theorem only_ignore (h : x.run.Only P) : (ignore x).Only P :=
  h.bind fun _ => trivial

theorem only_restoreRoutes (h : ∀ r, P (.ip (.routeDel r))) (rs : List AddedRoute) :
    (restoreRoutes rs).Only P := by
  induction rs with
  | nil => trivial
  | cons r rs ih => exact (only_ignore (only_runIp (h r))).bind fun _ => ih

theorem only_restoreRecorded (h : ∀ r, P (.ip (.routeDel r))) (rs : Option (List AddedRoute)) :
    (restoreRecorded rs).Only P := by
  cases rs with
  | none => trivial
  | some rs => exact only_restoreRoutes h rs.reverse

theorem only_revertResolved (h : ∀ cmd, P (.resolvectl cmd)) (dev : String) :
    (revertResolved dev).Only P :=
  (Prog.only_perform (h _)).bind fun _ => (Prog.only_perform (h _)).bind fun _ => trivial

theorem only_flushTable (h : P .nftDelete) : flushTable.run.Only P := by
  refine (Prog.only_perform h).bind fun r => ?_
  rcases r with (_ | _) | _ <;> trivial

theorem only_cleanupStale : cleanupStale.Only Op.Cleans := by
  refine (only_revertResolved (fun _ => trivial) tunName).bind fun _ => ?_
  refine (Prog.only_perform trivial).bind fun journal => ?_
  refine (only_restoreRecorded (fun _ => trivial) journal).bind fun _ => ?_
  refine (only_ignore (only_flushTable trivial)).bind fun _ => ?_
  refine (only_ignore (only_runIp trivial)).bind fun _ => ?_
  exact Prog.only_perform trivial

theorem cleanupStale_keepsRecord :
    cleanupStale.Ensures (exec me) ok (fun _ w' => w'.session = w.session) w :=
  KeepsRecord.ensures (only_cleanupStale.mono fun _ h => h.keepsRecord)

/-- A teardown forgets the session. -/
theorem teardownSession_ensures :
    teardownSession.Ensures (exec me) anyChoice (fun _ w' => w'.session = none) w := by
  refine (Prog.ensures_bind _ _).2 ?_
  refine (Quiet.ensures (only_revertResolved (fun _ => trivial) tunName)).mono fun _ w₁ _ => ?_
  refine (Prog.ensures_bind _ _).2 fun _ _ => (Prog.ensures_bind _ _).2 ?_
  refine (Quiet.ensures (only_restoreRecorded (fun _ => trivial) _)).mono fun _ w₂ hw₂ => ?_
  exact cleanupStale_keepsRecord.mono fun _ w₃ hw₃ => hw₃.trans hw₂.session

theorem only_addAddr (addr dev : String) : (addAddr addr dev).run.Only Op.Configures := by
  refine (only_runIp trivial).bind fun r => ?_
  cases r <;> trivial

theorem only_configureTun (spec : ApplySpec) : (configureTun spec).run.Only Op.Configures := by
  refine Prog.Only.except_bind (only_runIp trivial) fun _ => ?_
  refine Prog.Only.except_bind (only_addAddr _ _) fun _ => ?_
  split_ifs
  · refine Prog.Only.except_bind (only_addAddr _ _) fun _ => ?_
    exact only_runIp trivial
  · exact only_runIp trivial

theorem only_resolvedNote (cmd : ResolvedCmd) : (resolvedNote cmd).Only Op.Configures := by
  refine (Prog.only_perform trivial).bind fun r => ?_
  rcases r with (_ | _) | _ <;> trivial

theorem only_configureResolved (dev : String) (servers : List String) :
    (configureResolved dev servers).Only Op.Configures := by
  refine (only_resolvedNote _).bind fun _ => ?_
  refine (only_resolvedNote _).bind fun _ => ?_
  refine (only_resolvedNote _).bind fun _ => ?_
  exact (only_resolvedNote _).bind fun _ => trivial

/-- The step either succeeds, or fails and is undone. -/
theorem orElse_ensures {undo : HelperM Unit} {post : Except String Unit → World ι → Prop}
    (h : x.run.Ensures (exec me) ok (fun r w' => match r with
      | .ok () => post (.ok ()) w'
      | .error e => undo.Ensures (exec me) ok (fun _ w'' => post (.error e) w'') w') w) :
    (orElse x undo).run.Ensures (exec me) ok post w := by
  refine (Prog.ensures_bind _ _).2 (h.mono fun r w' hr => ?_)
  cases r with
  | ok u => exact hr
  | error e => exact (Prog.ensures_bind _ _).2 hr

theorem createNamedTun_ensures (name : String) :
    (createNamedTun name).run.Ensures (exec me) anyChoice (fun r w' =>
      w'.session = w.session ∧ ∀ fd, r = .ok fd → w'.tun = some fd) w := by
  unfold createNamedTun
  split_ifs with hname
  · exact ⟨rfl, fun fd h => by cases h⟩
  · intro c _
    refine ⟨exec_keepsRecord me (o := .tunOpen) trivial c w, fun fd h => ?_⟩
    rcases c with _ | (_ | _)
    · simp only [exec] at h ⊢
      split_ifs at h ⊢ with ht
      exact congrArg some (Except.ok.inj h)
    · cases h
    · cases h

theorem exec_nftDelete_tun (c : Option Failure) : (exec me .nftDelete c w).1.tun = w.tun := by
  cases c with
  | none =>
    simp only [exec]
    split_ifs <;> rfl
  | some e => rfl

theorem flushTable_ensures :
    flushTable.run.Ensures (exec me) ok (fun _ w' =>
      w'.session = w.session ∧ w'.tun = w.tun) w := by
  refine (only_flushTable (P := (· = .nftDelete)) rfl).ensures (fun o c w' ho hw' => ?_) ⟨rfl, rfl⟩
  subst ho
  exact ⟨(exec_keepsRecord me (o := .nftDelete) trivial c w').trans hw'.1,
    (exec_nftDelete_tun c).trans hw'.2⟩

theorem applyTable_ensures (script : String) :
    (applyTable script).run.Ensures (exec me) anyChoice (fun r w' =>
      w'.session = w.session ∧ w'.tun = w.tun ∧ (r = .ok () → w'.table.isSome = true)) w := by
  refine (Prog.ensures_except_bind _ _).2 (flushTable_ensures.mono fun r w₁ hw₁ => ?_)
  cases r with
  | error e => exact ⟨hw₁.1, hw₁.2, fun h => by cases h⟩
  | ok u =>
    refine (Prog.ensures_bind _ _).2 fun c _ => ?_
    rcases c with _ | (_ | _)
    · exact ⟨hw₁.1, hw₁.2, fun _ => rfl⟩
    · exact ⟨hw₁.1, hw₁.2, fun h => by cases h⟩
    · exact ⟨hw₁.1, hw₁.2, fun h => by cases h⟩

/-- What a finished `bringUp` or `buildSession` leaves. -/
structure Up (me : ι) (fd : Fd) (w : World ι) : Prop where
  session : w.session = some ⟨[], me⟩
  tun : w.tun = some fd
  table : w.table.isSome = true

theorem undo_keepsRecord :
    (ignore (runIp (.linkDelete tunName))).Ensures (exec me) ok
      (fun _ w' => w'.session = w.session) w :=
  KeepsRecord.ensures (only_ignore (only_runIp trivial))

theorem only_dnsNote (spec : ApplySpec) (policy : Dns.DnsPolicy) :
    (dnsNote spec policy).Only Op.Configures := by
  unfold dnsNote
  split_ifs
  · exact only_configureResolved _ _
  · trivial

theorem recordSession_ensures :
    recordSession.run.Ensures (exec me) anyChoice (fun r w' => match r with
      | .ok () => w'.session = some ⟨[], me⟩ ∧ w'.tun = w.tun ∧ w'.table = w.table
      | .error _ => w'.session = w.session) w := by
  refine (Prog.ensures_except_bind _ _).2 fun c _ => ?_
  rcases c with _ | (_ | _)
  · exact (Prog.ensures_lift _).2 fun _ _ => ⟨rfl, rfl, rfl⟩
  · exact rfl
  · exact rfl

/-- The session is up, or the record is the one of before. -/
def BroughtUp (me : ι) (fd : Fd) (w : World ι) : Except String String → World ι → Prop
  | .ok _, w' => Up me fd w'
  | .error _, w' => w'.session = w.session

theorem bringUp_ensures (spec : ApplySpec) {fd : Fd} (htun : w.tun = some fd) :
    (bringUp spec).run.Ensures (exec me) anyChoice (BroughtUp me fd w) w := by
  refine (Prog.ensures_except_bind _ _).2 (orElse_ensures ?_)
  refine (Configures.ensures (only_configureTun spec)).mono fun r w₁ hw₁ => ?_
  cases r with
  | error e => exact undo_keepsRecord.mono fun _ w' hw' => hw'.trans hw₁.session
  | ok u =>
    refine (Prog.ensures_except_bind _ _).2 (orElse_ensures ?_)
    refine (applyTable_ensures _).mono fun r w₂ hw₂ => ?_
    cases r with
    | error e =>
      refine (Prog.ensures_bind _ _).2 ?_
      exact undo_keepsRecord.mono fun _ w' hw' => hw'.trans (hw₂.1.trans hw₁.session)
    | ok u =>
      have htun₂ : w₂.tun = some fd := hw₂.2.1.trans (hw₁.tun.trans htun)
      have htable₂ : w₂.table.isSome = true := hw₂.2.2 rfl
      refine (Prog.ensures_except_bind _ _).2 ((Prog.ensures_lift _).2 ?_)
      refine (Configures.ensures (only_dnsNote spec _)).mono fun _ w₃ hw₃ => ?_
      refine (Prog.ensures_except_bind _ _).2 (recordSession_ensures.mono fun r w₄ hw₄ => ?_)
      cases r with
      | error e => exact hw₄.trans (hw₃.session.trans (hw₂.1.trans hw₁.session))
      | ok u =>
        exact ⟨hw₄.1, hw₄.2.1.trans (hw₃.tun.trans htun₂), by rw [hw₄.2.2, hw₃.table, htable₂]⟩

theorem buildSession_ensures (spec : ApplySpec) :
    (buildSession spec).Ensures (exec me) anyChoice (fun r w' => match r with
      | .ok (_, fd) => Up me fd w'
      | .error _ => w'.session = w.session) w := by
  refine (Prog.ensures_bind _ _).2 (cleanupStale_keepsRecord.mono fun _ w₁ hw₁ => ?_)
  refine (Prog.ensures_bind _ _).2 ((createNamedTun_ensures spec.tunName).mono fun r w₂ hw₂ => ?_)
  cases r with
  | error e => exact hw₂.1.trans hw₁
  | ok fd =>
    refine (Prog.ensures_bind _ _).2 ((bringUp_ensures spec (hw₂.2 fd rfl)).mono fun r w₃ hw₃ => ?_)
    cases r with
    | ok msg => exact hw₃
    | error e =>
      refine (Prog.ensures_bind _ _).2 fun c _ => ?_
      have hclose := exec_keepsRecord me (o := .tunClose fd) trivial c w₃
      exact hclose.trans (hw₃.trans (hw₂.1.trans hw₁))

theorem only_createNamedTun (h : P .tunOpen) (name : String) :
    (createNamedTun name).run.Only P := by
  unfold createNamedTun
  split_ifs
  · trivial
  · exact Prog.only_perform h

theorem only_orElse {undo : HelperM Unit} (hx : x.run.Only P) (hundo : undo.Only P) :
    (orElse x undo).run.Only P := by
  refine hx.bind fun r => ?_
  cases r with
  | ok u => trivial
  | error e => exact hundo.bind fun _ => trivial

theorem only_applyTable (hdel : P .nftDelete) (hload : ∀ s, P (.nftLoad s)) (script : String) :
    (applyTable script).run.Only P := by
  refine Prog.Only.except_bind (only_flushTable hdel) fun _ => ?_
  refine (Prog.only_perform (hload script)).bind fun r => ?_
  rcases r with (_ | _) | _ <;> trivial

/-- Calls other than the question for a session. -/
def Op.Acts : Op → Prop
  | .sessionActive => False
  | _ => True

theorem Op.Quiet.acts (h : o.Quiet) : o.Acts := by
  cases o <;> trivial

theorem Op.Cleans.acts (h : o.Cleans) : o.Acts := by
  cases o <;> trivial

theorem only_bringUp (spec : ApplySpec) : (bringUp spec).run.Only Op.Acts := by
  have hundo : (ignore (runIp (.linkDelete tunName))).Only Op.Acts :=
    only_ignore (only_runIp trivial)
  have hconfigure := (only_configureTun spec).mono fun _ h => h.quiet.acts
  have htable := only_applyTable (P := Op.Acts) trivial (fun _ => trivial)
    (renderTable spec.tableArgs)
  refine Prog.Only.except_bind (only_orElse hconfigure hundo) fun _ => ?_
  refine Prog.Only.except_bind (only_orElse htable hundo) fun _ => ?_
  refine Prog.Only.except_bind ((only_dnsNote spec _).mono fun _ h => h.quiet.acts).lift fun _ => ?_
  refine Prog.Only.except_bind ?_ fun _ => trivial
  exact Prog.Only.except_bind (Prog.only_perform trivial) fun _ => (Prog.only_perform trivial).lift

end Routines

end EasyConnection.Helper
