import EasyConnection.Helper.Exclusion
import EasyConnection.Helper.Faultless

/-! # The record and the kernel

When nothing fails, the session record says after every request whether the device and the
table exist, provided that no request restores the network, or builds a session, while another
one is building a session, and that the client keeps the device open until a teardown begins.
-/
namespace EasyConnection.Helper
open Async Nftables

/-- Calls of a teardown: they only take things away. -/
def Op.Restores : Op → Prop
  | .takeSession => True
  | o => o.Cleans

theorem Op.Cleans.restores {o : Op} (h : o.Cleans) : o.Restores := by
  cases o <;> trivial

section Restore
variable {P : Op → Prop}

theorem only_teardownSession : teardownSession.Only Op.Restores := by
  refine (only_revertResolved (fun _ => trivial) tunName).bind fun _ => ?_
  refine (Prog.only_perform (o := Op.takeSession) trivial).bind fun session => ?_
  refine (only_restoreRecorded (fun _ => trivial) session).bind fun _ => ?_
  exact only_cleanupStale.mono fun _ h => h.restores

theorem must_cleanupStale_nftDelete : cleanupStale.Must (· = .nftDelete) := by
  refine Prog.must_bind_right _ fun _ => Prog.must_bind_right _ fun _ => ?_
  refine Prog.must_bind_right _ fun _ => Prog.Must.bind ?_ _
  exact Or.inl rfl

theorem must_cleanupStale_linkDelete :
    cleanupStale.Must (· = .ip (.linkDelete tunName)) := by
  refine Prog.must_bind_right _ fun _ => Prog.must_bind_right _ fun _ => ?_
  refine Prog.must_bind_right _ fun _ => Prog.must_bind_right _ fun _ => Prog.Must.bind ?_ _
  exact Or.inl rfl

theorem must_teardownSession_takeSession : teardownSession.Must (· = .takeSession) :=
  Prog.must_bind_right _ fun _ => Or.inl rfl

theorem must_teardownSession (h : cleanupStale.Must P) : teardownSession.Must P :=
  Prog.must_bind_right _ fun _ => Prog.must_bind_right _ fun _ => Prog.must_bind_right _ fun _ => h

variable {ι : Type}

/-- What the program has still to take away from the world. -/
structure Restoring {α : Type} (p : HelperM α) (w : World ι) : Prop where
  only : p.Only Op.Restores
  session : w.session = none ∨ p.Must (· = .takeSession)
  table : w.table = none ∨ p.Must (· = .nftDelete)
  tun : w.tun = none ∨ p.Must (· = .ip (.linkDelete tunName))

theorem restoring_teardownSession (w : World ι) : Restoring teardownSession w where
  only := only_teardownSession
  session := .inr must_teardownSession_takeSession
  table := .inr (must_teardownSession must_cleanupStale_nftDelete)
  tun := .inr (must_teardownSession must_cleanupStale_linkDelete)

namespace Restoring
variable {α β : Type} {p : HelperM α} {w w' : World ι}

theorem bind (h : Restoring p w) {f : α → HelperM β} (hf : ∀ a, (f a).Only Op.Restores) :
    Restoring (p >>= f) w where
  only := h.only.bind hf
  session := h.session.imp id fun h => h.bind f
  table := h.table.imp id fun h => h.bind f
  tun := h.tun.imp id fun h => h.bind f

/-- A program that has ended has taken everything away. -/
theorem ret {a : α} (h : Restoring (.ret a) w) :
    w.session = none ∧ w.tun = none ∧ w.table = none :=
  ⟨h.session.resolve_right id, h.tun.resolve_right id, h.table.resolve_right id⟩

end Restoring

theorem restoring_handle (uid : UInt32) {req : HelperRequest} (h : req.restores = true)
    (w : World ι) : Restoring (handle uid req) w := by
  have hall : Restoring restoreAll w :=
    (restoring_teardownSession w).bind fun _ =>
      (only_cleanupStale.mono fun _ h => h.restores).bind fun _ => trivial
  cases req with
  | teardown => exact (restoring_teardownSession w).bind fun _ => trivial
  | cleanup => exact hall
  | emergencyRestore => exact hall
  | ping version => cases h
  | apply spec => cases h

/-- The world has lost things but gained none. -/
structure Shrinks (w w' : World ι) : Prop where
  session : w.session = none → w'.session = none
  table : w.table = none → w'.table = none
  tun : w.tun = none → w'.tun = none

theorem Shrinks.refl (w : World ι) : Shrinks w w := ⟨id, id, id⟩

theorem Same.shrinks {w w' : World ι} (h : Same w w') : Shrinks w w' :=
  ⟨fun hs => h.session.trans hs, fun ht => h.table.trans ht, fun ht => h.tun.trans ht⟩

theorem closeTun_shrinks (w : World ι) (fd : Fd) : Shrinks w (w.closeTun fd) := by
  unfold World.closeTun
  split_ifs
  · exact ⟨id, id, fun _ => rfl⟩
  · exact .refl w

theorem exec_shrinks (me : ι) {o : Op} (h : o.Restores) (c : Option Failure) (w : World ι) :
    Shrinks w (exec me o c w).1 := by
  cases o with
  | takeSession => exact ⟨fun _ => rfl, id, id⟩
  | nftDelete =>
    cases c with
    | some e => exact .refl w
    | none =>
      simp only [exec]
      split_ifs
      · exact ⟨id, fun _ => rfl, id⟩
      · exact .refl w
  | ip cmd =>
    cases c with
    | some e => exact .refl w
    | none =>
      cases cmd with
      | linkDelete dev =>
        simp only [exec, World.ip]
        split_ifs
        · exact ⟨id, id, fun _ => rfl⟩
        · exact .refl w
      | routeDel r => exact .refl w
      | _ => exact absurd h id
  | resolvectl cmd => exact (exec_quiet me (o := .resolvectl cmd) trivial c w).shrinks
  | readJournal => exact (exec_quiet me (o := .readJournal) trivial c w).shrinks
  | removeJournal => exact (exec_quiet me (o := .removeJournal) trivial c w).shrinks
  | _ => exact absurd h id

namespace Restoring
variable {α : Type} {p : HelperM α} {w w' : World ι}

/-- Others who take things away do not disturb it. -/
theorem shrink (h : Restoring p w) (hw : Shrinks w w') : Restoring p w' where
  only := h.only
  session := h.session.imp hw.session id
  table := h.table.imp hw.table id
  tun := h.tun.imp hw.tun id

/-- A call of its own either takes something away or leaves it for later. -/
theorem step {me : ι} {o : Op} {k : Ans o → HelperM α} {c : Option Failure}
    (h : Restoring (.call o k) w) (hrolls : RollsBack o c w) :
    Restoring (k (exec me o c w).2) (exec me o c w).1 := by
  have hw := exec_shrinks me h.only.1 c w
  refine ⟨h.only.2 _, ?_, ?_, ?_⟩
  · rcases h.session with hs | hs | hs
    · exact .inl (hw.session hs)
    · subst hs
      exact .inl rfl
    · exact .inr (hs _)
  · rcases h.table with ht | ht | ht
    · exact .inl (hw.table ht)
    · subst ht
      left
      cases htable : w.table with
      | none => exact hw.table htable
      | some scripts =>
        obtain rfl : c = none := hrolls.resolve_right (by simp [htable])
        simp [exec, htable]
    · exact .inr (ht _)
  · rcases h.tun with ht | ht | ht
    · exact .inl (hw.tun ht)
    · subst ht
      left
      cases htun : w.tun with
      | none => exact hw.tun htun
      | some fd =>
        obtain rfl : c = none := hrolls.resolve_right (by simp [htun])
        simp [exec, World.ip, World.present, World.dropTun, htun]
    · exact .inr (ht _)

end Restoring

theorem rollsBack_none (o : Op) (w : World ι) : RollsBack o none w := by
  cases o with
  | nftDelete => exact .inl rfl
  | ip cmd => cases cmd <;> first | trivial | exact .inl rfl
  | _ => trivial

end Restore

variable {ι : Type}

/-- The task of `c` restores the network. -/
def Restores (st : State ι) (c : ι) : Prop :=
  match (st.conns c).phase with
  | .busy req p => req.restores = true ∧ Restoring p st.world
  | .leaving p => Restoring p st.world
  | _ => False

/-- One task is building a session, and all others wait. -/
def Constructs (st : State ι) : Prop :=
  ∃ b, (∀ d, d ≠ b → (st.conns d).phase.Waits) ∧ Builds noFault (fun _ w => Agree w) st b

/-- Any number of tasks restore the network, and the others wait. -/
def Settles (st : State ι) : Prop :=
  (∀ d, (st.conns d).phase.Waits ∨ Restores st d) ∧
    ((∀ d, (st.conns d).phase.Waits) → Agree st.world)

theorem Restores.restoring {st : State ι} {c : ι} (h : Restores st c) :
    (st.conns c).phase.restoring = true := by
  unfold Restores at h
  cases hp : (st.conns c).phase with
  | busy req p =>
    rw [hp] at h
    cases req with
    | ping version => cases h.1
    | apply spec => cases h.1
    | _ => rfl
  | leaving p => rfl
  | _ =>
    rw [hp] at h
    exact absurd h id

theorem Restores.not_waits {st : State ι} {c : ι} (h : Restores st c) :
    ¬ (st.conns c).phase.Waits := by
  intro hwaits
  unfold Restores at h
  cases hp : (st.conns c).phase with
  | busy req p =>
    rw [hp] at h hwaits
    obtain ⟨spec, rfl, _⟩ := hwaits
    cases h.1
  | leaving p =>
    rw [hp] at hwaits
    exact hwaits
  | _ =>
    rw [hp] at h
    exact h

/-- Nothing fails. -/
def Faultless : Event ι → Prop
  | .step _ choice => choice = none
  | _ => True

theorem waits_not_restoring {ph : Phase} (h : ph.Waits) : ph.restoring = false := by
  cases ph with
  | busy req p =>
    obtain ⟨spec, rfl, _⟩ := h
    rfl
  | leaving p => exact absurd h id
  | _ => rfl

/-- An `Apply` that finds no session is alone, no teardown begins beside one that is building, and
the descriptor of the device is closed only beside a teardown. -/
def Serialized (st : State ι) : Event ι → Prop
  | .step c _ => (st.conns c).phase.checking = true → st.world.session = none →
      ∀ d, d ≠ c → (st.conns d).phase.building = false ∧ (st.conns d).phase.restoring = false
  | .request _ req => req.restores = true → ∀ d, (st.conns d).phase.building = false
  | .disconnect c => (st.conns c).owns = true → ∀ d, (st.conns d).phase.building = false
  | .close _ fd => st.world.tun = some fd → ∃ d, (st.conns d).phase.restoring = true
  | .reply _ => True

instance (e : Event ι) : Decidable (Faultless e) :=
  match e with
  | .step _ choice => inferInstanceAs (Decidable (choice = none))
  | .request _ _ => inferInstanceAs (Decidable True)
  | .disconnect _ => inferInstanceAs (Decidable True)
  | .close _ _ => inferInstanceAs (Decidable True)
  | .reply _ => inferInstanceAs (Decidable True)

variable [DecidableEq ι]

instance [Fintype ι] (st : State ι) : (e : Event ι) → Decidable (Serialized st e)
  | .step _ _ => inferInstanceAs (Decidable (_ → _ → ∀ _, _))
  | .request _ _ => inferInstanceAs (Decidable (_ → ∀ _, _))
  | .disconnect _ => inferInstanceAs (Decidable (_ → ∀ _, _))
  | .close _ _ => inferInstanceAs (Decidable (_ → ∃ _, _))
  | .reply _ => inferInstanceAs (Decidable True)

section Step
variable {st : State ι} {c : ι}

omit [DecidableEq ι] in
theorem settles_of_not_building (h : Constructs st ∨ Settles st)
    (hno : ∀ d, (st.conns d).phase.building = false) : Settles st := by
  rcases h with ⟨b, _, hb⟩ | h
  · have hbuilding := hb.building
    rw [hno b] at hbuilding
    cases hbuilding
  · exact h

/-- A waiting task goes on to another waiting phase; nothing else changes. -/
theorem agreement_update (conn : Conn) {returned : List (Returned ι)}
    (h : Constructs st ∨ Settles st) (hold : (st.conns c).phase.Waits) (hnew : conn.phase.Waits) :
    Constructs ⟨st.world, Function.update st.conns c conn, returned⟩ ∨
      Settles ⟨st.world, Function.update st.conns c conn, returned⟩ := by
  have hwaits := waits_update_iff hold hnew
  rcases h with ⟨b, hothers, hb⟩ | ⟨hall, hagree⟩
  · exact .inl ⟨b, fun d hd => (hwaits d).2 (hothers d hd), hb.update hold conn returned⟩
  · refine .inr ⟨fun d => ?_, fun h => hagree fun d => (hwaits d).1 (h d)⟩
    rcases hall d with hd | hd
    · exact .inl ((hwaits d).2 hd)
    · have hdc : d ≠ c := by
        rintro rfl
        exact hd.not_waits hold
      right
      simp only [Restores, Function.update_of_ne hdc]
      exact hd

theorem agreement_setPhase {ph : Phase} (h : Constructs st ∨ Settles st)
    (hold : (st.conns c).phase.Waits) (hnew : ph.Waits) :
    Constructs (st.setPhase c ph) ∨ Settles (st.setPhase c ph) :=
  agreement_update ⟨_, ph⟩ h hold hnew

theorem agreement_ret {req : HelperRequest} {d : Done} (h : Constructs st ∨ Settles st)
    (hold : (st.conns c).phase.Waits) :
    Constructs (st.work c req (.ret d)) ∨ Settles (st.work c req (.ret d)) :=
  agreement_update ⟨_, .replying d⟩ h hold trivial

/-- The task of `c` has ended its restoration or goes on with it; the others do not notice. -/
theorem settles_update {st' : State ι} (hworld : st'.world = st.world)
    (hconns : ∀ d, d ≠ c → st'.conns d = st.conns d)
    (hothers : ∀ d, d ≠ c → (st.conns d).phase.Waits ∨ Restores st d)
    (hc : ((st'.conns c).phase.Waits ∧ Agree st'.world) ∨ Restores st' c) : Settles st' := by
  have hothers' : ∀ d, d ≠ c → (st'.conns d).phase.Waits ∨ Restores st' d := by
    intro d hd
    simp only [Restores, hconns d hd, hworld]
    exact hothers d hd
  refine ⟨fun d => ?_, fun h => ?_⟩
  · by_cases hd : d = c
    · subst hd
      exact hc.imp And.left id
    · exact hothers' d hd
  · rcases hc with ⟨_, hagree⟩ | hc
    · exact hagree
    · exact absurd (h c) hc.not_waits

theorem settles_work {req : HelperRequest} {p : HelperM Done} (hreq : req.restores = true)
    (hothers : ∀ d, d ≠ c → (st.conns d).phase.Waits ∨ Restores st d)
    (hp : Restoring p st.world) : Settles (st.work c req p) := by
  refine settles_update (work_world req p) (fun d hd => work_of_ne req p hd) hothers ?_
  cases p with
  | ret d => exact .inl ⟨by simp [State.work, Phase.Waits], .inr hp.ret⟩
  | call o k =>
    right
    simp only [Restores, State.work, setPhase_self, setPhase_world]
    exact ⟨hreq, hp⟩

theorem settles_leave {p : HelperM Unit}
    (hothers : ∀ d, d ≠ c → (st.conns d).phase.Waits ∨ Restores st d)
    (hp : Restoring p st.world) : Settles (st.leave c p) := by
  refine settles_update (leave_world p) (fun d hd => leave_of_ne p hd) hothers ?_
  cases p with
  | ret u => exact .inl ⟨by simp [State.leave, Phase.Waits], .inr hp.ret⟩
  | call o k =>
    right
    simp only [Restores, State.leave, setPhase_self, setPhase_world]
    exact hp

omit [DecidableEq ι] in
/-- A call that takes things away, seen by the other tasks. -/
theorem others_shrink {w : World ι} (hw : Shrinks st.world w)
    (h : ∀ d, (st.conns d).phase.Waits ∨ Restores st d) (d : ι) :
    (st.conns d).phase.Waits ∨ Restores { st with world := w } d := by
  rcases h d with hd | hd
  · exact .inl hd
  · right
    unfold Restores at hd ⊢
    cases hp : (st.conns d).phase with
    | busy req p =>
      simp only [hp] at hd ⊢
      exact ⟨hd.1, hd.2.shrink hw⟩
    | leaving p =>
      simp only [hp] at hd ⊢
      exact hd.shrink hw
    | _ =>
      rw [hp] at hd
      exact absurd hd id

theorem agreement_build {spec : ApplySpec} {p : HelperM Done}
    (hothers : ∀ d, d ≠ c → (st.conns d).phase.Waits) (honly : p.Only Op.Acts)
    (hp : p.Ensures (exec c) noFault (fun _ w => Agree w) st.world) :
    Constructs (st.work c (.apply spec) p) ∨ Settles (st.work c (.apply spec) p) := by
  cases p with
  | call o k => exact .inl ⟨c, fun d hd => waits_work_of_ne hothers hd, builds_work honly hp⟩
  | ret d =>
    exact .inr (settles_update (work_world _ _) (fun d hd => work_of_ne _ _ hd)
      (fun d hd => .inl (hothers d hd)) (.inl ⟨by simp [State.work, Phase.Waits], hp⟩))

theorem agreement_check {spec : ApplySpec} (h : Constructs st ∨ Settles st)
    (hold : (st.conns c).phase.Waits) (hno : st.world.session = none → ∀ d, d ≠ c →
      (st.conns d).phase.building = false ∧ (st.conns d).phase.restoring = false) :
    Constructs (st.work c (.apply spec) (checked spec st.world.session.isSome)) ∨
      Settles (st.work c (.apply spec) (checked spec st.world.session.isSome)) := by
  cases hs : st.world.session with
  | some s => exact agreement_ret h hold
  | none =>
    have hothers : ∀ d, d ≠ c → (st.conns d).phase.Waits := by
      intro d hd
      rcases h with ⟨b, hb, hbuilds⟩ | ⟨hall, _⟩
      · by_cases hdb : d = b
        · subst hdb
          have hbuilding := hbuilds.building
          rw [(hno hs d hd).1] at hbuilding
          cases hbuilding
        · exact hb d hdb
      · rcases hall d with hwaits | hrestores
        · exact hwaits
        · have hrestoring := hrestores.restoring
          rw [(hno hs d hd).2] at hrestoring
          cases hrestoring
    refine agreement_build hothers (only_build spec) ?_
    exact (Prog.ensures_bind _ _).2 ((buildSession_noFault spec hs).mono fun _ _ hw => hw)

theorem agreement_request (uid : UInt32) {req : HelperRequest} (h : Constructs st ∨ Settles st)
    (hold : (st.conns c).phase.Waits) (hser : Serialized st (.request c req)) :
    Constructs (st.work c req (handle uid req)) ∨ Settles (st.work c req (handle uid req)) := by
  by_cases hreq : req.restores = true
  · have hsettles := settles_of_not_building h (hser hreq)
    exact .inr (settles_work hreq (fun d _ => hsettles.1 d) (restoring_handle uid hreq st.world))
  · cases req with
    | ping version =>
      simp only [handle]
      split_ifs <;> exact agreement_ret h hold
    | apply spec =>
      rcases handle_apply uid spec with ⟨e, he⟩ | hcheck
      · rw [he]
        exact agreement_ret h hold
      · rw [hcheck]
        exact agreement_setPhase h hold ⟨spec, rfl, rfl⟩
    | _ => exact absurd rfl hreq

omit [DecidableEq ι] in
/-- A descriptor is closed that is not the device's, or beside a teardown. -/
theorem agreement_close {fd : Fd} (h : Constructs st ∨ Settles st)
    (hser : Serialized st (.close c fd)) :
    Constructs { st with world := st.world.closeTun fd } ∨
      Settles { st with world := st.world.closeTun fd } := by
  by_cases htun : st.world.tun = some fd
  · obtain ⟨d, hd⟩ := hser htun
    have hnot : ¬ (st.conns d).phase.Waits := fun hwaits => by
      rw [waits_not_restoring hwaits] at hd
      cases hd
    rcases h with ⟨b, hothers, hb⟩ | ⟨hall, -⟩
    · by_cases hdb : d = b
      · subst hdb
        obtain ⟨_, _, _, hphase, _⟩ := hb
        rw [hphase] at hd
        cases hd
      · exact absurd (hothers d hdb) hnot
    · refine .inr ⟨fun d => ?_, fun hwaits => absurd (hwaits d) hnot⟩
      exact others_shrink (closeTun_shrinks st.world fd) hall d
  · rwa [World.closeTun, if_neg htun]

omit [DecidableEq ι] in
theorem role (h : Constructs st ∨ Settles st) (c : ι) :
    (Builds noFault (fun _ w => Agree w) st c ∧ ∀ d, d ≠ c → (st.conns d).phase.Waits) ∨
      (st.conns c).phase.Waits ∨ (Restores st c ∧ ∀ d, (st.conns d).phase.Waits ∨ Restores st d) := by
  rcases h with ⟨b, hothers, hb⟩ | ⟨hall, _⟩
  · by_cases hcb : c = b
    · subst hcb
      exact .inl ⟨hb, hothers⟩
    · exact .inr (.inl (hothers c hcb))
  · exact .inr ((hall c).imp id fun hc => ⟨hc, hall⟩)

/-- Every such step keeps one builder or any number of restorers. -/
theorem agreement_step {uid : ι → UInt32} {st' : State ι} {e : Event ι}
    (h : Constructs st ∨ Settles st) (hfault : Faultless e) (hser : Serialized st e)
    (hstep : step uid st e = some st') : Constructs st' ∨ Settles st' := by
  cases step_moves hstep with
  | @request c req hidle =>
    exact agreement_request (uid c) h (waits_of_inactive (by rw [hidle]; rfl)) hser
  | @work c choice req o k hbusy =>
    obtain rfl : choice = none := hfault
    rcases role h c with ⟨⟨spec, o', k', hphase, honly, hp⟩, hothers⟩ | hwaits | ⟨hrestores, hall⟩
    · rw [hbusy] at hphase
      cases hphase
      exact agreement_build hothers (honly.2 _) (hp none rfl)
    · have hcheck := hwaits
      rw [hbusy] at hcheck
      obtain ⟨spec, rfl, hp⟩ := hcheck
      cases hp
      exact agreement_check h hwaits (hser (by rw [hbusy]; rfl))
    · simp only [Restores, hbusy] at hrestores
      obtain ⟨hreq, hp⟩ := hrestores
      have hshrinks := exec_shrinks c hp.only.1 none st.world
      exact .inr (settles_work hreq (fun d _ => others_shrink hshrinks hall d)
        (hp.step (rollsBack_none o st.world)))
  | @leave c choice o k hleaving =>
    obtain rfl : choice = none := hfault
    rcases role h c with ⟨⟨_, _, _, hphase, _⟩, _⟩ | hwaits | ⟨hrestores, hall⟩
    · rw [hleaving] at hphase
      cases hphase
    · rw [hleaving] at hwaits
      exact absurd hwaits id
    · simp only [Restores, hleaving] at hrestores
      have hshrinks := exec_shrinks c hrestores.only.1 none st.world
      exact .inr (settles_leave (fun d _ => others_shrink hshrinks hall d)
        (hrestores.step (rollsBack_none o st.world)))
  | reply hreply => exact agreement_setPhase h (waits_of_inactive (by rw [hreply]; rfl)) trivial
  | @teardown c hwait howns =>
    have hsettles := settles_of_not_building h (hser howns)
    exact .inr (settles_leave (fun d _ => hsettles.1 d) (restoring_teardownSession st.world))
  | depart hwait howns => exact agreement_setPhase h (waits_of_inactive hwait) trivial
  | close hpassed => exact agreement_close h hser

end Step

/-- When nothing fails, no `Apply` finds no session beside another request that changes the
network, no teardown begins beside an `Apply` that is building and the client keeps the device open
until a teardown has begun, the record agrees with the kernel whenever no request is in progress. -/
theorem record_agrees (uid : ι → UInt32) (w : World ι) (htun : w.tun = none) (htable : w.table = none)
    (es : List (Event ι)) (st : State ι)
    (hok : Meets (step uid) (fun st e => Faultless e ∧ Serialized st e) (State.initial w) es)
    (hrun : run (step uid) (State.initial w) es = some st) (hquiet : Quiet st) :
    st.world.session.isSome = true ↔ st.world.tun.isSome = true ∧ st.world.table.isSome = true := by
  have hinit : Constructs (State.initial w) ∨ Settles (State.initial w) :=
    .inr ⟨fun _ => .inl trivial, fun _ => .inr ⟨rfl, htun, htable⟩⟩
  have hinv := run_invariant (fun _ _ _ h hc hs => agreement_step h hc.1 hc.2 hs) hinit hok hrun
  have hwaits : ∀ d, (st.conns d).phase.Waits := fun d => waits_of_inactive (hquiet d)
  have hagree : Agree st.world := by
    rcases hinv with ⟨b, _, hb⟩ | hsettles
    · exact absurd (hwaits b) hb.not_waits
    · exact hsettles.2 hwaits
  rcases hagree with ⟨hs, ht, htab⟩ | ⟨hs, ht, htab⟩
  · simp [hs, ht, htab]
  · simp [hs, ht]

/-- A session that comes and goes. -/
def upAndDown : List (Event (Fin 2)) :=
  applyEvents clientA ++ .disconnect clientA :: List.replicate 9 (.step clientA none) ++
    applyEvents clientB

theorem record_agrees_upAndDown :
    ∃ st, run (step fun _ => 1000) (State.initial cleanWorld) upAndDown = some st ∧
      st.world.tun.isSome = true ∧
      (st.world.session.isSome = true ↔
        st.world.tun.isSome = true ∧ st.world.table.isSome = true) := by
  have hok : Meets (step fun _ => 1000) (fun st e => Faultless e ∧ Serialized st e)
      (State.initial cleanWorld) upAndDown := by decide
  have hend : (run (step fun _ => 1000) (State.initial cleanWorld) upAndDown).any
      (fun st => decide (Quiet st) && st.world.tun.isSome) = true := by decide
  obtain ⟨st, hrun, hst⟩ := (Option.any_eq_true _ _).1 hend
  simp only [Bool.and_eq_true, decide_eq_true_eq] at hst
  exact ⟨st, hrun, hst.2, record_agrees _ cleanWorld rfl rfl upAndDown st hok hrun hst.1⟩

/-- A teardown that runs between the last command of an `Apply` and its record. -/
def lateRecord : List (Event (Fin 2)) :=
  .request clientA (.apply sampleSpec) :: List.replicate 18 (.step clientA none) ++
    .request clientB .teardown :: List.replicate 9 (.step clientB none) ++
    [.step clientA none, .reply clientA, .reply clientB]

/-- The record then speaks of a session of which nothing is left. -/
theorem record_disagrees :
    ¬ ∀ (uid : Fin 2 → UInt32) (w : World (Fin 2)) (es : List (Event (Fin 2))) (st : State (Fin 2)),
      w.tun = none → w.table = none → (∀ e ∈ es, Faultless e) →
      run (step uid) (State.initial w) es = some st → Quiet st →
      (st.world.session.isSome = true ↔
        st.world.tun.isSome = true ∧ st.world.table.isSome = true) := by
  intro h
  have hend : (run (step fun _ => 1000) (State.initial cleanWorld) lateRecord).any
      (fun st => decide (Quiet st) && st.world.session.isSome && st.world.tun.isNone) = true := by
    decide
  obtain ⟨st, hrun, hst⟩ := (Option.any_eq_true _ _).1 hend
  simp only [Bool.and_eq_true, decide_eq_true_eq, Option.isNone_iff_eq_none] at hst
  have hiff := h _ cleanWorld lateRecord st rfl rfl (by decide) hrun hst.1.1
  have htun := (hiff.1 hst.1.2).1
  rw [hst.2] at htun
  cases htun

end EasyConnection.Helper
