import EasyConnection.Tunnel.Sessions

/-! # The published status

The snapshot is written by `connect` before the session is stored, by `disconnect` before and
after the slot is emptied, and by the pollers, which write back a copy that they took before. It
agrees with the slot whenever no call is in progress, in every run in which none of these writes
comes too late.
-/
namespace EasyConnection.Tunnel
open Async Config Function

variable {ι : Type}

namespace Phase

/-- A call that is about to publish that the tunnel is not up: a `connect`, or a `disconnect` that
resets the snapshot. -/
def lowers : Phase ι → Bool
  | .busy (.connect _) (.call (.writeSnapshot s) _) => !s.state.isUp
  | .busy .disconnect (.call (.writeSnapshot s) _) => s = .default
  | _ => false

/-- A `disconnect` that has not reset the snapshot yet. -/
def resetting : Phase ι → Bool
  | .busy .disconnect (.call _ _) => true
  | _ => false

end Phase

def World.isUp (w : World ι) : Bool := w.snapshot.state.isUp

/-- A session is stored only while the snapshot says that the tunnel is up, which is denied only
while the slot is empty. A poller writes its copy only while there is a session, or the snapshot
says so anyway, or a `disconnect` is still to reset it. -/
def Orderly (st : State ι) : Event ι → Prop
  | .step i _ => ((st.calls i).storing = true → st.world.isUp = true) ∧
      ((st.calls i).lowers = true → st.world.active = none)
  | .pollWrite _ => st.world.active = none →
      st.world.isUp = true ∨ ∃ d, (st.calls d).resetting = true
  | _ => True

instance [Fintype ι] (st : State ι) : DecidablePred (Orderly st)
  | .step _ _ => inferInstanceAs (Decidable ((_ → _) ∧ (_ → _ = none)))
  | .pollWrite _ => inferInstanceAs (Decidable (_ = none → _ ∨ ∃ _, _))
  | .call _ _ => .isTrue trivial
  | .finish _ => .isTrue trivial
  | .wake _ _ => .isTrue trivial
  | .pollRead _ => .isTrue trivial

/-- The pollers hold copies of snapshots that say that the tunnel is up. -/
def World.CopiesUp (w : World ι) : Prop :=
  ∀ i aborted snap, w.pollers i = .holding aborted snap → snap.state.isUp = true

section Copies
variable [DecidableEq ι] {w : World ι} {st : State ι} {i : ι}

theorem World.CopiesUp.set (h : w.CopiesUp) (f : Poller → Poller)
    (hf : ∀ aborted snap, f (w.pollers i) = .holding aborted snap → snap.state.isUp = true) :
    (w.setPoller i f).CopiesUp := by
  intro j aborted snap hj
  by_cases hji : j = i
  · subst hji
    simp only [setPoller, update_self] at hj
    exact hf aborted snap hj
  · simp only [setPoller, update_of_ne hji] at hj
    exact h j aborted snap hj

theorem Poller.rest_ne_holding {aborted aborted' : Bool} {snap : ConnectionSnapshot} :
    Poller.rest aborted ≠ .holding aborted' snap := by
  cases aborted <;> nofun

theorem copiesUp_effect (h : w.CopiesUp) (me : ι) (o : Op ι) (a : Ans o) :
    (effect me w o a).CopiesUp := by
  have hparts (p : Option (ι × (Live → Live))) : (w.setParts p).CopiesUp := by
    cases p <;> exact h
  cases o with
  | take =>
    change (w.takeActive me).CopiesUp
    unfold World.takeActive
    cases w.active <;> exact h
  | store s => exact h
  | writeSnapshot s => exact h
  | spawn i t => exact h
  | cancelStop i => exact h
  | abortTun i => exact h
  | spawnPoller i => exact h.set (fun _ => .asleep) fun _ _ hp => by cases hp
  | stopPoller i =>
    refine h.set .abort fun aborted snap hp => ?_
    cases hold : w.pollers i with
    | holding aborted' snap' =>
      rw [hold] at hp
      cases hp
      exact h i aborted' snap hold
    | _ =>
      rw [hold] at hp
      cases hp
  | _ => exact hparts (liveEffect _ a)

theorem copiesUp_pollRead (h : st.world.CopiesUp) (aborted : Bool) (stats : TrafficStats) :
    (st.pollRead i aborted stats).world.CopiesUp := by
  unfold State.pollRead
  split_ifs with hup
  · refine h.set (fun _ => .holding aborted { st.world.snapshot with stats := stats })
      fun _ _ hp => ?_
    cases hp
    exact hup
  · exact h.set (fun _ => .rest aborted) fun _ _ hp => absurd hp Poller.rest_ne_holding

theorem copiesUp_pollWrite (h : st.world.CopiesUp) (aborted : Bool) (snap : ConnectionSnapshot) :
    (st.pollWrite i aborted snap).world.CopiesUp := by
  have hsame : World.CopiesUp { st.world with snapshot := snap } := h
  exact hsame.set (fun _ => .rest aborted) fun _ _ hp => absurd hp Poller.rest_ne_holding

end Copies

/-- A call that is still to store a session or to reset the snapshot. -/
def Stage.pending : Stage ι → Prop
  | .opening _ ready => ready = true
  | .closing => True
  | .releasing _ cleared => cleared = false
  | _ => False

/-- Where the snapshot and the slot differ, a call is on the way that makes them agree. -/
structure Agreed (stages : ι → Stage ι) (st : State ι) : Prop extends Tracked stages st where
  copies : st.world.CopiesUp
  full : st.world.active ≠ none → st.world.isUp = true ∨ ∃ d, stages d = .closing
  empty : st.world.active = none → st.world.isUp = true → ∃ i, (stages i).pending

section Stages
variable {stages : ι → Stage ι} {st : State ι} {i : ι} {req : Request} {stage : Stage ι}
  {e : Option (ι × (Live → Live))}

theorem Stage.touch_closing (h : stage = .closing) : stage.touch e = .closing := by
  subst h
  cases e <;> rfl

theorem Stage.touch_pending (h : stage.pending) : (stage.touch e).pending := by
  unfold Stage.touch
  split <;> exact h

theorem ended_not_pending {r : Except TunnelError ConnectionSnapshot} (h : Ended req r stage) :
    ¬ stage.pending := by
  cases req with
  | connect profile =>
    cases r with
    | ok snap =>
      obtain rfl : stage = .stored := h
      exact id
    | error e => rcases h with rfl | rfl <;> nofun
  | disconnect =>
    obtain ⟨-, held, rfl, -⟩ := h
    nofun

theorem Tracked.resetting (h : Tracked stages st) (hreset : (st.calls i).resetting = true) :
    (stages i).pending := by
  unfold Phase.resetting at hreset
  split at hreset
  · next hbusy =>
    obtain ⟨hallowed, -, hfits⟩ := h.call hbusy
    cases hstage : stages i with
    | closing => trivial
    | releasing held cleared =>
      rw [hstage] at hallowed
      cases cleared with
      | true => exact hallowed.elim
      | false => rfl
    | _ =>
      rw [hstage] at hfits
      exact hfits.elim
  · cases hreset

variable [DecidableEq ι]

/-- One call changes its stage, and what is asked of some stage still holds. -/
theorem exists_update {P : Stage ι → Prop} (h : ∃ j, P (stages j)) (hi : P (stages i) → P stage) :
    ∃ j, P (update stages i stage j) := by
  obtain ⟨j, hj⟩ := h
  refine ⟨j, ?_⟩
  by_cases hji : j = i
  · subst hji
    rw [update_self]
    exact hi hj
  · rwa [update_of_ne hji]

end Stages

theorem agreed_initial : Agreed (fun _ => .stored) (State.initial : State ι) where
  keeps i req p h := by cases h
  rest _ _ := rfl
  copies i aborted snap h := by cases h
  full h := absurd rfl h
  empty _ h := by cases h

namespace Agreed
variable [DecidableEq ι] {stages : ι → Stage ι} {st : State ι} {i : ι} {req : Request}

/-- A call whose stage neither is nor was pending. -/
theorem restage (h : Agreed stages st) {ph : Phase ι} {stage : Stage ι}
    (htracked : Tracked (update stages i stage) (st.setCall i ph)) (hold : ¬ (stages i).pending) :
    Agreed (update stages i stage) (st.setCall i ph) where
  toTracked := htracked
  copies := h.copies
  full hfull := by
    rcases h.full hfull with hup | hclosing
    · exact .inl hup
    · refine .inr (exists_update (P := (· = .closing)) hclosing fun hi => absurd ?_ hold)
      rw [hi]
      trivial
  empty hempty hup := exists_update (h.empty hempty hup) fun hi => absurd hi hold

/-- An access other than to the slot and the snapshot. -/
theorem plain (h : Agreed stages st) {o : Op ι} (ho : o.plain)
    {k : Ans o → TunnelM ι (Except TunnelError ConnectionSnapshot)}
    (hbusy : st.calls i = .busy req (.call o k)) (a : Ans o) :
    Agreed (update stages i (follow o a (stages i)))
      ({ st with world := effect i st.world o a }.setCall i (.busy req (k a))) := by
  obtain ⟨hactive, -, -, hsnapshot⟩ := effect_plain i st.world ho a
  have hup : (effect i st.world o a).isUp = st.world.isUp := congrArg (·.state.isUp) hsnapshot
  have hstage := follow_plain ho a (stages i)
  refine ⟨h.work hbusy a, copiesUp_effect h.copies i o a, fun hfull => ?_, fun hempty hisUp => ?_⟩
  · refine (h.full fun hnone => hfull (hactive.trans hnone)).imp hup.trans fun hclosing => ?_
    rw [hstage]
    exact exists_update (P := (· = .closing)) hclosing Stage.touch_closing
  · rw [hstage]
    exact exists_update (h.empty (hactive.symm.trans hempty) (hup.symm.trans hisUp))
      Stage.touch_pending

/-- A call publishes a snapshot. -/
theorem write (h : Agreed stages st) {s : ConnectionSnapshot}
    {k : Unit → TunnelM ι (Except TunnelError ConnectionSnapshot)}
    (hbusy : st.calls i = .busy req (.call (.writeSnapshot s) k))
    (hlowers : (st.calls i).lowers = true → st.world.active = none) :
    Agreed (update stages i (follow (.writeSnapshot s) () (stages i)))
      ({ st with world := { st.world with snapshot := s } }.setCall i (.busy req (k ()))) := by
  obtain ⟨hallowed, -, hfits⟩ := h.call hbusy
  have htracked := h.work (w := { st.world with snapshot := s }) hbusy ()
  rw [hbusy] at hlowers
  cases hstage : stages i with
  | checking =>
    rw [hstage] at hallowed
    cases hallowed
  | stored =>
    rw [hstage] at hallowed
    exact hallowed.elim
  | opening live ready =>
    rw [hstage] at hfits htracked
    cases req with
    | disconnect => exact hfits.elim
    | connect profile =>
      refine ⟨htracked, h.copies, fun hfull => .inl ?_, fun hempty hup => ⟨i, ?_⟩⟩
      · by_contra hdown
        have hs : s.state.isUp = false := Bool.eq_false_iff.2 hdown
        exact hfull (hlowers (by simp [Phase.lowers, hs]))
      · rw [update_self]
        exact hup
  | closing =>
    rw [hstage] at hallowed htracked
    refine ⟨htracked, h.copies, fun hfull => .inr ⟨i, update_self ..⟩, fun hempty hup => ?_⟩
    exact absurd (hup.symm.trans hallowed) (by decide)
  | releasing held cleared =>
    rw [hstage] at hallowed hfits htracked
    cases cleared with
    | true => exact hallowed.elim
    | false =>
      obtain rfl : s = .default := hallowed
      cases req with
      | connect profile => exact hfits.elim
      | disconnect =>
        refine ⟨htracked, h.copies, fun hfull => absurd (hlowers (by simp [Phase.lowers])) hfull,
          fun hempty hup => ?_⟩
        cases hup

/-- Every access of a call, whatever it is answered. -/
theorem access (h : Agreed stages st) {o : Op ι}
    {k : Ans o → TunnelM ι (Except TunnelError ConnectionSnapshot)}
    (hbusy : st.calls i = .busy req (.call o k)) (env : Env ι) (hord : Orderly st (.step i env)) :
    Agreed (update stages i (follow o (answer st.world env o) (stages i)))
      ({ st with world := effect i st.world o (answer st.world env o) }.setCall i
        (.busy req (k (answer st.world env o)))) := by
  obtain ⟨hallowed, -, -⟩ := h.call hbusy
  by_cases hplain : o.plain
  · exact h.plain hplain hbusy _
  · cases o with
    | inspect =>
      have hstage := stage_of_inspect hallowed
      exact h.restage (h.work hbusy st.world.active.isSome) (by rw [hstage]; exact id)
    | take =>
      have hstage := stage_of_take hallowed
      have hnone : (st.world.takeActive i).active = none := by
        unfold World.takeActive
        cases hactive : st.world.active with
        | none => exact hactive
        | some s => rfl
      refine ⟨h.work hbusy st.world.active, copiesUp_effect h.copies i .take st.world.active,
        fun hfull => absurd hnone hfull, fun _ _ => ⟨i, ?_⟩⟩
      rw [update_self, hstage]
      rfl
    | store s =>
      have hup := hord.1 (by rw [hbusy]; rfl)
      exact ⟨h.work hbusy _, h.copies, fun _ => .inl hup, fun hempty => by cases hempty⟩
    | writeSnapshot s => exact h.write hbusy hord.2
    | _ => exact absurd trivial hplain

omit [DecidableEq ι] in
/-- A step of a poller that leaves the snapshot. -/
theorem poll (h : Agreed stages st) {w : World ι} (hcopies : w.CopiesUp)
    (hactive : w.active = st.world.active) (hsnapshot : w.snapshot = st.world.snapshot) :
    Agreed stages { st with world := w } where
  keeps := h.keeps
  rest := h.rest
  copies := hcopies
  full hfull := by
    rw [World.isUp, hsnapshot]
    exact h.full (hactive ▸ hfull)
  empty hempty hup := by
    rw [World.isUp, hsnapshot] at hup
    exact h.empty (hactive ▸ hempty) hup

/-- A poller writes back its copy. -/
theorem pollWrite (h : Agreed stages st) {aborted : Bool} {snap : ConnectionSnapshot}
    (hholding : st.world.pollers i = .holding aborted snap) (hord : Orderly st (.pollWrite i)) :
    Agreed stages (st.pollWrite i aborted snap) where
  keeps := h.keeps
  rest := h.rest
  copies := copiesUp_pollWrite h.copies aborted snap
  full _ := .inl (h.copies i aborted snap hholding)
  empty hempty _ := by
    rcases hord hempty with hup | ⟨d, hd⟩
    · exact h.empty hempty hup
    · exact ⟨d, h.resetting hd⟩

end Agreed

section Runs
variable [DecidableEq ι] {st st' : State ι}

theorem agreed_step [Texts] {e : Event ι} (h : ∃ stages, Agreed stages st) (hord : Orderly st e)
    (hstep : step st e = some st') : ∃ stages, Agreed stages st' := by
  obtain ⟨stages, h⟩ := h
  cases step_moves hstep with
  | @call i req hidle =>
    have hstored : stages i = .stored := h.rest i (by rw [hidle]; rfl)
    exact ⟨_, h.restage h.toTracked.begin (by rw [hstored]; exact id)⟩
  | work hbusy => exact ⟨_, h.access hbusy _ hord⟩
  | @finish i req r hret =>
    exact ⟨_, h.restage h.toTracked.finish (ended_not_pending (h.keeps i req _ hret).1)⟩
  | @wake i stats hasleep =>
    have hcopies := h.copies.set (i := i) (fun _ => .awake false stats) fun _ _ hp => by cases hp
    exact ⟨_, h.poll hcopies rfl rfl⟩
  | @pollRead i aborted stats hawake =>
    have hcopies := copiesUp_pollRead (i := i) h.copies aborted stats
    unfold State.pollRead at hcopies ⊢
    split_ifs at hcopies ⊢ <;> exact ⟨_, h.poll hcopies rfl rfl⟩
  | pollWrite hholding => exact ⟨_, h.pollWrite hholding hord⟩

/-- After every run in which no write comes too late: when no call is in progress, the snapshot
says that the tunnel is up exactly if there is a session. -/
theorem status_agrees [Texts] (es : List (Event ι)) (st : State ι)
    (hord : Meets step Orderly State.initial es) (hrun : run step State.initial es = some st)
    (hquiet : Quiet st) :
    st.world.snapshot.state.isUp = true ↔ st.world.active.isSome = true := by
  obtain ⟨stages, h⟩ := run_invariant (fun _ _ _ h hok hstep => agreed_step h hok hstep)
    ⟨_, agreed_initial⟩ hord hrun
  have hstored (i : ι) : stages i = .stored := h.rest i (hquiet i)
  cases hactive : st.world.active with
  | none =>
    refine iff_of_false (fun hup => ?_) nofun
    obtain ⟨i, hi⟩ := h.empty hactive hup
    rw [hstored i] at hi
    exact hi
  | some s =>
    refine iff_of_true ?_ rfl
    rcases h.full (by rw [hactive]; nofun) with hup | ⟨d, hd⟩
    · exact hup
    · rw [hstored d] at hd
      cases hd

end Runs

/-- A connection whose poller runs once, a disconnection, and a second connection. -/
def polledRun : List (Event Caller) :=
  oneCall .first (.connect sshProfile) 16 ++
    [.wake .first ⟨10, 20, 10, 20, 1⟩, .pollRead .first, .pollWrite .first] ++
    oneCall .second .disconnect 7 ++ oneCall .third (.connect otherProfile) 16

/-- The poller of a session takes its copy before the disconnection and writes it afterwards. -/
def staleRun : List (Event Caller) :=
  oneCall .first (.connect sshProfile) 16 ++ [.wake .first ⟨10, 20, 10, 20, 1⟩, .pollRead .first] ++
    oneCall .second .disconnect 7 ++ [.pollWrite .first]

open Sample

theorem polledRun_agrees :
    ∃ st, Meets step Orderly State.initial polledRun ∧
      run step State.initial polledRun = some st ∧ Quiet st ∧ st.session = some Caller.third ∧
      (st.world.snapshot.state.isUp = true ↔ st.world.active.isSome = true) := by
  have hord : Meets step Orderly State.initial polledRun := by decide +kernel
  have hend : (run step State.initial polledRun).any (fun st =>
      decide (Quiet st ∧ st.session = some Caller.third)) = true := by decide +kernel
  obtain ⟨st, hrun, hst⟩ := (Option.any_eq_true _ _).1 hend
  have ⟨hquiet, hsession⟩ := of_decide_eq_true hst
  exact ⟨st, hord, hrun, hquiet, hsession, status_agrees polledRun st hord hrun hquiet⟩

/-- The snapshot says that the tunnel is up for ever, with no session and no poller left. -/
theorem staleRun_disagrees :
    ∃ st, run step State.initial staleRun = some st ∧ Quiet st ∧
      (∀ i, (st.world.pollers i).lingers = false) ∧
      st.world.snapshot.state = .connected ∧ st.world.active.isSome = false := by
  have hend : (run step State.initial staleRun).any (fun st =>
      decide (Quiet st ∧ (∀ i, (st.world.pollers i).lingers = false) ∧
        st.world.snapshot.state = .connected ∧ st.world.active.isSome = false)) = true := by
    decide +kernel
  obtain ⟨st, hrun, hst⟩ := (Option.any_eq_true _ _).1 hend
  exact ⟨st, hrun, of_decide_eq_true hst⟩

end EasyConnection.Tunnel
