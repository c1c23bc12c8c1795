import EasyConnection.Tunnel.Failure

/-! # What a failed `connect` leaves running

Until a `connect` stores its session no other call knows it, however the calls overlap. So what
runs of the session of a failed `connect` is what its own accesses have left. It releases all
of it after every failure but one: that of the descriptor which the helper sends.
-/
namespace EasyConnection.Tunnel
open Async Config Function

variable {ι : Type}

/-- A call in this stage is the only one that knows its session. -/
def Stage.owns : Stage ι → Prop
  | .checking => True
  | .opening _ _ => True
  | _ => False

/-- What runs of the session in such a stage. -/
def Stage.live : Stage ι → Live
  | .opening live _ => live
  | _ => .off

/-- A call is in progress or has ended as its stage tells. -/
def Fits (i : ι) : Phase ι → Stage ι → Prop
  | .idle, stage => stage = .checking
  | .busy req p, stage => Keeps i (Ended req) p stage
  | .returned req r, stage => Ended req r stage

/-- A session that has not been stored is touched by its own call only. -/
structure Owned (stages : ι → Stage ι) (traces : ι → List (Access ι)) (st : State ι) : Prop where
  fits : ∀ i, Fits i (st.calls i) (stages i)
  slot : ∀ s, st.world.active = some s → stages s.id = .stored
  held : ∀ i j live cleared, stages i = .releasing (some (j, live)) cleared → stages j = .stored
  live : ∀ i, (stages i).owns → st.world.live i = (stages i).live
  tasks : ∀ i, (stages i).owns →
    st.world.tasks i = (view Record.after (.fresh .default) (traces i)).tasks

theorem owned_initial : Owned (fun _ => .checking) (fun _ => []) (State.initial : State ι) where
  fits _ := rfl
  slot _ h := by cases h
  held _ _ _ _ h := by cases h
  live _ _ := rfl
  tasks _ _ := rfl

variable [DecidableEq ι]

section Accesses
variable {me j : ι} {w : World ι} {o : Op ι} {stage : Stage ι}

theorem setParts_tasks (p : Option (ι × (Live → Live))) : (w.setParts p).tasks = w.tasks := by
  cases p <;> rfl

theorem setParts_live_of_ne {p : Option (ι × (Live → Live))} (h : ∀ i f, p = some (i, f) → i ≠ j) :
    (w.setParts p).live j = w.live j := by
  cases p with
  | none => rfl
  | some q => exact update_of_ne (h q.1 q.2 rfl).symm _ _

/-- An access leaves the sessions alone that it does not name. -/
theorem effect_frame (hj : j ∉ o.session) (a : Ans o) :
    (effect me w o a).live j = w.live j ∧ (effect me w o a).tasks j = w.tasks j := by
  have hne {i : ι} (hi : i ∈ o.session) : i ≠ j := by
    rintro rfl
    exact hj hi
  have hparts : (w.setParts (liveEffect o a)).live j = w.live j :=
    setParts_live_of_ne fun i f h => hne (liveEffect_session h)
  cases o with
  | take =>
    simp only [effect, World.takeActive]
    split <;> exact ⟨rfl, rfl⟩
  | spawn i t => exact ⟨rfl, update_of_ne (hne rfl).symm _ _⟩
  | cancelStop i => exact ⟨rfl, update_of_ne (hne rfl).symm _ _⟩
  | abortTun i => exact ⟨rfl, update_of_ne (hne rfl).symm _ _⟩
  | _ =>
    constructor
    · first | rfl | exact hparts
    · first | rfl | exact congrFun (setParts_tasks _) j

/-- What an access does to the tasks of its own session. -/
theorem effect_tasks (hown : ∀ i ∈ o.session, i = me) (a : Ans o) :
    (effect me w o a).tasks me = o.tasks (w.tasks me) := by
  cases o with
  | take =>
    simp only [effect, World.takeActive]
    split <;> rfl
  | spawn i t =>
    obtain rfl := hown i rfl
    exact update_self ..
  | cancelStop i =>
    obtain rfl := hown i rfl
    exact update_self ..
  | abortTun i =>
    obtain rfl := hown i rfl
    exact update_self ..
  | _ => first | rfl | exact congrFun (setParts_tasks _) me

omit [DecidableEq ι] in
/-- A call that owns its session has done so from its beginning. -/
theorem owns_of_follow {a : Ans o} (h : (follow o a stage).owns) : stage.owns := by
  have htouch {e : Option (ι × (Live → Live))} {stage : Stage ι} (h : (stage.touch e).owns) :
      stage.owns := by
    unfold Stage.touch at h
    split at h <;> trivial
  unfold follow at h
  split at h <;> first | trivial | exact htouch h

omit [DecidableEq ι] in
/-- A call that stops a session has been stopping it, or has just taken it. -/
theorem releasing_of_follow {a : Ans o} {live : Live} {cleared : Bool}
    (h : follow o a stage = .releasing (some (j, live)) cleared) :
    (∃ live' cleared', stage = .releasing (some (j, live')) cleared') ∨
      ∃ s : ActiveSession ι, s.id = j ∧ (⟨o, a⟩ : Access ι) = ⟨.take, some s⟩ := by
  have htouch {e : Option (ι × (Live → Live))} {stage : Stage ι}
      (h : stage.touch e = .releasing (some (j, live)) cleared) :
      ∃ live' cleared', stage = .releasing (some (j, live')) cleared' := by
    unfold Stage.touch at h
    split at h
    · cases h
    · cases h
      exact ⟨_, _, rfl⟩
    · exact ⟨_, _, h⟩
  unfold follow at h
  split at h
  · cases h
  · next session =>
    cases session with
    | none => cases h
    | some s =>
      cases h
      exact .inr ⟨s, rfl, rfl⟩
  · cases h
  · cases h
  · cases h
    exact .inl ⟨_, _, rfl⟩
  · exact .inl (htouch h)

/-- The slot holds what it held, or what the call has just stored. -/
theorem slot_of_effect {s : ActiveSession ι} {a : Ans o} (hallowed : allowed me o stage)
    (h : (effect me w o a).active = some s) :
    w.active = some s ∨ s.id = me ∧ follow o a stage = .stored := by
  by_cases hplain : o.plain
  · rw [(effect_plain me w hplain a).1] at h
    exact .inl h
  · cases o with
    | inspect => exact .inl h
    | writeSnapshot snap => exact .inl h
    | take =>
      simp only [effect, World.takeActive] at h
      split at h
      · exact .inl h
      · cases h
    | store s' =>
      cases h
      obtain ⟨live, ready, rfl⟩ := stage_of_store hallowed
      exact .inr ⟨hallowed.1, rfl⟩
    | _ => exact (hplain trivial).elim

/-- What an access does to the parts of its own session, as the stage follows it. -/
theorem effect_live (hallowed : allowed me o stage) (hstage : stage.owns) (a : Ans o)
    (hlive : w.live me = stage.live) (hnext : (follow o a stage).owns) :
    (effect me w o a).live me = (follow o a stage).live := by
  have hown {j : ι} (hj : j ∈ o.session) : j = me := by
    rcases session_of_allowed hallowed hj with ⟨-, -, rfl, -⟩ | ⟨live, cleared, rfl⟩
    · rfl
    · exact hstage.elim
  cases stage with
  | checking =>
    obtain rfl : o = .inspect := hallowed
    cases a <;> exact hlive
  | opening live ready =>
    by_cases hplain : o.plain
    · obtain ⟨-, -, heffect, -⟩ := effect_plain me w hplain a
      rw [heffect, follow_plain hplain]
      cases he : liveEffect o a with
      | none => exact hlive
      | some p =>
        obtain ⟨j, f⟩ := p
        obtain rfl := hown (liveEffect_session he)
        exact (update_self ..).trans (congrArg f hlive)
    · cases o <;> first
        | exact (hplain trivial).elim
        | exact hallowed.elim
        | exact hnext.elim
        | exact hlive
  | stored => exact hstage.elim
  | closing => exact hstage.elim
  | releasing held cleared => exact hstage.elim

end Accesses

namespace Owned
variable {stages : ι → Stage ι} {traces : ι → List (Access ι)} {st : State ι} {i : ι}

/-- One call goes on. -/
theorem set (h : Owned stages traces st) {ph : Phase ι} {w : World ι} {stage : Stage ι}
    {accesses : List (Access ι)} (hfits : Fits i ph stage)
    (hstored : stages i = .stored → stage = .stored)
    (hslot : ∀ s, w.active = some s → st.world.active = some s ∨ s.id = i ∧ stage = .stored)
    (hheld : ∀ j live cleared, stage = .releasing (some (j, live)) cleared → stages j = .stored)
    (hown : stage.owns → w.live i = stage.live ∧
      w.tasks i = (view Record.after (.fresh .default) accesses).tasks)
    (hframe : ∀ j, j ≠ i → (stages j).owns →
      w.live j = st.world.live j ∧ w.tasks j = st.world.tasks j) :
    Owned (update stages i stage) (update traces i accesses)
      ({ st with world := w }.setCall i ph) := by
  have hkept {j : ι} (hj : stages j = .stored) : update stages i stage j = .stored := by
    by_cases hji : j = i
    · subst hji
      rw [update_self]
      exact hstored hj
    · rw [update_of_ne hji]
      exact hj
  refine ⟨fun k => ?_, fun s hs => ?_, fun k j live cleared hk => ?_, fun k hk => ?_, fun k hk => ?_⟩
  · by_cases hki : k = i
    · subst hki
      simp only [State.setCall, update_self]
      exact hfits
    · simp only [State.setCall, update_of_ne hki]
      exact h.fits k
  · rcases hslot s hs with hs | ⟨rfl, rfl⟩
    · exact hkept (h.slot s hs)
    · exact update_self ..
  · by_cases hki : k = i
    · subst hki
      rw [update_self] at hk
      exact hkept (hheld j live cleared hk)
    · rw [update_of_ne hki] at hk
      exact hkept (h.held k j live cleared hk)
  · by_cases hki : k = i
    · subst hki
      rw [update_self] at hk ⊢
      exact (hown hk).1
    · rw [update_of_ne hki] at hk ⊢
      exact (hframe k hki hk).1.trans (h.live k hk)
  · by_cases hki : k = i
    · subst hki
      rw [update_self] at hk ⊢
      exact (hown hk).2
    · rw [update_of_ne hki] at hk ⊢
      exact (hframe k hki hk).2.trans (h.tasks k hk)

/-- An access touches the session of its own call, or one that has been stored. -/
theorem frame (h : Owned stages traces st) {o : Op ι} (hallowed : allowed i o (stages i)) {j : ι}
    (hji : j ≠ i) (hj : (stages j).owns) (a : Ans o) :
    (effect i st.world o a).live j = st.world.live j ∧
      (effect i st.world o a).tasks j = st.world.tasks j := by
  refine effect_frame (fun hsession => ?_) a
  rcases session_of_allowed hallowed hsession with ⟨-, -, rfl, -⟩ | ⟨live, cleared, hi⟩
  · exact hji rfl
  · rw [h.held i j live cleared hi] at hj
    exact hj

theorem access (h : Owned stages traces st) {req : Request} {o : Op ι} (env : Env ι)
    {k : Ans o → TunnelM ι (Except TunnelError ConnectionSnapshot)}
    (hbusy : st.calls i = .busy req (.call o k)) :
    Owned (update stages i (follow o (answer st.world env o) (stages i)))
      (update traces i (traces i ++ [⟨o, answer st.world env o⟩]))
      ({ st with world := effect i st.world o (answer st.world env o) }.setCall i
        (.busy req (k (answer st.world env o)))) := by
  have hkeeps := h.fits i
  rw [hbusy] at hkeeps
  obtain ⟨hallowed, hnext⟩ := hkeeps
  refine h.set (hnext _) (fun hstored => ?_) (fun s hs => slot_of_effect hallowed hs)
    (fun j live cleared hfollow => ?_) (fun hown => ?_) fun j hji hj => h.frame hallowed hji hj _
  · rw [hstored] at hallowed
    exact hallowed.elim
  · rcases releasing_of_follow hfollow with ⟨live', cleared', hi⟩ | ⟨s, rfl, htake⟩
    · exact h.held i j live' cleared' hi
    · obtain ⟨rfl, hactive⟩ := Sigma.mk.inj htake
      exact h.slot s (eq_of_heq hactive)
  · have hstage := owns_of_follow hown
    refine ⟨effect_live hallowed hstage _ (h.live i hstage) hown, ?_⟩
    rw [effect_tasks (fun j hj => ?_), h.tasks i hstage, view_append]
    · rfl
    · rcases session_of_allowed hallowed hj with ⟨-, -, hji, -⟩ | ⟨live, cleared, hi⟩
      · exact hji
      · rw [hi] at hstage
        exact hstage.elim

omit [DecidableEq ι] in
theorem poll (h : Owned stages traces st) {w : World ι} (hactive : w.active = st.world.active)
    (hlive : w.live = st.world.live) (htasks : w.tasks = st.world.tasks) :
    Owned stages traces { st with world := w } where
  fits := h.fits
  slot s hs := h.slot s (hactive ▸ hs)
  held := h.held
  live i hi := hlive ▸ h.live i hi
  tasks i hi := htasks ▸ h.tasks i hi

theorem begin [Texts] (h : Owned stages traces st) (hidle : st.calls i = .idle) (req : Request) :
    Owned (update stages i (start req)) traces (st.setCall i (.busy req (program i req))) := by
  have hfits := h.fits i
  rw [hidle] at hfits
  suffices hset : Owned (update stages i (start req)) (update traces i (traces i))
      ({ st with world := st.world }.setCall i (.busy req (program i req))) by
    rw [update_eq_self] at hset
    exact hset
  refine h.set (program_keeps req) (fun hstored => ?_) (fun s hs => .inl hs)
    (fun j live cleared hstart => ?_) (fun _ => ?_) fun _ _ _ => ⟨rfl, rfl⟩
  · rw [hfits] at hstored
    cases hstored
  · cases req <;> cases hstart
  · have howns : (stages i).owns := hfits ▸ trivial
    refine ⟨(h.live i howns).trans ?_, h.tasks i howns⟩
    rw [hfits]
    cases req <;> rfl

theorem finish (h : Owned stages traces st) {req : Request}
    {r : Except TunnelError ConnectionSnapshot} (hret : st.calls i = .busy req (.ret r)) :
    Owned stages traces (st.setCall i (.returned req r)) := by
  have hfits := h.fits i
  rw [hret] at hfits
  refine ⟨fun k => ?_, h.slot, h.held, h.live, h.tasks⟩
  by_cases hki : k = i
  · subst hki
    simp only [State.setCall, update_self]
    exact hfits
  · simp only [State.setCall, update_of_ne hki]
    exact h.fits k

theorem step [Texts] {st' : State ι} {e : Event ι} (h : Owned stages traces st)
    (hmoves : Moves st e st') :
    ∃ stages', Owned stages' (fun k => traces k ++ (made k st e).toList) st' := by
  cases hmoves with
  | call hidle =>
    simp only [made, Option.toList_none, List.append_nil]
    exact ⟨_, h.begin hidle _⟩
  | @work i env req o k hbusy =>
    have htraces : (fun k => traces k ++ (made k st (.step i env)).toList) =
        update traces i (traces i ++ [⟨o, answer st.world env o⟩]) := by
      funext j
      by_cases hji : j = i
      · subst hji
        simp only [made, hbusy, if_true, update_self, Option.toList_some]
      · simp only [made, hbusy, if_neg (Ne.symm hji), update_of_ne hji, Option.toList_none,
          List.append_nil]
    rw [htraces]
    exact ⟨_, h.access env hbusy⟩
  | finish hret =>
    simp only [made, Option.toList_none, List.append_nil]
    exact ⟨_, h.finish hret⟩
  | wake hasleep =>
    simp only [made, Option.toList_none, List.append_nil]
    exact ⟨_, h.poll rfl rfl rfl⟩
  | pollRead hawake =>
    simp only [made, Option.toList_none, List.append_nil]
    unfold State.pollRead
    split_ifs <;> exact ⟨_, h.poll rfl rfl rfl⟩
  | pollWrite hholding =>
    simp only [made, Option.toList_none, List.append_nil]
    exact ⟨_, h.poll rfl rfl rfl⟩

end Owned

theorem owned_run [Texts] {es : List (Event ι)} {st : State ι}
    (hrun : run step State.initial es = some st) :
    ∃ stages, Owned stages (fun k => trace k State.initial es) st := by
  refine run_reached (I := fun es st => ∃ stages, Owned stages (fun k => trace k State.initial es) st)
    ?_ ⟨_, owned_initial⟩ (Meets.of_forall (fun _ _ => trivial) State.initial es) hrun
  rintro es u e u' hu ⟨stages, h⟩ _ hstep
  simp only [trace_concat e hu]
  exact h.step (step_moves hstep)

/-- However the calls overlap: when a `connect` has failed, no task that it started runs on, its
proxies are stopped and its SSH session is disconnected, exactly if the descriptor of the tunnel
was never refused. -/
theorem failed_connect_releases_iff [Texts] (i : ι) (profile : ConnectionConfig)
    (es : List (Event ι)) (st : State ι) (e : TunnelError)
    (hrun : run step State.initial es = some st)
    (hret : st.calls i = .returned (.connect profile) (.error e)) :
    (st.world.tasks i = [] ∧ (st.world.live i).proxies = false ∧ (st.world.live i).ssh = false) ↔
      (trace i State.initial es).any Access.refusesDescriptor = false := by
  obtain ⟨stages, h⟩ := owned_run hrun
  have hended := h.fits i
  rw [hret] at hended
  have hstage : (stages i).owns ∧ (stages i).live = .off := by
    rcases hended with hstage | hstage <;> rw [hstage] <;> exact ⟨trivial, rfl⟩
  have hrecord := accounted_of_returned .default rfl hrun hret
  rw [h.live i hstage.1, hstage.2, h.tasks i hstage.1, hrecord.release, Record.view_spoiled]
  exact and_iff_left ⟨rfl, rfl⟩

/-- A profile over SSH for the full tunnel. -/
def tunnelProfile : ConnectionConfig := { sshProfile with routingMode := .fullTunnel }

/-- The helper refuses the tunnel. -/
def helperRefuses : Env ι
  | .apply _ _ => .error "nftables is unavailable"
  | o => smooth o

/-- The helper's descriptor cannot be made non-blocking. -/
def badDescriptor : Env ι
  | .fromOwnedFd => .error "set O_NONBLOCK: Bad file descriptor (os error 9)"
  | o => smooth o

def failedApply : List (Event Caller) := attemptRun tunnelProfile 27 helperRefuses

def failedDescriptor : List (Event Caller) := attemptRun tunnelProfile 28 badDescriptor

open Sample

theorem failedApply_released :
    ∃ st, run step State.initial failedApply = some st ∧
      st.world.tasks .first = [] ∧ (st.world.live .first).proxies = false ∧
      (st.world.live .first).ssh = false := by
  have hend : (run step State.initial failedApply).any (fun st => (st.calls .first).failedWith
      (.connect tunnelProfile) (.helper "nftables is unavailable")) = true := by decide +kernel
  obtain ⟨st, hrun, hst⟩ := (Option.any_eq_true _ _).1 hend
  exact ⟨st, hrun, (failed_connect_releases_iff .first tunnelProfile failedApply st _ hrun
    (Phase.failedWith_eq_true.1 hst)).2 (by decide +kernel)⟩

/-- The intercepts run on, and keep the ports that the next attempt needs. -/
theorem failedDescriptor_leaks :
    ∃ st, run step State.initial failedDescriptor = some st ∧ Quiet st ∧
      (st.calls .first).failedWith (.connect tunnelProfile)
        (.helper "set O_NONBLOCK: Bad file descriptor (os error 9)") = true ∧
      st.world.tasks .first = [.dnsIntercept, .transproxy] := by
  have hend : (run step State.initial failedDescriptor).any (fun st => decide (Quiet st ∧
      (st.calls .first).failedWith (.connect tunnelProfile)
        (.helper "set O_NONBLOCK: Bad file descriptor (os error 9)") = true ∧
      st.world.tasks .first = [.dnsIntercept, .transproxy])) = true := by decide +kernel
  obtain ⟨st, hrun, hst⟩ := (Option.any_eq_true _ _).1 hend
  exact ⟨st, hrun, of_decide_eq_true hst⟩

end EasyConnection.Tunnel
