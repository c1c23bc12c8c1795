import EasyConnection.Tunnel.Custody

/-! # The invariant of the calls

The stages of all calls, the keepers of all sessions and the world fit together, as long as no
`connect` stores its session over another one. Every access of every call keeps this, whatever it
is answered.
-/
namespace EasyConnection.Tunnel
open Async Config Function

variable {ι : Type}

/-- The accesses that leave the slot and the snapshot alone. -/
def Op.plain : Op ι → Prop
  | .inspect => False
  | .take => False
  | .store _ => False
  | .writeSnapshot _ => False
  | _ => True

theorem liveEffect_session {o : Op ι} {a : Ans o} {j : ι} {f : Live → Live}
    (h : liveEffect o a = some (j, f)) : j ∈ o.session := by
  unfold liveEffect at h
  split at h <;> first | cases h; rfl | cases h

theorem follow_plain {o : Op ι} (ho : o.plain) (a : Ans o) (stage : Stage ι) :
    follow o a stage = stage.touch (liveEffect o a) := by
  cases o <;> first | exact ho.elim | rfl

section World
variable [DecidableEq ι] (me : ι) (w : World ι)

theorem setParts_active (p : Option (ι × (Live → Live))) :
    (w.setParts p).active = w.active := by
  cases p <;> rfl

theorem setParts_takenBy (p : Option (ι × (Live → Live))) :
    (w.setParts p).takenBy = w.takenBy := by
  cases p <;> rfl

theorem setParts_snapshot (p : Option (ι × (Live → Live))) :
    (w.setParts p).snapshot = w.snapshot := by
  cases p <;> rfl

theorem effect_plain {o : Op ι} (ho : o.plain) (a : Ans o) :
    (effect me w o a).active = w.active ∧ (effect me w o a).takenBy = w.takenBy ∧
      (effect me w o a).live = (w.setParts (liveEffect o a)).live ∧
      (effect me w o a).snapshot = w.snapshot := by
  cases o <;> first
    | exact ho.elim
    | exact ⟨rfl, rfl, rfl, rfl⟩
    | exact ⟨setParts_active w _, setParts_takenBy w _, rfl, setParts_snapshot w _⟩

end World

/-- The stages of each kind of call. -/
def Stage.fits : Stage ι → Request → Prop
  | .checking, .connect _ => True
  | .opening _ _, .connect _ => True
  | .stored, .connect _ => True
  | .closing, .disconnect => True
  | .releasing _ _, .disconnect => True
  | _, _ => False

/-- A call that has not passed a guard. -/
def Unborn : Phase ι → Stage ι → Prop
  | .idle, _ => True
  | .busy (.connect _) _, stage => stage = .checking
  | _, _ => False

/-- A `connect` that has stored its session. -/
def Landed : Phase ι → Stage ι → Prop
  | .busy (.connect _) _, stage => stage = .stored
  | .returned (.connect _) (.ok _), _ => True
  | _, _ => False

/-- A `disconnect` that is in progress or has succeeded. -/
def Phase.disconnects : Phase ι → Prop
  | .busy .disconnect _ => True
  | .returned .disconnect (.ok _) => True
  | _ => False

/-- The session is in the slot, or a `disconnect` has taken it. -/
def Placed (st : State ι) (i : ι) : Prop :=
  (∃ s, st.world.active = some s ∧ s.id = i) ∨
    ∃ d, st.world.takenBy i = some d ∧ (st.calls d).disconnects

/-- Every call in progress is in a stage that fits it. -/
structure Tracked (stages : ι → Stage ι) (st : State ι) : Prop where
  keeps : ∀ i req p, st.calls i = .busy req p →
    Keeps i (Ended req) p (stages i) ∧ (stages i).fits req
  rest : ∀ i, (st.calls i).inProgress = false → stages i = .stored

structure Sound (custody : ι → Custody ι) (stages : ι → Stage ι) (st : State ι) : Prop
    extends Tracked stages st where
  kept : Kept custody stages st.world
  unborn : ∀ i, Unborn (st.calls i) (stages i) → custody i = .nobody
  landed : ∀ i, Landed (st.calls i) (stages i) → Placed st i

/-- A session is stored only in an empty slot. -/
def Exclusive (st : State ι) : Event ι → Prop
  | .step i _ => (st.calls i).storing = true → st.world.active = none
  | _ => True

instance (st : State ι) : DecidablePred (Exclusive st)
  | .step _ _ => inferInstanceAs (Decidable (_ → _ = none))
  | .call _ _ => .isTrue trivial
  | .finish _ => .isTrue trivial
  | .wake _ _ => .isTrue trivial
  | .pollRead _ => .isTrue trivial
  | .pollWrite _ => .isTrue trivial

theorem Stage.touch_fits {req : Request} {stage : Stage ι} (h : stage.fits req)
    (e : Option (ι × (Live → Live))) : (stage.touch e).fits req := by
  unfold Stage.touch
  cases req <;> split <;> exact h

theorem follow_fits {req : Request} {stage : Stage ι} (h : stage.fits req) (o : Op ι) (a : Ans o) :
    (follow o a stage).fits req := by
  unfold follow
  cases req <;> split <;> first | exact h | exact Stage.touch_fits h _

section Steps
variable {custody custody' : ι → Custody ι} {stages : ι → Stage ι} {st : State ι} {i : ι}
  {req : Request} {stage : Stage ι} {w : World ι}
  {p : TunnelM ι (Except TunnelError ConnectionSnapshot)}

theorem sound_initial :
    Sound (fun _ => .nobody) (fun _ => .stored) (State.initial : State ι) where
  keeps i req p h := by cases h
  rest _ _ := rfl
  kept := {
    live := fun _ => rfl
    slot := fun j s => by simp [State.initial]
    held := fun i j c h => by cases h
    known := fun _ => .inl rfl }
  unborn _ _ := rfl
  landed i h := h.elim

variable {o : Op ι} {k : Ans o → TunnelM ι (Except TunnelError ConnectionSnapshot)}

/-- The stage of a call in progress allows its next access. -/
theorem Tracked.call (h : Tracked stages st) (hbusy : st.calls i = .busy req (.call o k)) :
    allowed i o (stages i) ∧ (∀ a, Keeps i (Ended req) (k a) (follow o a (stages i))) ∧
      (stages i).fits req :=
  have hk := h.keeps i req _ hbusy
  ⟨hk.1.1, hk.1.2, hk.2⟩

variable [DecidableEq ι] {ph : Phase ι}

theorem Placed.update {k : ι} (h : Placed st k) (hactive : w.active = st.world.active)
    (htaken : w.takenBy = st.world.takenBy) (hph : (st.calls i).disconnects → ph.disconnects) :
    Placed ({ st with world := w }.setCall i ph) k := by
  rcases h with ⟨s, hs, hid⟩ | ⟨d, hd, hdis⟩
  · exact .inl ⟨s, by rw [← hs, ← hactive]; rfl, hid⟩
  · refine .inr ⟨d, by rw [← hd, ← htaken]; rfl, ?_⟩
    by_cases hdi : d = i
    · subst hdi
      simp only [State.setCall, update_self]
      exact hph hdis
    · simp only [State.setCall, update_of_ne hdi]
      exact hdis

/-- Call `i` moves on. -/
theorem Tracked.set (h : Tracked stages st)
    (hkeeps : ∀ req p, ph = .busy req p → Keeps i (Ended req) p stage ∧ stage.fits req)
    (hrest : ph.inProgress = false → stage = .stored) :
    Tracked (Function.update stages i stage) ({ st with world := w }.setCall i ph) where
  keeps k req q hk := by
    by_cases hki : k = i
    · subst hki
      simp only [State.setCall, update_self] at hk
      rw [update_self]
      exact hkeeps req q hk
    · simp only [State.setCall, update_of_ne hki] at hk
      rw [update_of_ne hki]
      exact h.keeps k req q hk
  rest k hk := by
    by_cases hki : k = i
    · subst hki
      simp only [State.setCall, update_self] at hk
      rw [update_self]
      exact hrest hk
    · simp only [State.setCall, update_of_ne hki] at hk
      rw [update_of_ne hki]
      exact h.rest k hk

theorem Tracked.begin [Texts] (h : Tracked stages st) :
    Tracked (update stages i (start req)) (st.setCall i (.busy req (program i req))) := by
  refine h.set (fun req' p hp => ?_) nofun
  cases hp
  refine ⟨program_keeps req, ?_⟩
  cases req <;> trivial

theorem Tracked.work (h : Tracked stages st) (hbusy : st.calls i = .busy req (.call o k))
    (a : Ans o) :
    Tracked (update stages i (follow o a (stages i)))
      ({ st with world := w }.setCall i (.busy req (k a))) := by
  obtain ⟨_, hkeeps, hfits⟩ := h.call hbusy
  refine h.set (fun req' p hp => ?_) nofun
  cases hp
  exact ⟨hkeeps a, follow_fits hfits o a⟩

theorem Tracked.finish (h : Tracked stages st) {r : Except TunnelError ConnectionSnapshot} :
    Tracked (update stages i .stored) (st.setCall i (.returned req r)) :=
  h.set (fun _ _ hp => by cases hp) fun _ => rfl

namespace Sound

/-- Call `i` moves on. What is asked for concerns this call and the session that changes its
keeper. -/
theorem set (h : Sound custody stages st)
    (htracked : Tracked (update stages i stage) ({ st with world := w }.setCall i ph))
    (hkept : Kept custody' (Function.update stages i stage) w)
    (hcustody : ∀ k, k ≠ i → custody k = .nobody → custody' k = .nobody)
    (hunborn : Unborn ph stage → custody' i = .nobody)
    (hlanded : Landed ph stage → Placed ({ st with world := w }.setCall i ph) i)
    (hplaced : ∀ k, Placed st k → Placed ({ st with world := w }.setCall i ph) k) :
    Sound custody' (Function.update stages i stage) ({ st with world := w }.setCall i ph) where
  toTracked := htracked
  kept := hkept
  unborn k hk := by
    by_cases hki : k = i
    · subst hki
      simp only [State.setCall, update_self] at hk
      exact hunborn hk
    · simp only [State.setCall, update_of_ne hki] at hk
      exact hcustody k hki (h.unborn k hk)
  landed k hk := by
    by_cases hki : k = i
    · subst hki
      simp only [State.setCall, update_self] at hk
      exact hlanded hk
    · simp only [State.setCall, update_of_ne hki] at hk
      exact hplaced k (h.landed k hk)

/-- One access of call `i`. -/
theorem advance (h : Sound custody stages st) (hbusy : st.calls i = .busy req (.call o k))
    (a : Ans o) (hkept : Kept custody' (Function.update stages i (follow o a (stages i))) w)
    (hcustody : ∀ k, k ≠ i → custody k = .nobody → custody' k = .nobody)
    (hunborn : follow o a (stages i) = .checking → custody' i = .nobody)
    (hlanded : follow o a (stages i) = .stored → ∃ s, w.active = some s ∧ s.id = i)
    (hplaced : ∀ j, Placed st j → Placed ({ st with world := w }.setCall i (.busy req (k a))) j) :
    Sound custody' (Function.update stages i (follow o a (stages i)))
      ({ st with world := w }.setCall i (.busy req (k a))) := by
  refine h.set (h.work hbusy a) hkept hcustody (fun hun => ?_) (fun hl => ?_) hplaced
  · cases req with
    | connect profile => exact hunborn hun
    | disconnect => exact hun.elim
  · cases req with
    | connect profile => exact .inl (hlanded hl)
    | disconnect => exact hl.elim

end Sound

end Steps

/-- A call starts and stops parts of the session that it looks after. -/
theorem held_of_effect {me j : ι} {o : Op ι} {a : Ans o} {stage : Stage ι} {f : Live → Live}
    (hallowed : allowed me o stage) (he : liveEffect o a = some (j, f)) :
    ∃ c c', stage.held me = some (j, c) ∧
      (stage.touch (some (j, f))).held me = some (j, c') ∧ c'.live = f c.live := by
  obtain ⟨live, ready, rfl, rfl⟩ | ⟨live, cleared, rfl⟩ :=
    session_of_allowed hallowed (liveEffect_session he)
  · exact ⟨_, _, rfl, rfl, rfl⟩
  · exact ⟨_, _, rfl, rfl, rfl⟩

section Access
variable {custody : ι → Custody ι} {stages : ι → Stage ι} {st : State ι} {i : ι} {req : Request}
  {s : ActiveSession ι} {stage : Stage ι} {me : ι}

/-- Only a `connect` past its guard stores a session. -/
theorem stage_of_store (hallowed : allowed me (.store s) stage) :
    ∃ live ready, stage = .opening live ready := by
  cases stage with
  | opening live ready => exact ⟨live, ready, rfl⟩
  | checking => cases hallowed
  | releasing held cleared => cases cleared <;> exact hallowed.elim
  | _ => exact hallowed.elim

/-- Only a `disconnect` that has not done so empties the slot. -/
theorem stage_of_take (hallowed : allowed me .take stage) : stage = .closing := by
  cases stage with
  | closing => rfl
  | checking => cases hallowed
  | releasing held cleared => cases cleared <;> exact hallowed.elim
  | _ => exact hallowed.elim

/-- Only a `connect` that has not passed its guard looks at the slot. -/
theorem stage_of_inspect (hallowed : allowed me .inspect stage) : stage = .checking := by
  cases stage with
  | checking => rfl
  | releasing held cleared => cases cleared <;> exact hallowed.elim
  | _ => exact hallowed.elim

variable [DecidableEq ι] {o : Op ι}

/-- An access after which the call looks after the same session as before. -/
theorem Sound.quiet (h : Sound custody stages st)
    {k : Ans o → TunnelM ι (Except TunnelError ConnectionSnapshot)}
    (hbusy : st.calls i = .busy req (.call o k)) {a : Ans o} {w : World ι}
    (hlive : w.live = st.world.live) (hactive : w.active = st.world.active)
    (htaken : w.takenBy = st.world.takenBy)
    (hheld : (follow o a (stages i)).held i = (stages i).held i)
    (hchecking : follow o a (stages i) = .checking → stages i = .checking)
    (hstored : follow o a (stages i) ≠ .stored) :
    Sound custody (update stages i (follow o a (stages i)))
      ({ st with world := w }.setCall i (.busy req (k a))) := by
  obtain ⟨_, _, hfits⟩ := h.call hbusy
  refine h.advance hbusy a ((h.kept.congr hlive hactive).same hheld) (fun _ _ hk => hk)
    (fun hc => ?_) (fun hs => absurd hs hstored) fun j hj => hj.update hactive htaken fun hd => ?_
  · refine h.unborn i ?_
    rw [hbusy]
    cases req with
    | connect profile => exact hchecking hc
    | disconnect =>
      rw [hchecking hc] at hfits
      exact hfits.elim
  · rw [hbusy] at hd
    cases req <;> exact hd

/-- An access other than to the slot and the snapshot. -/
theorem Sound.plain (h : Sound custody stages st) (ho : o.plain)
    {k : Ans o → TunnelM ι (Except TunnelError ConnectionSnapshot)}
    (hbusy : st.calls i = .busy req (.call o k)) (a : Ans o) :
    ∃ custody', Sound custody' (update stages i (follow o a (stages i)))
      ({ st with world := effect i st.world o a }.setCall i (.busy req (k a))) := by
  obtain ⟨hallowed, _, _⟩ := h.call hbusy
  obtain ⟨hactive, htaken, hlive, -⟩ := effect_plain i st.world ho a
  have hstage := follow_plain ho a (stages i)
  cases he : liveEffect o a with
  | none =>
    have hsame : follow o a (stages i) = stages i := by
      rw [hstage, he]
      cases stages i <;> rfl
    rw [he] at hlive
    refine ⟨custody, h.quiet hbusy hlive hactive htaken (by rw [hsame]) (fun hc => hsame ▸ hc) ?_⟩
    rw [hsame]
    intro hstored
    rw [hstored] at hallowed
    exact hallowed.elim
  | some e =>
    obtain ⟨j, f⟩ := e
    obtain ⟨c, c', hheld, hheld', hc⟩ := held_of_effect hallowed he
    rw [he] at hlive hstage
    rw [← hstage] at hheld'
    have hlive' : (effect i st.world o a).live = update st.world.live j c'.live := by
      rw [hlive, hc, ← h.kept.held i j c hheld, ← h.kept.live j]
      rfl
    refine ⟨update custody j c', h.advance hbusy a (h.kept.touch hheld hheld' hlive' hactive)
      (fun k _ hk => ?_) (fun hchecking => ?_) (fun hstored => ?_)
      fun j hj => hj.update hactive htaken fun hd => ?_⟩
    · rw [update_of_ne]
      · exact hk
      · rintro rfl
        exact h.kept.not_held (.inl hk) hheld
    · rw [hchecking] at hheld'
      cases hheld'
    · rw [hstored] at hheld'
      cases hheld'
    · rw [hbusy] at hd
      cases req <;> exact hd

theorem Sound.write (h : Sound custody stages st) {snap : ConnectionSnapshot}
    {k : Unit → TunnelM ι (Except TunnelError ConnectionSnapshot)}
    (hbusy : st.calls i = .busy req (.call (.writeSnapshot snap) k)) :
    Sound custody (update stages i (follow (.writeSnapshot snap) () (stages i)))
      ({ st with world := { st.world with snapshot := snap } }.setCall i (.busy req (k ()))) := by
  obtain ⟨hallowed, _, _⟩ := h.call hbusy
  refine h.quiet hbusy rfl rfl rfl ?_ ?_ ?_
  all_goals
    cases hs : stages i with
    | checking =>
      rw [hs] at hallowed
      cases hallowed
    | stored =>
      rw [hs] at hallowed
      exact hallowed.elim
    | opening live ready => first | rfl | nofun
    | closing => first | rfl | nofun
    | releasing held cleared =>
      cases held <;> first | rfl | nofun

/-- A `connect` passes its guard. -/
theorem Sound.pass (h : Sound custody stages st)
    {k : Bool → TunnelM ι (Except TunnelError ConnectionSnapshot)}
    (hbusy : st.calls i = .busy req (.call .inspect k)) (hstage : stages i = .checking)
    (hactive : st.world.active = none) :
    Sound (update custody i (.opener .off)) (update stages i (follow .inspect false (stages i)))
      (st.setCall i (.busy req (k false))) := by
  obtain ⟨_, _, hfits⟩ := h.call hbusy
  have hnext : follow .inspect false (stages i) = .opening .off false := by rw [hstage]; rfl
  rw [hstage] at hfits
  have hreq : ∃ profile, req = .connect profile := by
    cases req with
    | connect profile => exact ⟨profile, rfl⟩
    | disconnect => exact hfits.elim
  obtain ⟨profile, rfl⟩ := hreq
  have hfree : custody i = .nobody := by
    refine h.unborn i ?_
    rw [hbusy, hstage]
    rfl
  refine h.advance hbusy false (h.kept.acquire (.inl hfree) ?_ (by rw [hnext]; rfl) ?_ ?_)
    (fun k hk hnobody => ?_) (by rw [hnext]; nofun) (by rw [hnext]; nofun)
    fun j hj => hj.update rfl rfl fun hd => ?_
  · rw [hstage]
    rfl
  · have hoff := h.kept.live i
    rw [hfree] at hoff
    exact (update_eq_self_iff.2 hoff.symm).symm
  · intro s
    simp [hactive]
  · rw [update_of_ne hk]
    exact hnobody
  · rw [hbusy] at hd
    exact hd.elim

/-- A `connect` stores its session. -/
theorem Sound.store (h : Sound custody stages st)
    {k : Unit → TunnelM ι (Except TunnelError ConnectionSnapshot)}
    (hbusy : st.calls i = .busy req (.call (.store s) k)) (hempty : st.world.active = none) :
    Sound (update custody i (.slot s)) (update stages i (follow (.store s) () (stages i)))
      ({ st with world := { st.world with active := some s } }.setCall i (.busy req (k ()))) := by
  obtain ⟨hallowed, _, hfits⟩ := h.call hbusy
  obtain ⟨live, ready, hstage⟩ := stage_of_store hallowed
  rw [hstage] at hallowed hfits
  obtain ⟨rfl, rfl, rfl⟩ := hallowed
  have hheld : (stages s.id).held s.id = some (s.id, .opener s.live) := by
    rw [hstage]
    rfl
  have hnext : follow (.store s) () (stages s.id) = .stored := by rw [hstage]; rfl
  refine h.advance hbusy () (h.kept.hand hheld (by rw [hnext]; rfl) ?_ (.inr ⟨s, rfl⟩) (fun s' => ?_)
    fun s' hs' => ?_) (fun k hk hnobody => ?_) (by rw [hnext]; nofun) (fun _ => ⟨s, rfl, rfl⟩)
    fun j hj => ?_
  · have hlive := h.kept.live s.id
    rw [h.kept.held _ _ _ hheld] at hlive
    exact (update_eq_self_iff.2 hlive.symm).symm
  · simp only [Custody.slot.injEq, Option.some.injEq]
    constructor
    · rintro rfl
      exact ⟨rfl, rfl⟩
    · exact And.left
  · rw [hempty]
    constructor
    · intro hs
      exact absurd (congrArg ActiveSession.id (Option.some.inj hs)).symm hs'
    · nofun
  · rw [update_of_ne hk]
    exact hnobody
  · rcases hj with ⟨s', hs', _⟩ | ⟨d, hd, hdis⟩
    · rw [hempty] at hs'
      cases hs'
    · refine .inr ⟨d, hd, ?_⟩
      have hne : d ≠ s.id := by
        rintro rfl
        rw [hbusy] at hdis
        cases req with
        | connect profile => exact hdis.elim
        | disconnect => exact hfits.elim
      simp only [State.setCall, update_of_ne hne]
      exact hdis

/-- A `disconnect` empties the slot. -/
theorem Sound.take (h : Sound custody stages st)
    {k : Option (ActiveSession ι) → TunnelM ι (Except TunnelError ConnectionSnapshot)}
    (hbusy : st.calls i = .busy req (.call .take k)) (hstage : stages i = .closing)
    (hactive : st.world.active = some s) :
    Sound (update custody s.id (.closer i s.live))
      (update stages i (follow .take (some s) (stages i)))
      ({ st with world := st.world.takeActive i }.setCall i (.busy req (k (some s)))) := by
  obtain ⟨_, _, hfits⟩ := h.call hbusy
  have hnext : follow .take (some s) (stages i) = .releasing (some (s.id, s.live)) false := by
    rw [hstage]
    rfl
  rw [hstage] at hfits
  have hreq : req = .disconnect := by
    cases req with
    | connect profile => exact hfits.elim
    | disconnect => rfl
  subst hreq
  have hslot : custody s.id = .slot s := (h.kept.slot s.id s).2 ⟨hactive, rfl⟩
  have hempty : (st.world.takeActive i).active = none := by
    rw [World.takeActive, hactive]
  have htaken : (st.world.takeActive i).takenBy = update st.world.takenBy s.id (some i) := by
    rw [World.takeActive, hactive]
  refine h.advance hbusy (some s) (h.kept.acquire (.inr ⟨s, hslot⟩) ?_ (by rw [hnext]; rfl) ?_ ?_)
    (fun k _ hnobody => ?_) (by rw [hnext]; nofun) (by rw [hnext]; nofun) fun j hj => ?_
  · rw [hstage]
    rfl
  · have hlive := h.kept.live s.id
    rw [hslot] at hlive
    rw [World.takeActive, hactive]
    exact (update_eq_self_iff.2 hlive.symm).symm
  · intro s'
    rw [hempty, hactive]
    constructor
    · nofun
    · rintro ⟨hs, hne⟩
      obtain rfl := Option.some.inj hs
      exact absurd rfl hne
  · rw [update_of_ne]
    · exact hnobody
    · rintro rfl
      rw [hslot] at hnobody
      cases hnobody
  · by_cases hjs : j = s.id
    · refine .inr ⟨i, ?_, ?_⟩
      · rw [hjs]
        exact (congrFun htaken s.id).trans (update_self _ _ _)
      · simp only [State.setCall, update_self]
        trivial
    · rcases hj with ⟨s', hs', hid⟩ | ⟨d, hd, hdis⟩
      · rw [hactive] at hs'
        obtain rfl := Option.some.inj hs'
        exact absurd hid.symm hjs
      · refine .inr ⟨d, ?_, ?_⟩
        · exact (congrFun htaken j).trans ((update_of_ne hjs _ _).trans hd)
        · by_cases hdi : d = i
          · subst hdi
            simp only [State.setCall, update_self]
            trivial
          · simp only [State.setCall, update_of_ne hdi]
            exact hdis

theorem Sound.inspect (h : Sound custody stages st)
    {k : Bool → TunnelM ι (Except TunnelError ConnectionSnapshot)}
    (hbusy : st.calls i = .busy req (.call .inspect k)) :
    ∃ custody', Sound custody' (update stages i (follow .inspect st.world.active.isSome (stages i)))
      (st.setCall i (.busy req (k st.world.active.isSome))) := by
  obtain ⟨hallowed, _, _⟩ := h.call hbusy
  have hstage := stage_of_inspect hallowed
  cases hactive : st.world.active with
  | none => exact ⟨_, h.pass hbusy hstage hactive⟩
  | some s =>
    have hsame : follow .inspect true (stages i) = stages i := by
      rw [hstage]
      rfl
    have hne : follow .inspect true (stages i) ≠ .stored := by
      rw [hstage]
      nofun
    exact ⟨_, h.quiet hbusy rfl rfl rfl (congrArg (Stage.held i) hsame) (fun _ => hstage) hne⟩

theorem Sound.takeAny (h : Sound custody stages st)
    {k : Option (ActiveSession ι) → TunnelM ι (Except TunnelError ConnectionSnapshot)}
    (hbusy : st.calls i = .busy req (.call .take k)) :
    ∃ custody', Sound custody' (update stages i (follow .take st.world.active (stages i)))
      ({ st with world := st.world.takeActive i }.setCall i (.busy req (k st.world.active))) := by
  obtain ⟨hallowed, _, _⟩ := h.call hbusy
  have hstage := stage_of_take hallowed
  cases hactive : st.world.active with
  | none =>
    have hsame : st.world.takeActive i = st.world := by
      rw [World.takeActive, hactive]
    rw [hsame]
    refine ⟨_, h.quiet hbusy rfl rfl rfl ?_ ?_ ?_⟩ <;> rw [hstage] <;> first | rfl | nofun
  | some s => exact ⟨_, h.take hbusy hstage hactive⟩

/-- Every access of a call, whatever it is answered. -/
theorem Sound.access (h : Sound custody stages st)
    {k : Ans o → TunnelM ι (Except TunnelError ConnectionSnapshot)}
    (hbusy : st.calls i = .busy req (.call o k)) (env : Env ι)
    (hexcl : Exclusive st (.step i env)) :
    ∃ custody',
      Sound custody' (update stages i (follow o (answer st.world env o) (stages i)))
        ({ st with world := effect i st.world o (answer st.world env o) }.setCall i
          (.busy req (k (answer st.world env o)))) := by
  by_cases hplain : o.plain
  · exact h.plain hplain hbusy (answer st.world env o)
  · cases o with
    | inspect => exact h.inspect hbusy
    | take => exact h.takeAny hbusy
    | store s => exact ⟨_, h.store hbusy (hexcl (by rw [hbusy]; rfl))⟩
    | writeSnapshot snap => exact ⟨_, h.write hbusy⟩
    | _ => exact absurd trivial hplain

/-- A call returns, with nothing left in its care. -/
theorem Sound.retire (h : Sound custody stages st) {custody' : ι → Custody ι}
    {p : TunnelM ι (Except TunnelError ConnectionSnapshot)}
    {r : Except TunnelError ConnectionSnapshot} (hbusy : st.calls i = .busy req p)
    (hkept : Kept custody' (update stages i .stored) st.world)
    (hcustody : ∀ k, custody k = .nobody → custody' k = .nobody)
    (hlanded : Landed (.returned req r) (.stored : Stage ι) → Placed st i)
    (hdis : req = .disconnect → ∃ snap, r = .ok snap) :
    Sound custody' (update stages i .stored) (st.setCall i (.returned req r)) := by
  have hmove (j : ι) (hj : Placed st j) : Placed (st.setCall i (.returned req r)) j := by
    refine hj.update rfl rfl fun hd => ?_
    rw [hbusy] at hd
    cases req with
    | connect profile => exact hd.elim
    | disconnect =>
      obtain ⟨snap, rfl⟩ := hdis rfl
      trivial
  exact h.set h.toTracked.finish hkept (fun k _ => hcustody k) (fun hun => hun.elim)
    (fun hl => hmove i (hlanded hl)) hmove

/-- A call returns with a session in its care of which nothing is running. -/
theorem Sound.retire_held (h : Sound custody stages st) {j : ι} {c : Custody ι}
    {p : TunnelM ι (Except TunnelError ConnectionSnapshot)}
    {r : Except TunnelError ConnectionSnapshot} (hbusy : st.calls i = .busy req p)
    (hheld : (stages i).held i = some (j, c)) (hoff : c.live = .off)
    (hlanded : ¬ Landed (.returned req r) (.stored : Stage ι))
    (hdis : req = .disconnect → ∃ snap, r = .ok snap) :
    ∃ custody', Sound custody' (update stages i .stored) (st.setCall i (.returned req r)) := by
  refine ⟨update custody j .nobody, h.retire hbusy (h.kept.hand hheld rfl ?_ (.inl rfl)
    (fun s => ?_) fun _ _ => Iff.rfl) (fun k hk => ?_) (fun hl => absurd hl hlanded) hdis⟩
  · have hlive := h.kept.live j
    rw [h.kept.held i j c hheld, hoff] at hlive
    exact (update_eq_self_iff.2 hlive.symm).symm
  · rw [← h.kept.slot]
    constructor
    · nofun
    · exact fun hs => absurd hheld (h.kept.not_held (.inr ⟨s, hs⟩))
  · by_cases hkj : k = j
    · rw [hkj, update_self]
    · rw [update_of_ne hkj]
      exact hk

theorem Sound.finish (h : Sound custody stages st) {r : Except TunnelError ConnectionSnapshot}
    (hbusy : st.calls i = .busy req (.ret r)) :
    ∃ custody', Sound custody' (update stages i .stored) (st.setCall i (.returned req r)) := by
  obtain ⟨hended, hfits⟩ := h.keeps i req _ hbusy
  have hfree (hheld : (stages i).held i = none)
      (hlanded : Landed (.returned req r) (.stored : Stage ι) → Placed st i)
      (hdis : req = .disconnect → ∃ snap, r = .ok snap) :
      ∃ custody', Sound custody' (update stages i .stored) (st.setCall i (.returned req r)) :=
    ⟨custody, h.retire hbusy (h.kept.same hheld.symm) (fun _ hk => hk) hlanded hdis⟩
  cases req with
  | connect profile =>
    cases r with
    | ok snap =>
      have hstage : stages i = .stored := hended
      refine hfree (by rw [hstage]; rfl) (fun _ => h.landed i ?_) nofun
      rw [hbusy, hstage]
      rfl
    | error e =>
      rcases hended with hstage | hstage
      · exact hfree (by rw [hstage]; rfl) (fun hl => hl.elim) nofun
      · have hheld : (stages i).held i = some (i, .opener .off) := by
          rw [hstage]
          rfl
        exact h.retire_held hbusy hheld rfl id nofun
  | disconnect =>
    obtain ⟨rfl, held, hstage, hoff⟩ := hended
    cases held with
    | none => exact hfree (by rw [hstage]; rfl) (fun hl => hl.elim) fun _ => ⟨_, rfl⟩
    | some p =>
      obtain ⟨j, live⟩ := p
      have hheld : (stages i).held i = some (j, .closer i live) := by
        rw [hstage]
        rfl
      exact h.retire_held hbusy hheld (hoff j live rfl) id fun _ => ⟨_, rfl⟩

/-- A call begins. -/
theorem Sound.begin [Texts] (h : Sound custody stages st) (hidle : st.calls i = .idle) :
    Sound custody (update stages i (start req))
      (st.setCall i (.busy req (program i req))) := by
  have hstage : stages i = .stored := h.rest i (by rw [hidle]; rfl)
  have hnobody : custody i = .nobody := h.unborn i (by rw [hidle]; trivial)
  refine h.set h.toTracked.begin (h.kept.same ?_) (fun _ _ hk => hk) (fun _ => hnobody)
    (fun hl => ?_) fun j hj => hj.update rfl rfl fun hd => ?_
  · rw [hstage]
    cases req <;> rfl
  · cases req with
    | connect profile => cases hl
    | disconnect => exact hl.elim
  · rw [hidle] at hd
    exact hd.elim

omit [DecidableEq ι] in
theorem Sound.poll (h : Sound custody stages st) {w : World ι} (hlive : w.live = st.world.live)
    (hactive : w.active = st.world.active) (htaken : w.takenBy = st.world.takenBy) :
    Sound custody stages { st with world := w } where
  keeps := h.keeps
  rest := h.rest
  kept := h.kept.congr hlive hactive
  unborn := h.unborn
  landed i hi := by
    rcases h.landed i hi with ⟨s, hs, hid⟩ | ⟨d, hd, hdis⟩
    · exact .inl ⟨s, hactive.trans hs, hid⟩
    · exact .inr ⟨d, (congrFun htaken i).trans hd, hdis⟩

/-- Every step keeps it. -/
theorem sound_step [Texts] {st' : State ι} {e : Event ι}
    (h : ∃ custody stages, Sound custody stages st) (hexcl : Exclusive st e)
    (hstep : step st e = some st') :
    ∃ custody stages, Sound custody stages st' := by
  obtain ⟨custody, stages, h⟩ := h
  cases step_moves hstep with
  | call hidle => exact ⟨_, _, h.begin hidle⟩
  | work hbusy =>
    obtain ⟨custody', h'⟩ := h.access hbusy _ hexcl
    exact ⟨custody', _, h'⟩
  | finish hret =>
    obtain ⟨custody', h'⟩ := h.finish hret
    exact ⟨custody', _, h'⟩
  | wake _ => exact ⟨_, _, h.poll rfl rfl rfl⟩
  | pollRead _ =>
    obtain ⟨w, hw, hlive, hactive, htaken⟩ := State.pollRead_world st _ _ _
    rw [hw]
    exact ⟨_, _, h.poll hlive hactive htaken⟩
  | pollWrite _ => exact ⟨_, _, h.poll rfl rfl rfl⟩

theorem sound_run [Texts] {es : List (Event ι)} (hexcl : Meets step Exclusive State.initial es)
    (hrun : run step State.initial es = some st) : ∃ custody stages, Sound custody stages st :=
  run_invariant (I := fun st => ∃ custody stages, Sound custody stages st)
    (fun _ _ _ h hok hstep => sound_step h hok hstep) ⟨_, _, sound_initial⟩ hexcl hrun

end Access

end EasyConnection.Tunnel
