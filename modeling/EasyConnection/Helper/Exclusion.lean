import EasyConnection.Helper.Contracts
import EasyConnection.Helper.Server

/-! # At most one session

`applySpec` looks for a session first and records its own last. In between, nothing keeps a
second `Apply` from finding no session either. As long as that does not happen, one `Apply`
succeeds and every other one leaves its session alone.
-/
namespace EasyConnection.Helper
open Async

variable {ι : Type}

section Build
variable {me : ι} {w : World ι}

/-- What an `Apply` leaves that began without a session. -/
def BuildPost (me : ι) (d : Done) (w : World ι) : Prop :=
  match d.fd with
  | some fd => Up me fd w
  | none => w.session = none

theorem build_ensures (spec : ApplySpec) (hnone : w.session = none) :
    (build spec).Ensures (exec me) anyChoice (BuildPost me) w := by
  refine (Prog.ensures_bind _ _).2 ((buildSession_ensures spec).mono fun r w' hr => ?_)
  cases r with
  | ok p => exact hr
  | error e => exact hr.trans hnone

theorem only_build (spec : ApplySpec) : (build spec).Only Op.Acts := by
  refine Prog.Only.bind ?_ fun _ => trivial
  refine (only_cleanupStale.mono fun _ h => h.acts).bind fun _ => ?_
  refine (only_createNamedTun trivial _).bind fun r => ?_
  cases r with
  | error e => trivial
  | ok fd =>
    refine (only_bringUp spec).bind fun r => ?_
    cases r with
    | error e => exact (Prog.only_perform trivial).bind fun _ => trivial
    | ok msg => trivial

end Build

/-- The task waits for its client, or for the answer whether there is a session. -/
def Phase.Waits : Phase → Prop
  | .busy req p => ∃ spec, req = .apply spec ∧ p = .call .sessionActive (checked spec)
  | .leaving _ => False
  | _ => True

theorem waits_of_inactive {ph : Phase} (h : ph.active = false) : ph.Waits := by
  cases ph with
  | busy req p => cases h
  | leaving p => cases h
  | _ => trivial

/-- The task of `b` is building a session and, left alone, ends in `post`. -/
def Builds (ok : Op → Option Failure → World ι → Prop) (post : Done → World ι → Prop) (st : State ι)
    (b : ι) : Prop :=
  ∃ spec o k, (st.conns b).phase = .busy (.apply spec) (.call o k) ∧
    (Prog.call o k).Only Op.Acts ∧ (Prog.call o k).Ensures (exec b) ok post st.world

/-- The `Apply` requests that have returned a device. -/
def granted (st : State ι) : List (Returned ι) := st.returned.filter (·.fd.isSome)

/-- One `Apply` has succeeded, and everything it made is in place. -/
def Held (st : State ι) : Prop :=
  ∃ r fd, granted st = [r] ∧ r.fd = some fd ∧ Up r.conn fd st.world ∧ r.table = st.world.table

/-- No task is building; there is no session, or it is held. -/
def Rests (st : State ι) : Prop :=
  (∀ d, (st.conns d).phase.Waits) ∧ ((granted st = [] ∧ st.world.session = none) ∨ Held st)

/-- One task is building, and all others wait. -/
def Works (st : State ι) : Prop :=
  ∃ b, (∀ d, d ≠ b → (st.conns d).phase.Waits) ∧ Builds anyChoice (BuildPost b) st b ∧
    granted st = []

section Builds
variable {ok : Op → Option Failure → World ι → Prop} {post : Done → World ι → Prop}
variable {st : State ι} {b : ι}

theorem Builds.building (h : Builds ok post st b) : (st.conns b).phase.building = true := by
  obtain ⟨spec, o, k, hphase, honly, _⟩ := h
  rw [hphase]
  cases o with
  | sessionActive => exact absurd honly.1 id
  | _ => rfl

theorem Builds.not_waits (h : Builds ok post st b) : ¬ (st.conns b).phase.Waits := by
  obtain ⟨spec, o, k, hphase, honly, _⟩ := h
  rw [hphase]
  rintro ⟨spec', _, hp⟩
  rw [hp] at honly
  exact honly.1

end Builds

/-- At most one `Apply` has returned `Ok`, and its device, table and record are in place. -/
def Exclusive (st : State ι) : Prop :=
  (granted st).length ≤ 1 ∧ ∀ r ∈ granted st,
    st.world.session = some ⟨[], r.conn⟩ ∧ st.world.tun = r.fd ∧ st.world.table = r.table ∧
      r.table.isSome = true

theorem Works.exclusive {st : State ι} (h : Works st) : Exclusive st := by
  obtain ⟨_, _, _, hgranted⟩ := h
  simp [Exclusive, hgranted]

theorem Rests.exclusive {st : State ι} (h : Rests st) : Exclusive st := by
  rcases h.2 with ⟨hgranted, _⟩ | ⟨r, fd, hgranted, hfd, hup, htable⟩
  · simp [Exclusive, hgranted]
  · simp [Exclusive, hgranted, hfd, hup.session, hup.tun, htable, hup.table]

/-- Only `Apply` and `Ping` are requested, and no client leaves whose `Apply` succeeded, or closes
what it was passed. -/
def ApplyOnly (st : State ι) : Event ι → Prop
  | .request _ req => match req with
    | .apply _ => True
    | .ping _ => True
    | _ => False
  | .disconnect c => (st.conns c).owns = false
  | .close _ _ => False
  | _ => True

/-- No `Apply` finds no session while another one is building. -/
def NoOverlap (st : State ι) : Event ι → Prop
  | .step c _ => (st.conns c).phase.checking = true → st.world.session = none →
      ∀ d, (st.conns d).phase.building = false
  | _ => True

variable [DecidableEq ι]

instance (st : State ι) : (e : Event ι) → Decidable (ApplyOnly st e)
  | .request _ (.apply _) => inferInstanceAs (Decidable True)
  | .request _ (.ping _) => inferInstanceAs (Decidable True)
  | .request _ .teardown => inferInstanceAs (Decidable False)
  | .request _ .cleanup => inferInstanceAs (Decidable False)
  | .request _ .emergencyRestore => inferInstanceAs (Decidable False)
  | .disconnect _ => inferInstanceAs (Decidable (_ = _))
  | .close _ _ => inferInstanceAs (Decidable False)
  | .step _ _ => inferInstanceAs (Decidable True)
  | .reply _ => inferInstanceAs (Decidable True)

instance [Fintype ι] (st : State ι) : (e : Event ι) → Decidable (NoOverlap st e)
  | .step _ _ => inferInstanceAs (Decidable (_ → _ → ∀ _, _))
  | .request _ _ => inferInstanceAs (Decidable True)
  | .disconnect _ => inferInstanceAs (Decidable True)
  | .close _ _ => inferInstanceAs (Decidable True)
  | .reply _ => inferInstanceAs (Decidable True)

variable {req : HelperRequest} {spec : ApplySpec}

section Tasks
variable {ok : Op → Option Failure → World ι → Prop} {post : Done → World ι → Prop}
variable {st : State ι} {b c : ι}

theorem waits_update_iff {conn : Conn} (hold : (st.conns c).phase.Waits)
    (hnew : conn.phase.Waits) (d : ι) :
    (Function.update st.conns c conn d).phase.Waits ↔ (st.conns d).phase.Waits := by
  by_cases hdc : d = c
  · subst hdc
    simp [hnew, hold]
  · rw [Function.update_of_ne hdc]

/-- The builder does not notice what a waiting task does. -/
theorem Builds.update (hb : Builds ok post st b) (hold : (st.conns c).phase.Waits) (conn : Conn)
    (returned : List (Returned ι)) :
    Builds ok post ⟨st.world, Function.update st.conns c conn, returned⟩ b := by
  have hbc : b ≠ c := by
    rintro rfl
    exact hb.not_waits hold
  simp only [Builds, Function.update_of_ne hbc]
  exact hb

theorem waits_work_of_ne {p : HelperM Done} (hothers : ∀ d, d ≠ c → (st.conns d).phase.Waits)
    {d : ι} (hd : d ≠ c) : ((st.work c req p).conns d).phase.Waits := by
  rw [work_of_ne _ _ hd]
  exact hothers d hd

theorem builds_work {o : Op} {k : Ans o → HelperM Done} (honly : (Prog.call o k).Only Op.Acts)
    (hp : (Prog.call o k).Ensures (exec c) ok post st.world) :
    Builds ok post (st.work c (.apply spec) (.call o k)) c :=
  ⟨spec, o, k, work_call_phase st c _ _ _, honly, hp⟩

end Tasks

section Step
variable {st : State ι} {c : ι}

/-- A waiting task goes on to another waiting phase; nothing else changes. -/
theorem waits_update (conn : Conn) {returned : List (Returned ι)}
    (h : Works st ∨ Rests st) (hold : (st.conns c).phase.Waits) (hnew : conn.phase.Waits)
    (hret : returned.filter (·.fd.isSome) = granted st) :
    Works ⟨st.world, Function.update st.conns c conn, returned⟩ ∨
      Rests ⟨st.world, Function.update st.conns c conn, returned⟩ := by
  have hwaits := waits_update_iff hold hnew
  rcases h with ⟨b, hothers, hb, hgranted⟩ | ⟨hall, hrest⟩
  · exact .inl ⟨b, fun d hd => (hwaits d).2 (hothers d hd), hb.update hold conn returned,
      hret.trans hgranted⟩
  · refine .inr ⟨fun d => (hwaits d).2 (hall d), ?_⟩
    simp only [Held, granted, hret] at hrest ⊢
    exact hrest

theorem waits_setPhase {ph : Phase} (h : Works st ∨ Rests st) (hold : (st.conns c).phase.Waits)
    (hnew : ph.Waits) : Works (st.setPhase c ph) ∨ Rests (st.setPhase c ph) :=
  waits_update ⟨_, ph⟩ h hold hnew rfl

/-- A waiting task that has no device to return. -/
theorem waits_ret {d : Done} (h : Works st ∨ Rests st) (hold : (st.conns c).phase.Waits)
    (hfd : d.fd = none) : Works (st.work c req (.ret d)) ∨ Rests (st.work c req (.ret d)) := by
  refine waits_update ⟨_, .replying d⟩ h hold trivial ?_
  cases req <;> simp [State.logApply, granted, hfd]

theorem request_step (uid : UInt32) (h : Works st ∨ Rests st) (hold : (st.conns c).phase.Waits)
    (hreq : ApplyOnly st (.request c req)) :
    Works (st.work c req (handle uid req)) ∨ Rests (st.work c req (handle uid req)) := by
  cases req with
  | ping version =>
    simp only [handle]
    split_ifs <;> exact waits_ret h hold rfl
  | apply spec =>
    rcases handle_apply uid spec with ⟨e, he⟩ | hcheck
    · rw [he]
      exact waits_ret h hold rfl
    · rw [hcheck]
      exact waits_setPhase h hold ⟨spec, rfl, rfl⟩
  | _ => exact absurd hreq id

/-- The answer to the question for a session. -/
theorem check_step (h : Works st ∨ Rests st) (hold : (st.conns c).phase.Waits)
    (hno : st.world.session = none → ∀ d, (st.conns d).phase.building = false) :
    Works (st.work c (.apply spec) (checked spec st.world.session.isSome)) ∨
      Rests (st.work c (.apply spec) (checked spec st.world.session.isSome)) := by
  cases hs : st.world.session with
  | some s => exact waits_ret h hold rfl
  | none =>
    left
    rcases h with ⟨b, _, hb, _⟩ | ⟨hall, hrest⟩
    · have hbuilding := hno hs b
      rw [hb.building] at hbuilding
      cases hbuilding
    · have hgranted : granted st = [] := by
        rcases hrest with hfree | ⟨r, fd, _, _, hup, _⟩
        · exact hfree.1
        · rw [hup.session] at hs
          cases hs
      exact ⟨c, fun d hd => waits_work_of_ne (fun d _ => hall d) hd,
        builds_work (only_build spec) (build_ensures spec hs), hgranted⟩

/-- A call of the building task, or its return. -/
theorem build_step {p : HelperM Done} (hothers : ∀ d, d ≠ c → (st.conns d).phase.Waits)
    (hgranted : granted st = []) (honly : p.Only Op.Acts)
    (hp : p.Ensures (exec c) anyChoice (BuildPost c) st.world) :
    Works (st.work c (.apply spec) p) ∨ Rests (st.work c (.apply spec) p) := by
  cases p with
  | call o k =>
    exact .inl ⟨c, fun d hd => waits_work_of_ne hothers hd, builds_work honly hp, hgranted⟩
  | ret d =>
    refine .inr ⟨fun x => ?_, ?_⟩
    · by_cases hx : x = c
      · subst hx
        simp [State.work, Phase.Waits]
      · exact waits_work_of_ne hothers hx
    · have hlog : granted (st.work c (.apply spec) (.ret d)) =
          if d.fd.isSome then ⟨c, d.fd, st.world.table⟩ :: granted st else granted st := by
        simp [granted, State.work, State.logApply, List.filter_cons]
      cases hfd : d.fd with
      | none =>
        simp only [Prog.ensures_ret, BuildPost, hfd] at hp
        exact .inl ⟨by simpa [hfd, hgranted] using hlog, hp⟩
      | some fd =>
        simp only [Prog.ensures_ret, BuildPost, hfd] at hp
        exact .inr ⟨⟨c, d.fd, st.world.table⟩, fd, by simpa [hfd, hgranted] using hlog, hfd, hp, rfl⟩

omit [DecidableEq ι] in
theorem builds_or_waits (h : Works st ∨ Rests st) (c : ι) :
    (Builds anyChoice (BuildPost c) st c ∧ (∀ d, d ≠ c → (st.conns d).phase.Waits) ∧
      granted st = []) ∨
      (st.conns c).phase.Waits := by
  rcases h with ⟨b, hothers, hb, hgranted⟩ | ⟨hall, _⟩
  · by_cases hcb : c = b
    · subst hcb
      exact .inl ⟨hb, hothers, hgranted⟩
    · exact .inr (hothers c hcb)
  · exact .inr (hall c)

/-- Every such step leaves at most one task building, and what is held in place. -/
theorem exclusion_step {uid : ι → UInt32} {st' : State ι} {e : Event ι} (h : Works st ∨ Rests st)
    (happly : ApplyOnly st e) (hno : NoOverlap st e) (hstep : step uid st e = some st') :
    Works st' ∨ Rests st' := by
  cases step_moves hstep with
  | @request c req hidle =>
    exact request_step (uid c) h (waits_of_inactive (by rw [hidle]; rfl)) happly
  | @work c choice req o k hbusy =>
    rcases builds_or_waits h c with ⟨⟨spec, o', k', hphase, honly, hp⟩, hothers, hgranted⟩ | hwaits
    · rw [hbusy] at hphase
      cases hphase
      exact build_step hothers hgranted (honly.2 _) (hp choice trivial)
    · have hcheck := hwaits
      rw [hbusy] at hcheck
      obtain ⟨spec, rfl, hp⟩ := hcheck
      cases hp
      exact check_step h hwaits (hno (by rw [hbusy]; rfl))
  | @leave c choice o k hleaving =>
    rcases builds_or_waits h c with ⟨⟨_, _, _, hphase, _⟩, _⟩ | hwaits
    · rw [hleaving] at hphase
      cases hphase
    · rw [hleaving] at hwaits
      exact absurd hwaits id
  | reply hreply => exact waits_setPhase h (waits_of_inactive (by rw [hreply]; rfl)) trivial
  | teardown hwait howns =>
    rw [happly] at howns
    cases howns
  | depart hwait howns => exact waits_setPhase h (waits_of_inactive hwait) trivial
  | close hpassed => exact absurd happly id

end Step

/-- In every interleaving in which no `Apply` finds no session while another one is building, at
most one succeeds and the others leave its session alone. -/
theorem one_session (uid : ι → UInt32) (w : World ι) (es : List (Event ι)) (st : State ι)
    (hok : Meets (step uid) (fun st e => ApplyOnly st e ∧ NoOverlap st e) (State.initial w) es)
    (hrun : run (step uid) (State.initial w) es = some st) : Exclusive st := by
  have hinit : Works (State.initial w) ∨ Rests (State.initial w) :=
    .inr ⟨fun _ => trivial, .inl ⟨rfl, rfl⟩⟩
  have hinv := run_invariant (fun _ _ _ h hc hs => exclusion_step h hc.1 hc.2 hs) hinit hok hrun
  rcases hinv with hworks | hrests
  · exact hworks.exclusive
  · exact hrests.exclusive

/-- A second `Apply` while the first one's session is active. -/
def secondApply : List (Event (Fin 2)) :=
  applyEvents clientA ++ [.request clientB (.apply sampleSpec), .step clientB none, .reply clientB]

theorem one_session_secondApply :
    ∃ st, run (step fun _ => 1000) (State.initial cleanWorld) secondApply = some st ∧
      st.returned.length = 2 ∧ (granted st).length = 1 ∧ Exclusive st := by
  have hok : Meets (step fun _ => 1000) (fun st e => ApplyOnly st e ∧ NoOverlap st e)
      (State.initial cleanWorld) secondApply := by decide
  have hend : (run (step fun _ => 1000) (State.initial cleanWorld) secondApply).any
      (fun st => decide (st.returned.length = 2 ∧ (granted st).length = 1)) = true := by decide
  obtain ⟨st, hrun, hst⟩ := (Option.any_eq_true _ _).1 hend
  simp only [decide_eq_true_eq] at hst
  exact ⟨st, hrun, hst.1, hst.2, one_session _ cleanWorld secondApply st hok hrun⟩

/-- Two `Apply` requests that both look for a session before either records one. -/
def overlap : List (Event (Fin 2)) :=
  [.request clientA (.apply sampleSpec), .request clientB (.apply sampleSpec),
    .step clientA none, .step clientB none] ++
    List.replicate 18 (.step clientA none) ++ List.replicate 18 (.step clientB none)

/-- Both return `Ok`. -/
theorem two_sessions :
    ¬ ∀ (uid : Fin 2 → UInt32) (w : World (Fin 2)) (es : List (Event (Fin 2))) (st : State (Fin 2)),
      Meets (step uid) ApplyOnly (State.initial w) es →
      run (step uid) (State.initial w) es = some st → Exclusive st := by
  intro h
  have happly : Meets (step fun _ => 1000) ApplyOnly (State.initial cleanWorld) overlap := by decide
  have hend : (run (step fun _ => 1000) (State.initial cleanWorld) overlap).any
      (fun st => decide ((granted st).length = 2)) = true := by decide
  obtain ⟨st, hrun, hst⟩ := (Option.any_eq_true _ _).1 hend
  simp only [decide_eq_true_eq] at hst
  have hone := (h _ cleanWorld overlap st happly hrun).1
  omega

end EasyConnection.Helper
