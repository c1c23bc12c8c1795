import EasyConnection.Helper.Contracts
import EasyConnection.Helper.Server

/-! # Who owns the session

With one request at a time, a task's flag agrees with the session record as long as no client
takes down a session that another client applied.
-/
namespace EasyConnection.Helper
open Async

variable {ι : Type}

/-- The flags are set only for the connection whose session is active. -/
def Owned (owns : ι → Bool) (session : Option (ActiveSession ι)) : Prop :=
  ∀ c, owns c = true → ∃ s, session = some s ∧ s.appliedBy = c

section Handle
variable {me : ι} {w : World ι}

/-- A successful `Apply` found no session and leaves its own; any other leaves the record. -/
theorem apply_ensures (uid : UInt32) (spec : ApplySpec) :
    (handle uid (.apply spec)).Ensures (exec me) anyChoice (fun d w' =>
      (d.owns = some true ∧ w.session = none ∧ w'.session = some ⟨[], me⟩) ∨
      (d.owns = none ∧ w'.session = w.session)) w := by
  refine (Prog.ensures_bind _ _).2 ?_
  unfold applySpec
  split
  · exact .inr ⟨rfl, rfl⟩
  · refine (Prog.ensures_bind _ _).2 fun c _ => ?_
    change Prog.Ensures _ _ _ (if w.session.isSome then _ else _) w
    split_ifs with hactive
    · exact .inr ⟨rfl, rfl⟩
    · have hnone : w.session = none := by simpa using hactive
      refine (buildSession_ensures spec).mono fun r w' hr => ?_
      cases r with
      | ok p => exact .inl ⟨rfl, hnone, hr.session⟩
      | error e => exact .inr ⟨rfl, hr⟩

theorem ping_ensures (uid : UInt32) (version : UInt32) :
    (handle uid (.ping version)).Ensures (exec me) anyChoice (fun d w' =>
      d.owns = none ∧ w'.session = w.session) w := by
  simp only [handle]
  split_ifs <;> exact ⟨rfl, rfl⟩

theorem restoreAll_ensures :
    restoreAll.Ensures (exec me) anyChoice (fun d w' =>
      d.owns = some false ∧ w'.session = none) w := by
  refine (Prog.ensures_bind _ _).2 (teardownSession_ensures.mono fun _ w₁ hw₁ => ?_)
  refine (Prog.ensures_bind _ _).2 (cleanupStale_keepsRecord.mono fun _ w₂ hw₂ => ?_)
  exact ⟨rfl, hw₂.trans hw₁⟩

theorem teardown_ensures (uid : UInt32) :
    (handle uid .teardown).Ensures (exec me) anyChoice (fun d w' =>
      d.owns = some false ∧ w'.session = none) w :=
  (Prog.ensures_bind _ _).2 (teardownSession_ensures.mono fun _ _ hw₁ => ⟨rfl, hw₁⟩)

end Handle

namespace Owned
variable {owns : ι → Bool} {s : Option (ActiveSession ι)} {c : ι}

theorem none_owns (h : Owned owns none) (d : ι) : owns d = false := by
  by_contra hd
  obtain ⟨r, hr, _⟩ := h d (by simpa using hd)
  cases hr

/-- Only the session's own connection can have its flag set. -/
theorem other_owns (h : Owned owns s) (hs : ∀ r, s = some r → r.appliedBy = c) {d : ι}
    (hd : d ≠ c) : owns d = false := by
  by_contra hown
  obtain ⟨r, hr, hrd⟩ := h d (by simpa using hown)
  exact hd (hrd ▸ hs r hr)

variable [DecidableEq ι]

theorem of_none (h : Owned owns s) (hs : ∀ r, s = some r → r.appliedBy = c) :
    Owned (Function.update owns c false) none := by
  intro d hd
  by_cases hdc : d = c
  · subst hdc
    simp at hd
  · rw [Function.update_of_ne hdc, h.other_owns hs hdc] at hd
    cases hd

theorem of_apply (h : Owned owns none) :
    Owned (Function.update owns c true) (some ⟨[], c⟩) := by
  intro d hd
  by_cases hdc : d = c
  · exact ⟨_, rfl, hdc.symm⟩
  · rw [Function.update_of_ne hdc, h.none_owns d] at hd
    cases hd

end Owned

/-- A client restores the network only when no other client's session is active. -/
def OwnRestore (st : State ι) : Event ι → Prop
  | .request c req => req.restores = true → ∀ s ∈ st.world.session, s.appliedBy = c
  | _ => True

/-- Each request runs to its end before anything else begins. -/
def Sequential (st : State ι) : Event ι → Prop
  | .request _ _ => Quiet st
  | .disconnect _ => Quiet st
  | .close _ _ => Quiet st
  | _ => True

instance [Fintype ι] (st : State ι) : (e : Event ι) → Decidable (Sequential st e)
  | .request _ _ => inferInstanceAs (Decidable (Quiet st))
  | .disconnect _ => inferInstanceAs (Decidable (Quiet st))
  | .close _ _ => inferInstanceAs (Decidable (Quiet st))
  | .step _ _ => inferInstanceAs (Decidable True)
  | .reply _ => inferInstanceAs (Decidable True)

variable [DecidableEq ι]

instance (st : State ι) : (e : Event ι) → Decidable (OwnRestore st e)
  | .request _ _ => inferInstanceAs (Decidable (_ → _))
  | .disconnect _ => inferInstanceAs (Decidable True)
  | .close _ _ => inferInstanceAs (Decidable True)
  | .step _ _ => inferInstanceAs (Decidable True)
  | .reply _ => inferInstanceAs (Decidable True)

def flags (st : State ι) (c : ι) : Bool := (st.conns c).owns

/-- What a request has to leave behind. -/
def KeepsOwned (st : State ι) (c : ι) (p : HelperM Done) : Prop :=
  p.Ensures (exec c) anyChoice (fun d w' =>
    Owned (Function.update (flags st) c (d.owns.getD (flags st c))) w'.session) st.world

theorem handle_keepsOwned {st : State ι} {c : ι} {req : HelperRequest} (uid : UInt32)
    (h : Owned (flags st) st.world.session) (hown : OwnRestore st (.request c req)) :
    KeepsOwned st c (handle uid req) := by
  have hsame : Function.update (flags st) c (flags st c) = flags st := Function.update_eq_self c _
  cases req with
  | ping version =>
    refine (ping_ensures uid version).mono fun d w' hd => ?_
    simpa [hd.1, hd.2, hsame] using h
  | apply spec =>
    refine (apply_ensures uid spec).mono fun d w' hd => ?_
    rcases hd with ⟨hd, hnone, hw'⟩ | ⟨hd, hw'⟩
    · rw [hnone] at h
      simpa [hd, hw'] using h.of_apply
    · simpa [hd, hw', hsame] using h
  | teardown =>
    refine (teardown_ensures uid).mono fun d w' hd => ?_
    simpa [hd.1, hd.2] using h.of_none (hown rfl)
  | cleanup | emergencyRestore =>
    refine restoreAll_ensures.mono fun d w' hd => ?_
    simpa [hd.1, hd.2] using h.of_none (hown rfl)

/-- What the task of `c` leaves behind when it runs on alone. -/
def Finishes (st : State ι) (c : ι) : Prop :=
  match (st.conns c).phase with
  | .busy _ p => KeepsOwned st c p
  | .leaving p => p.Ensures (exec c) anyChoice (fun _ w' =>
      Owned (Function.update (flags st) c false) w'.session) st.world
  | _ => Owned (flags st) st.world.session

theorem flags_setPhase (st : State ι) (c : ι) (ph : Phase) : flags (st.setPhase c ph) = flags st := by
  funext d
  by_cases hd : d = c
  · subst hd
    simp [flags]
  · simp [flags, setPhase_of_ne ph hd]

theorem finishes_wait {st : State ι} {c : ι} (h : (st.conns c).phase.active = false) :
    Finishes st c ↔ Owned (flags st) st.world.session := by
  unfold Finishes
  cases hp : (st.conns c).phase with
  | busy req p => rw [hp] at h; cases h
  | leaving p => rw [hp] at h; cases h
  | _ => exact Iff.rfl

/-- At most one task is at work, and it leaves the flags in agreement with the record. -/
structure OwnInv (st : State ι) : Prop where
  single : ∀ c d, (st.conns c).phase.active = true → (st.conns d).phase.active = true → c = d
  finishes : ∀ c, (∀ d, d ≠ c → (st.conns d).phase.active = false) → Finishes st c

namespace OwnInv
variable {st : State ι} {c : ι}

theorem owned (h : OwnInv st) (hquiet : Quiet st) (c : ι) :
    Owned (flags st) st.world.session :=
  (finishes_wait (hquiet c)).1 (h.finishes c fun d _ => hquiet d)

theorem of_quiet (hquiet : Quiet st) (howned : Owned (flags st) st.world.session) : OwnInv st where
  single c _ hc := by
    rw [hquiet c] at hc
    cases hc
  finishes c _ := (finishes_wait (hquiet c)).2 howned

/-- Next to a task at work, no other task is. -/
theorem others (h : OwnInv st) (hactive : (st.conns c).phase.active = true) (d : ι) (hd : d ≠ c) :
    (st.conns d).phase.active = false := by
  by_contra hact
  exact hd (h.single d c (by simpa using hact) hactive)

theorem of_single (hothers : ∀ d, d ≠ c → (st.conns d).phase.active = false)
    (hactive : (st.conns c).phase.active = true) (hc : Finishes st c) : OwnInv st where
  single d e hd he := by
    have hsame : ∀ x, (st.conns x).phase.active = true → x = c := by
      intro x hx
      by_contra hne
      rw [hothers x hne] at hx
      cases hx
    rw [hsame d hd, hsame e he]
  finishes d hd := by
    by_cases hdc : d = c
    · exact hdc ▸ hc
    · rw [hd c (Ne.symm hdc)] at hactive
      cases hactive

theorem of_work {req : HelperRequest} {p : HelperM Done}
    (hothers : ∀ d, d ≠ c → (st.conns d).phase.active = false) (hp : KeepsOwned st c p) :
    OwnInv (st.work c req p) := by
  have hrest : ∀ d, d ≠ c → ((st.work c req p).conns d).phase.active = false := by
    intro d hd
    rw [work_of_ne req p hd]
    exact hothers d hd
  cases p with
  | ret d =>
    have hflags : flags (st.work c req (.ret d)) =
        Function.update (flags st) c (d.owns.getD (flags st c)) := by
      funext x
      by_cases hx : x = c
      · subst hx
        simp [flags, State.work]
      · simp [flags, State.work, Function.update_of_ne hx]
    refine of_quiet (fun x => ?_) ?_
    · by_cases hx : x = c
      · subst hx
        simp [State.work, Phase.active]
      · exact hrest x hx
    · rw [hflags]
      exact hp
  | call o k =>
    have hconn : (st.work c req (.call o k)).conns c = ⟨(st.conns c).owns, .busy req (.call o k)⟩ :=
      setPhase_self _
    have hflags : flags (st.work c req (.call o k)) = flags st := flags_setPhase st c _
    refine of_single hrest (by rw [hconn]; rfl) ?_
    simp only [Finishes, hconn, KeepsOwned, hflags]
    exact hp

theorem of_leave {p : HelperM Unit} (hothers : ∀ d, d ≠ c → (st.conns d).phase.active = false)
    (hp : p.Ensures (exec c) anyChoice (fun _ w' =>
      Owned (Function.update (flags st) c false) w'.session) st.world) :
    OwnInv (st.leave c p) := by
  have hrest : ∀ d, d ≠ c → ((st.leave c p).conns d).phase.active = false := by
    intro d hd
    rw [leave_of_ne p hd]
    exact hothers d hd
  cases p with
  | ret u =>
    have hflags : flags (st.leave c (.ret u)) = Function.update (flags st) c false := by
      funext x
      by_cases hx : x = c
      · subst hx
        simp [flags, State.leave]
      · simp [flags, State.leave, Function.update_of_ne hx]
    refine of_quiet (fun x => ?_) ?_
    · by_cases hx : x = c
      · subst hx
        simp [State.leave, Phase.active]
      · exact hrest x hx
    · rw [hflags]
      exact hp
  | call o k =>
    have hconn : (st.leave c (.call o k)).conns c = ⟨(st.conns c).owns, .leaving (.call o k)⟩ :=
      setPhase_self _
    have hflags : flags (st.leave c (.call o k)) = flags st := flags_setPhase st c _
    refine of_single hrest (by rw [hconn]; rfl) ?_
    simp only [Finishes, hconn, hflags]
    exact hp

/-- A change of phase between waiting phases. -/
theorem of_wait {ph : Phase} (h : OwnInv st) (hold : (st.conns c).phase.active = false)
    (hnew : ph.active = false) : OwnInv (st.setPhase c ph) := by
  have hactive : ∀ d, ((st.setPhase c ph).conns d).phase.active = (st.conns d).phase.active := by
    intro d
    by_cases hd : d = c
    · subst hd
      rw [setPhase_self, hold, hnew]
    · rw [setPhase_of_ne ph hd]
  refine ⟨fun d e hd he => ?_, fun d hd => ?_⟩
  · rw [hactive] at hd he
    exact h.single d e hd he
  · have hfin := h.finishes d (fun e he => (hactive e).symm.trans (hd e he))
    by_cases hdc : d = c
    · subst hdc
      rw [finishes_wait ((hactive d).trans hold), flags_setPhase]
      exact (finishes_wait hold).1 hfin
    · simp only [Finishes, KeepsOwned, setPhase_of_ne ph hdc, flags_setPhase, setPhase_world]
      exact hfin

end OwnInv

theorem ownInv_step {uid : ι → UInt32} {st st' : State ι} {e : Event ι} (h : OwnInv st)
    (hseq : Sequential st e) (hown : OwnRestore st e) (hstep : step uid st e = some st') :
    OwnInv st' := by
  cases step_moves hstep with
  | @request c req hidle =>
    exact .of_work (fun d _ => hseq d) (handle_keepsOwned (uid c) (h.owned hseq c) hown)
  | @work c choice req o k hbusy =>
    have hothers := h.others (c := c) (by rw [hbusy]; rfl)
    have hp := h.finishes c hothers
    simp only [Finishes, hbusy] at hp
    exact .of_work hothers (hp choice trivial)
  | @leave c choice o k hleaving =>
    have hothers := h.others (c := c) (by rw [hleaving]; rfl)
    have hp := h.finishes c hothers
    simp only [Finishes, hleaving] at hp
    exact .of_leave hothers (hp choice trivial)
  | reply hreply => exact h.of_wait (by rw [hreply]; rfl) rfl
  | @teardown c hwait howns =>
    have howned := h.owned hseq c
    obtain ⟨s, hs, hsc⟩ := howned c howns
    refine .of_leave (fun d _ => hseq d) (teardownSession_ensures.mono fun _ w' hw' => ?_)
    rw [hw']
    refine howned.of_none fun r hr => ?_
    rw [hs, Option.some.injEq] at hr
    exact hr ▸ hsc
  | depart hwait howns => exact h.of_wait hwait rfl
  | @close c fd hpassed =>
    have howned := h.owned hseq c
    rw [← st.world.closeTun_session fd] at howned
    exact .of_quiet hseq howned

/-- The client of `c` going away would start a teardown. -/
def tearsDown (uid : ι → UInt32) (st : State ι) (c : ι) : Bool :=
  match step uid st (.disconnect c) with
  | none => false
  | some st' => match (st'.conns c).phase with
    | .leaving _ => true
    | _ => false

theorem owns_of_tearsDown {uid : ι → UInt32} {st : State ι} {c : ι}
    (h : tearsDown uid st c = true) : (st.conns c).owns = true := by
  unfold tearsDown at h
  split at h
  · cases h
  · next st' hstep =>
    cases step_moves hstep with
    | teardown hwait howns => exact howns
    | depart hwait howns =>
      rw [setPhase_self] at h
      cases h

/-- When requests run one at a time and clients restore the network only when no other client's
session is active, a client that goes away takes down no session but its own. -/
theorem disconnect_tears_own_session (uid : ι → UInt32) (w : World ι) (es : List (Event ι))
    (st : State ι)
    (hok : Meets (step uid) (fun st e => Sequential st e ∧ OwnRestore st e) (State.initial w) es)
    (hrun : run (step uid) (State.initial w) es = some st) (hquiet : Quiet st) (c : ι)
    (hdown : tearsDown uid st c = true) :
    ∃ s, st.world.session = some s ∧ s.appliedBy = c := by
  have hinit : OwnInv (State.initial w) := by
    refine .of_quiet (fun _ => rfl) fun c hc => ?_
    cases hc
  have hinv := run_invariant (fun _ _ _ h hc hs => ownInv_step h hc.1 hc.2 hs) hinit hok hrun
  exact hinv.owned hquiet c c (owns_of_tearsDown hdown)

/-- A health check beside an active session. -/
def healthCheck : List (Event (Fin 2)) :=
  applyEvents clientA ++ [.request clientB (.ping 1), .reply clientB, .disconnect clientB]

theorem disconnect_tears_own_session_healthCheck :
    ∃ st, run (step fun _ => 1000) (State.initial cleanWorld) healthCheck = some st ∧
      Quiet st ∧ tearsDown (fun _ => 1000) st clientA = true ∧
      ∃ s, st.world.session = some s ∧ s.appliedBy = clientA := by
  have hok : Meets (step fun _ => 1000) (fun st e => Sequential st e ∧ OwnRestore st e)
      (State.initial cleanWorld) healthCheck := by decide
  have hend : (run (step fun _ => 1000) (State.initial cleanWorld) healthCheck).any
      (fun st => decide (Quiet st) && tearsDown (fun _ => 1000) st clientA) = true := by decide
  obtain ⟨st, hrun, hst⟩ := (Option.any_eq_true _ _).1 hend
  simp only [Bool.and_eq_true, decide_eq_true_eq] at hst
  exact ⟨st, hrun, hst.1, hst.2,
    disconnect_tears_own_session _ cleanWorld healthCheck st hok hrun hst.1 clientA hst.2⟩

/-- The first client applies a session, the second one takes it down and applies its own. -/
def takeover : List (Event (Fin 2)) :=
  applyEvents clientA ++
    (.request clientB .teardown :: List.replicate 9 (.step clientB none) ++ [.reply clientB]) ++
    applyEvents clientB

/-- After that the first client tears down the second one's session when it goes away. -/
theorem disconnect_tears_other_session :
    ¬ ∀ (uid : Fin 2 → UInt32) (w : World (Fin 2)) (es : List (Event (Fin 2))) (st : State (Fin 2)),
      Meets (step uid) Sequential (State.initial w) es →
      run (step uid) (State.initial w) es = some st → Quiet st → ∀ c, tearsDown uid st c = true →
      ∃ s, st.world.session = some s ∧ s.appliedBy = c := by
  intro h
  have hseq : Meets (step fun _ => 1000) Sequential (State.initial cleanWorld) takeover := by decide
  have hend : (run (step fun _ => 1000) (State.initial cleanWorld) takeover).any
      (fun st => decide (Quiet st) && tearsDown (fun _ => 1000) st clientA &&
        decide (st.world.session = some ⟨[], clientB⟩)) = true := by decide
  obtain ⟨st, hrun, hst⟩ := (Option.any_eq_true _ _).1 hend
  simp only [Bool.and_eq_true, decide_eq_true_eq] at hst
  obtain ⟨s, hs, hs0⟩ := h _ cleanWorld takeover st hseq hrun hst.1.1 clientA hst.1.2
  rw [hst.2, Option.some.injEq] at hs
  subst hs
  exact absurd hs0 (by decide)

end EasyConnection.Helper
