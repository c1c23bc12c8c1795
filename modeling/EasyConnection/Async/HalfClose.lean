import EasyConnection.Async.Inbound

/-! # A local side that shuts its write half

The task ends when it reads the end of the local bytes. What the remote side sends is handed on
completely exactly if that happens only after its last data byte.
-/
namespace EasyConnection.Async.Pump
variable {τ σ α ε : Type*} (M : Pump τ σ α ε) (safe : τ → Bool)

/-- The local side goes on reading, and writes do not fail. -/
def Event.steady : Event → Bool
  | .localGone => false
  | .refuse => false
  | _ => true

/-- The end of the local bytes is read only once all data has been handed on. -/
def ClosesLast (total : List UInt8) (st : State τ σ α ε) : Event → Prop
  | .localEof => st.delivered = total
  | _ => True

instance (total : List UInt8) (st : State τ σ α ε) :
    (e : Event) → Decidable (ClosesLast total st e)
  | .localEof => inferInstanceAs (Decidable (st.delivered = total))
  | .arrive _ | .close | .take _ | .eof | .accept _ | .refuse | .localRead _ | .deliver _
  | .localGone => .isTrue trivial

/-- The steps in which the local side has no part. -/
def Event.onward : Event → Bool
  | .take _ => true
  | .eof => true
  | .accept _ => true
  | .deliver _ => true
  | _ => false

/-- The remote side has closed after its last byte, and the task can do nothing more. -/
structure Finished (st : State τ σ α ε) : Prop where
  closed : st.closed = true
  sent : st.unsent = []
  stuck : ∀ e : Event, e.onward = true → M.step st e = none

/-- A run that begins with `wire` still to come, and in which local bytes make the reading future
be dropped only at rest, hands on `total` exactly if the end of the local bytes comes after it. -/
def KeepsResponse (s : σ) (wire total : List UInt8) : Prop :=
  ∀ (es : List Event) (st : State τ σ α ε), (∀ e ∈ es, e.steady = true) →
    Meets M.step (fun st e => DropsAtRest safe st e = true) (M.initial s wire) es →
    run M.step (M.initial s wire) es = some st → M.Finished st →
    (st.delivered = total ↔ Meets M.step (ClosesLast total) (M.initial s wire) es)

variable {M safe} {benign bye : ε → Prop} {P : σ → List UInt8 → List UInt8 → Prop}
  {total out : List UInt8} {st st' : State τ σ α ε}

theorem Finished.of_ended (hclosed : st.closed = true) (hsent : st.unsent = [])
    {why : Option ε} (hp : st.phase = .ended why) : M.Finished st := by
  refine ⟨hclosed, hsent, fun e he => ?_⟩
  cases e with
  | take n => simp only [step, hp]
  | eof => simp only [step, hp]
  | accept n => simp only [step, hp]
  | deliver n => simp only [step, hp]
  | _ => cases he

/-- A task that has not ended has something to do once the remote side has closed. -/
theorem Inv.finished (h : M.Inv safe benign bye P total st) (hfin : M.Finished st) :
    st.delivered = total := by
  obtain ⟨hclosed, hsent, hstuck⟩ := hfin
  unfold Inv at h
  split at h
  · next r got hp =>
    obtain ⟨hwaits, _⟩ := h
    cases r with
    | read label n eof k =>
      have hgot : got.length < n := hwaits
      by_cases hempty : st.inbound = []
      · have hno := hstuck .eof rfl
        simp [step, hp, hclosed, hempty] at hno
      · have hpos : 1 ≤ st.inbound.length := List.length_pos_iff.2 hempty
        have hno := hstuck (.take 1) rfl
        simp only [step, hp] at hno
        rw [if_pos ⟨Nat.one_pos, hpos, hgot⟩] at hno
        cases hno
    | write data k =>
      have hpos : 1 ≤ data.length := List.length_pos_iff.2 hwaits
      have hno := hstuck (.accept 1) rfl
      simp only [step, hp] at hno
      rw [if_pos ⟨Nat.one_pos, hpos⟩] at hno
      split_ifs at hno
    | done a => exact hwaits.elim
    | get k => exact hwaits.elim
    | set s next => exact hwaits.elim
  · next data hp =>
    have hpos : 1 ≤ data.length := List.length_pos_iff.2 h.1
    have hno := hstuck (.accept 1) rfl
    simp only [step, hp] at hno
    rw [if_pos ⟨Nat.one_pos, hpos⟩] at hno
    cases hno
  · next data hp =>
    have hpos : 1 ≤ data.length := List.length_pos_iff.2 h.1
    have hno := hstuck (.deliver 1) rfl
    simp only [step, hp] at hno
    rw [if_pos ⟨Nat.one_pos, hpos⟩] at hno
    cases hno
  · obtain ⟨_, _, _, ⟨_, _, hall⟩ | ⟨_, hall⟩⟩ := h
    · exact hall hsent
    · exact hall

/-- The task runs, or has ended with the local bytes after handing on everything. -/
def HalfInv (M : Pump τ σ α ε) (safe : τ → Bool) (benign bye : ε → Prop)
    (P : σ → List UInt8 → List UInt8 → Prop) (total : List UInt8) (st : State τ σ α ε) : Prop :=
  M.Inv safe benign bye P total st ∨ st.phase = .ended none ∧ st.delivered = total

/-- A task that has ended does nothing more. -/
theorem ended_step {e : Event} {why : Option ε} (hp : st.phase = .ended why)
    (hstep : M.step st e = some st') : st'.phase = .ended why ∧ st'.delivered = st.delivered := by
  cases M.stepped_of_step hstep with
  | arrive | close => exact ⟨hp, rfl⟩
  | take hp' | eof hp' | acceptAll hp' | acceptSome hp' | acceptSent hp' | refuse hp'
  | refuseSent hp' | localRead hp' | localEof hp' | deliver hp' | localGone hp' =>
    cases hp.symm.trans hp'

theorem halfInv_step (hM : M.Sound safe benign bye P) {e : Event}
    (h : HalfInv M safe benign bye P total st) (hsteady : e.steady = true)
    (hrest : DropsAtRest safe st e = true) (hlast : ClosesLast total st e)
    (hstep : M.step st e = some st') : HalfInv M safe benign bye P total st' := by
  rcases h with h | ⟨hp, hall⟩
  · by_cases hlive : e.lively = true
    · exact .inl (inv_step hM h hrest hlive hstep)
    · obtain rfl : e = .localEof := by
        cases e <;> first | rfl | exact absurd rfl hlive | cases hsteady
      cases M.stepped_of_step hstep with
      | localEof hp => exact .inr ⟨rfl, hlast⟩
  · obtain ⟨hp', hsame⟩ := ended_step hp hstep
    exact .inr ⟨hp', hsame.trans hall⟩

theorem ended_run {es : List Event} {why : Option ε} (hp : st.phase = .ended why)
    (hrun : run M.step st es = some st') : st'.delivered = st.delivered := by
  refine (run_invariant (I := fun u => u.phase = .ended why ∧ u.delivered = st.delivered)
    (fun u e u' hu _ hstep => ?_) ⟨hp, rfl⟩ (Meets.of_forall (fun _ _ => trivial) st es) hrun).2
  obtain ⟨hp', hsame⟩ := ended_step hu.1 hstep
  exact ⟨hp', hsame.trans hu.2⟩

/-- Nothing is handed on after the end of the local bytes has been read. -/
theorem closesLast_of_delivered {es : List Event} (hrun : run M.step st es = some st')
    (hall : st'.delivered = total) : Meets M.step (ClosesLast total) st es := by
  induction es generalizing st with
  | nil => trivial
  | cons e es ih =>
    obtain ⟨u, hstep, hrun⟩ := Option.bind_eq_some_iff.1 hrun
    refine ⟨?_, by rw [hstep]; exact ih hrun⟩
    cases e with
    | localEof =>
      cases M.stepped_of_step hstep with
      | localEof hp => exact (ended_run rfl hrun).symm.trans hall
    | _ => trivial

/-- **Half-close.** A task whose futures meet their expectation keeps the response exactly if it
reads the end of the local bytes after it. -/
theorem keepsResponse (hM : M.Sound safe benign bye P) {s : σ} {wire : List UInt8}
    (hP : P s wire total) : M.KeepsResponse safe s wire total := by
  intro es st hsteady hrests hrun hfin
  refine ⟨closesLast_of_delivered hrun, fun hlast => ?_⟩
  have hinit : HalfInv M safe benign bye P total (M.initial s wire) := .inl (inv_fresh hM rfl hP)
  have h := run_invariant
    (fun _ _ _ hI hok hstep => halfInv_step hM hI hok.2 hok.1.1 hok.1.2 hstep) hinit
    ((hrests.and hlast).and_labels hsteady) hrun
  rcases h with h | ⟨_, hall⟩
  · exact h.finished hfin
  · exact hall

end EasyConnection.Async.Pump
