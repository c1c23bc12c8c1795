import EasyConnection.Async.Pump

/-! # Inbound integrity of a selecting task

A task whose reading future is only ever dropped at a resting point hands on exactly what
the records of the stream say, in order, and ends only when the remote side has closed or has
said that it will, and then with everything handed on. The records are given by a predicate on
the shared state, the bytes still to be taken and the data they stand for; one record has to
lead from this predicate back to it.
-/
namespace EasyConnection.Async.Pump
variable {τ σ α ε : Type*} (M : Pump τ σ α ε) (safe : τ → Bool) (benign bye : ε → Prop)
  (P : σ → List UInt8 → List UInt8 → Prop)

/-- A finished future has read one record: a silent one, one with the next data, or one that
takes leave after the last data. -/
def Outcome (out : List UInt8) (s : σ) (a : α) (w : List UInt8) : Prop :=
  match M.verdict a with
  | .again => P s w out
  | .deliver data => ∃ out', out = data ++ out' ∧ P s w out'
  | .stop why => bye why ∧ out = []

def Reads (out : List UInt8) (r : Reader τ σ α) (s : σ) (w : List UInt8) : Prop :=
  r.Expect (fun label => safe label = true) (fun s w => P s w out) (fun w => w = [] ∧ out = [])
    (fun a => ∃ why, M.verdict a = .stop why ∧ benign why) (M.Outcome bye P out) s w

/-- Reading a record from a resting point leads to a resting point, and so does sending. -/
structure Sound : Prop where
  waits : ∀ s : σ, ∃ label n eof k, (M.start.settle s).2 = .read label (n + 1) eof k
  start : ∀ {s : σ} {w out : List UInt8}, P s w out → M.Reads safe benign bye P out M.start s w
  onLocal : ∀ {s : σ} {w out : List UInt8} (data : List UInt8), P s w out →
    ∃ p, M.onLocal s data = .ok p ∧ P p.1 w out

/-- Dropping the future loses nothing: it holds no byte and waits at a safe label, or it has
finished reading and only writes. -/
def Phase.atRest : Phase τ σ α ε → Bool
  | .selecting (.read label _ _ _) got => safe label && got.isEmpty
  | .selecting (.write _ _) _ => true
  | _ => false

/-- Local bytes win the turn only when the reading future is at rest. -/
def DropsAtRest (st : State τ σ α ε) : Event → Bool
  | .localRead _ => st.phase.atRest safe
  | _ => true

/-- The local side stays open and writes do not fail. -/
def Event.lively : Event → Bool
  | .localEof => false
  | .localGone => false
  | .refuse => false
  | _ => true

/-- How the task may have ended: the remote side has closed, or has taken leave. If everything
had arrived before, everything has been handed on. -/
def Parted (total : List UInt8) (st : State τ σ α ε) (why : ε) : Prop :=
  st.closed = true ∧ benign why ∧ (st.unsent = [] → st.delivered = total) ∨
    bye why ∧ st.delivered = total

def Inv (total : List UInt8) (st : State τ σ α ε) : Prop :=
  match st.phase with
  | .selecting r got => r.Waits got ∧ ∃ out, total = st.delivered ++ out ∧
      M.Reads safe benign bye P out r st.shared (r.held got ++ (st.inbound ++ st.unsent))
  | .sending data => data ≠ [] ∧
      ∃ out, total = st.delivered ++ out ∧ P st.shared (st.inbound ++ st.unsent) out
  | .delivering data => data ≠ [] ∧ ∃ out, total = st.delivered ++ (data ++ out) ∧
      P st.shared (st.inbound ++ st.unsent) out
  | .ended why => st.delivered <+: total ∧ ∃ e, why = some e ∧ Parted benign bye total st e

variable {M safe benign bye P} {total out : List UInt8} {st st' : State τ σ α ε}

theorem Inv.delivered_prefix (h : M.Inv safe benign bye P total st) : st.delivered <+: total := by
  unfold Inv at h
  split at h
  · obtain ⟨_, out, hout, _⟩ := h
    exact ⟨out, hout.symm⟩
  · obtain ⟨_, out, hout, _⟩ := h
    exact ⟨out, hout.symm⟩
  · obtain ⟨_, out, hout, _⟩ := h
    exact ⟨_, hout.symm⟩
  · exact h.1

theorem Inv.ended {why : Option ε} (h : M.Inv safe benign bye P total st)
    (hp : st.phase = .ended why) : ∃ e, why = some e ∧ Parted benign bye total st e := by
  simp only [Inv, hp] at h
  exact h.2

variable {got : List UInt8} {r : Reader τ σ α}

/-- At a resting point the shared state and the bytes not yet taken say what is to come. -/
theorem Inv.atRest (h : M.Inv safe benign bye P total st) (hphase : st.phase = .selecting r got)
    (hrest : st.phase.atRest safe = true) :
    ∃ out, total = st.delivered ++ out ∧ P st.shared (st.inbound ++ st.unsent) out := by
  simp only [Inv, hphase] at h
  obtain ⟨hwaits, out, hout, hr⟩ := h
  refine ⟨out, hout, ?_⟩
  rw [hphase] at hrest
  cases r with
  | read label n eof k =>
    simp only [Phase.atRest, Bool.and_eq_true, List.isEmpty_iff] at hrest
    obtain ⟨hlabel, rfl⟩ := hrest
    exact hr.1 hlabel
  | write out' k => exact hr.1
  | done a => exact hwaits.elim
  | get k => exact hwaits.elim
  | set s next => exact hwaits.elim

section Turn
variable (hM : M.Sound safe benign bye P)
include hM

theorem inv_fresh (hout : total = st.delivered ++ out)
    (hP : P st.shared (st.inbound ++ st.unsent) out) :
    M.Inv safe benign bye P total (st.fresh M) := by
  refine ⟨?_, out, hout, ?_⟩
  · obtain ⟨label, n, eof, k, hwaits⟩ := hM.waits st.shared
    rw [hwaits]
    exact n.succ_pos
  · rw [Reader.held_nil]
    exact (hM.start hP).settle

theorem inv_hand {data : List UInt8} (hout : total = st.delivered ++ (data ++ out))
    (hP : P st.shared (st.inbound ++ st.unsent) out) :
    M.Inv safe benign bye P total (st.hand M data) := by
  unfold State.hand
  split_ifs with hdata
  · subst hdata
    exact inv_fresh hM hout hP
  · exact ⟨hdata, out, hout, hP⟩

theorem inv_send (data : List UInt8) (hout : total = st.delivered ++ out)
    (hP : P st.shared (st.inbound ++ st.unsent) out) :
    M.Inv safe benign bye P total (st.send M data) := by
  unfold State.send
  split_ifs with hdata
  · exact inv_fresh hM hout hP
  · exact ⟨hdata, out, hout, hP⟩

theorem inv_judge {a : α} (hout : total = st.delivered ++ out)
    (ha : M.Outcome bye P out st.shared a (st.inbound ++ st.unsent)) :
    M.Inv safe benign bye P total (st.judge M a) := by
  unfold Outcome at ha
  unfold State.judge
  cases hv : M.verdict a with
  | again =>
    rw [hv] at ha
    exact inv_fresh hM hout ha
  | deliver data =>
    rw [hv] at ha
    obtain ⟨out', rfl, hP⟩ := ha
    exact inv_hand hM hout hP
  | stop why =>
    rw [hv] at ha
    obtain ⟨hbye, rfl⟩ := ha
    rw [List.append_nil] at hout
    exact ⟨⟨[], by rw [hout, List.append_nil]⟩, why, rfl, .inr ⟨hbye, hout.symm⟩⟩

theorem inv_proceed (hout : total = st.delivered ++ out)
    (hr : M.Reads safe benign bye P out r st.shared (st.inbound ++ st.unsent)) :
    M.Inv safe benign bye P total (st.proceed M r) := by
  have hr' := Reader.Expect.settle hr
  unfold State.proceed
  dsimp only
  split
  · next a heq =>
    rw [heq] at hr'
    exact inv_judge hM hout hr'
  · next hdone =>
    refine ⟨?_, out, hout, by rwa [Reader.held_nil]⟩
    rcases r.settle_waits st.shared with ⟨a, ha⟩ | hwaits
    · exact absurd ha (hdone a)
    · exact hwaits

/-- Bytes move from the stream into the future, which the future's expectation counts as
one list: taking them changes nothing until the read is complete. -/
theorem inv_takeInto {label : τ} {n : ℕ} {eof : Reader τ σ α} {k : List UInt8 → Reader τ σ α}
    (hle : got.length ≤ n) (hout : total = st.delivered ++ out)
    (hr : M.Reads safe benign bye P out (.read label n eof k) st.shared
      (got ++ (st.inbound ++ st.unsent))) :
    M.Inv safe benign bye P total (st.takeInto M label n eof k got) := by
  unfold State.takeInto
  split_ifs with hn
  · exact inv_proceed hM hout (Reader.Expect.read_append hn hr)
  · exact ⟨Nat.lt_of_le_of_ne hle hn, out, hout, hr⟩

omit hM in
/-- A stream that ends inside a record ends the task with a benign reason; one that ends
between two records has had all its data handed on. -/
theorem inv_cut {label : τ} {n : ℕ} {eof : Reader τ σ α} {k : List UInt8 → Reader τ σ α}
    (hout : total = st.delivered ++ out) (hclosed : st.closed = true) (hwaits : got.length < n)
    (hr : M.Reads safe benign bye P out (.read label n eof k) st.shared (got ++ st.unsent)) :
    M.Inv safe benign bye P total (st.proceed M eof) := by
  obtain ⟨_, ⟨a, rfl, why, hwhy, hbenign⟩, hshort, _⟩ := hr
  simp only [State.proceed, Reader.settle, State.judge, hwhy]
  refine ⟨⟨out, hout.symm⟩, why, rfl, .inl ⟨hclosed, hbenign, fun hsent => ?_⟩⟩
  have hout' : out = [] := by
    refine (hshort ?_).2
    rw [show st.unsent = [] from hsent, List.append_nil]
    exact hwaits
  rw [hout, hout', List.append_nil]

theorem inv_localRead {data : List UInt8} (hphase : st.phase = .selecting r got)
    (hrest : st.phase.atRest safe = true) (h : M.Inv safe benign bye P total st) :
    M.Inv safe benign bye P total (st.localRead M data) := by
  obtain ⟨out, hout, hP⟩ := h.atRest hphase hrest
  obtain ⟨p, hp, hP'⟩ := hM.onLocal data hP
  simp only [State.localRead, hp]
  exact inv_send hM p.2 hout hP'

end Turn

/-- Every such step keeps the invariant. -/
theorem inv_step (hM : M.Sound safe benign bye P) {e : Event} (h : M.Inv safe benign bye P total st)
    (hrest : DropsAtRest safe st e = true) (hlive : e.lively = true)
    (hstep : M.step st e = some st') :
    M.Inv safe benign bye P total st' := by
  cases M.stepped_of_step hstep with
  | @arrive n hopen hn =>
    have hmove : st.inbound ++ st.unsent.take n ++ st.unsent.drop n = st.inbound ++ st.unsent := by
      rw [List.append_assoc, List.take_append_drop]
    unfold Inv at h ⊢
    cases hp : st.phase with
    | selecting r got => simpa only [hp, hmove] using h
    | sending out => simpa only [hp, hmove] using h
    | delivering data => simpa only [hp, hmove] using h
    | ended why =>
      simp only [hp] at h ⊢
      obtain ⟨hstart, e, rfl, hparted⟩ := h
      refine ⟨hstart, e, rfl, ?_⟩
      rcases hparted with ⟨hclosed, _⟩ | hbye
      · simp [hclosed] at hopen
      · exact .inr hbye
  | close =>
    unfold Inv at h ⊢
    cases hp : st.phase with
    | selecting r got => simpa only [hp] using h
    | sending out => simpa only [hp] using h
    | delivering data => simpa only [hp] using h
    | ended why =>
      simp only [hp] at h ⊢
      obtain ⟨hstart, e, rfl, hparted⟩ := h
      refine ⟨hstart, e, rfl, ?_⟩
      rcases hparted with ⟨_, hparted⟩ | hbye
      · exact .inl ⟨rfl, hparted⟩
      · exact .inr hbye
  | @take n label need eof k got hp hn hle =>
    simp only [Inv, hp] at h
    obtain ⟨_, out, hout, hr⟩ := h
    have hlen : (got ++ st.inbound.take n).length ≤ need := by
      rw [List.length_append, List.length_take, Nat.min_eq_left hn]
      exact hle
    refine inv_takeInto hM hlen hout ?_
    have hmove : got ++ st.inbound.take n ++ (st.inbound.drop n ++ st.unsent) =
        got ++ (st.inbound ++ st.unsent) := by
      rw [List.append_assoc, ← List.append_assoc (st.inbound.take n), List.take_append_drop]
    rw [hmove]
    exact hr
  | eof hp hclosed hempty =>
    simp only [Inv, hp] at h
    obtain ⟨hwaits, out, hout, hr⟩ := h
    rw [hempty, List.nil_append] at hr
    exact inv_cut hout hclosed hwaits hr
  | acceptAll hp =>
    simp only [Inv, hp] at h
    obtain ⟨_, rest, hout, hr⟩ := h
    exact inv_proceed hM hout (hr.2 true)
  | acceptSome hp _ hlt =>
    simp only [Inv, hp] at h
    obtain ⟨_, rest, hout, hr⟩ := h
    refine ⟨fun hnil => ?_, rest, hout, hr⟩
    rw [List.drop_eq_nil_iff] at hnil
    omega
  | acceptSent hp =>
    simp only [Inv, hp] at h
    obtain ⟨_, rest, hout, hP⟩ := h
    exact inv_send hM _ hout hP
  | localRead hp => exact inv_localRead hM hp hrest h
  | @deliver n data hp =>
    simp only [Inv, hp] at h
    obtain ⟨_, rest, hout, hP⟩ := h
    have hsplit : total = st.delivered ++ data.take n ++ (data.drop n ++ rest) := by
      rw [hout, List.append_assoc, ← List.append_assoc (data.take n), List.take_append_drop]
    exact inv_hand hM hsplit hP
  | refuse | refuseSent | localEof | localGone => cases hlive

/-- **Inbound integrity.** What has been delivered is a prefix of what the stream says, and
the task has ended only if the remote side has closed or has taken leave. -/
theorem inbound_integrity (hM : M.Sound safe benign bye P) {s : σ} {wire : List UInt8}
    (hP : P s wire total) {es : List Event}
    (hlive : ∀ e ∈ es, e.lively = true)
    (hrest : Meets M.step (fun st e => DropsAtRest safe st e = true) (M.initial s wire) es)
    (hrun : run M.step (M.initial s wire) es = some st) :
    st.delivered <+: total ∧
      ∀ why, st.phase = .ended why → ∃ e, why = some e ∧ Parted benign bye total st e := by
  have hinit : M.Inv safe benign bye P total (M.initial s wire) := inv_fresh hM rfl hP
  have h := run_invariant (fun _ _ _ hI hok hstep => inv_step hM hI hok.1 hok.2 hstep) hinit
    (hrest.and_labels hlive) hrun
  exact ⟨h.delivered_prefix, fun _ hp => h.ended hp⟩

end EasyConnection.Async.Pump
