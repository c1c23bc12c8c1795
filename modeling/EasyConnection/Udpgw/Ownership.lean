import EasyConnection.Udpgw.Invariant

/-! # Who owns a connection id

Every packet reaches the requester it is meant for as long as no id is handed out that somebody
still holds. The counter sees to that for 65536 allocations only: pairs of addresses hold their
ids for good, and after that it comes back to them.
-/
namespace EasyConnection.Udpgw
open Async Net

/-- The packet reaches the requester, and nobody else gets anything. -/
def Delivered (st st' : State) (payload : List UInt8) : Requester → Prop
  | .pair k => st'.replies = (k.1, payload) :: st.replies ∧ st'.calls = st.calls
  | .query q => (st'.calls q).rx = some (.got payload) ∧
      (∀ q', q' ≠ q → st'.calls q' = st.calls q') ∧ st'.replies = st.replies

/-- The requester is the only one to use the id, and the packets of the id reach it. -/
structure Owned (st : State) (r : Requester) (c : UInt16) : Prop where
  flow : st.flows c = some r.flow
  alone : ∀ r', Live st r' c → r' = r
  delivery : ∀ payload, ∃ st', step st (.packet c payload) = some st' ∧ Delivered st st' payload r

theorem Call.PendingAt.rx_setRx {call : Call} {c : UInt16} (h : call.PendingAt c) (rx : Rx) :
    (call.setRx rx).rx = some rx := by
  rcases h with rfl | rfl <;> rfl

theorem delivered_of_flow {st : State} {r : Requester} {c : UInt16} (hlive : Live st r c)
    (hf : st.flows c = some r.flow) (payload : List UInt8) :
    ∃ st', step st (.packet c payload) = some st' ∧ Delivered st st' payload r := by
  cases r with
  | pair k =>
    refine ⟨st.deliver c k.1 payload, ?_, rfl, rfl⟩
    simp only [step, hf, Requester.flow]
  | query q =>
    refine ⟨st.answer c q payload, ?_, ?_, fun q' hq => ?_, rfl⟩
    · simp only [step, hf, Requester.flow]
    · simp only [State.answer, State.setCall, Function.update_self]
      exact hlive.rx_setRx _
    · exact Function.update_of_ne hq _ _

/-- Everyone who waits for packets owns the id they wait on. -/
def ConidOwned (st : State) : Prop := ∀ r c, Live st r c → Owned st r c

theorem Inv.conidOwned {st : State} (h : Inv st) : ConidOwned st := by
  intro r c hlive
  have hf := h.flowOf r c hlive
  exact ⟨hf, fun r' hlive' => h.uniq r' r c hlive'.holds hlive.holds, delivered_of_flow hlive hf⟩

theorem inv_run {events : List Event} {st : State}
    (hfresh : Meets step FreshConid State.initial events)
    (hrun : run step State.initial events = some st) : Inv st :=
  run_invariant (fun _ _ _ h hok hs => inv_step h hok hs) inv_initial hfresh hrun

section Allocations
variable {st st' : State} {n : ℕ}

/-- The ids that are held are among the first `n` that the counter gave out. -/
structure Allocated (n : ℕ) (st : State) : Prop where
  next : st.nextConid = UInt16.ofNat (n + 1)
  held : ∀ r c, Holds st r c → ∃ i < n, c = UInt16.ofNat (i + 1)

theorem Allocated.free (h : Allocated n st) (hn : n < 65536) : Free st st.nextConid := by
  intro r hr
  obtain ⟨i, hi, hc⟩ := h.held r _ hr
  have hsame := congrArg UInt16.toNat (h.next.symm.trans hc)
  simp only [UInt16.toNat_ofNat'] at hsame
  omega

theorem Allocated.step {e : Event} (h : Allocated n st) (hs : step st e = some st') :
    ∃ m ≤ n + (if e.allocates then 1 else 0), Allocated m st' := by
  rcases step_holds hs with ⟨hnext, hold⟩ | ⟨halloc, hnext, new, hold⟩
  · exact ⟨n, Nat.le_add_right _ _, hnext.trans h.next, fun r c hr => h.held r c (hold r c hr)⟩
  · refine ⟨n + 1, Nat.le_of_eq (by rw [if_pos halloc]), ?_, fun r c hr => ?_⟩
    · rw [hnext, h.next, ← UInt16.ofNat_one, ← UInt16.ofNat_add]
    · rcases hold r c hr with ⟨_, rfl⟩ | hr
      · exact ⟨n, Nat.lt_succ_self n, h.next⟩
      · obtain ⟨i, hi, hc⟩ := h.held r c hr
        exact ⟨i, Nat.lt_succ_of_lt hi, hc⟩

theorem allocated_initial : Allocated 0 State.initial := by
  refine ⟨rfl, ?_⟩
  rintro (k | q) c h <;> cases h

/-- The counter does not come back to an id before it has given out all of them. -/
theorem Allocated.meets_freshConid {events : List Event} (h : Allocated n st)
    (hn : n + events.countP Event.allocates ≤ 65536) : Meets Udpgw.step FreshConid st events := by
  induction events generalizing n st with
  | nil => trivial
  | cons e es ih =>
    rw [List.countP_cons] at hn
    refine ⟨?_, ?_⟩
    · cases e with
      | sendUdp k => exact fun _ => h.free (by simp only [Event.allocates, if_true] at hn; omega)
      | queryDns q => exact h.free (by simp only [Event.allocates, if_true] at hn; omega)
      | _ => trivial
    · cases hs : Udpgw.step st e with
      | none => trivial
      | some st' =>
        obtain ⟨m, hm, h'⟩ := h.step hs
        exact ih h' (by omega)

end Allocations

/-- As long as every id handed out is free, every id is owned by one requester. -/
theorem conid_owned {events : List Event} {st : State}
    (hfresh : Meets step FreshConid State.initial events)
    (hrun : run step State.initial events = some st) : ConidOwned st :=
  (inv_run hfresh hrun).conidOwned

def earlyPair : Key := (⟨.v4 0x0a000002, 5000⟩, ⟨.v4 0x08080808, 443⟩)

def latePair : Key := (⟨.v4 0x0a000002, 5001⟩, ⟨.v4 0x08080808, 443⟩)

def pairAndQuery : List Event :=
  [.sendUdp earlyPair, .recordFlow, .queryDns 0, .insertFlow 0, .written 0 true]

theorem conid_owned_pairAndQuery :
    ∃ st, run step State.initial pairAndQuery = some st ∧
      Live st (.pair earlyPair) 1 ∧ Live st (.query 0) 2 ∧ ConidOwned st := by
  have hend : ∃ st, run step State.initial pairAndQuery = some st ∧
      Live st (.pair earlyPair) 1 ∧ Live st (.query 0) 2 := ⟨_, rfl, ⟨rfl, nofun⟩, .inr rfl⟩
  obtain ⟨st, hrun, hpair, hquery⟩ := hend
  exact ⟨st, hrun, hpair, hquery,
    conid_owned (allocated_initial.meets_freshConid (by decide)) hrun⟩

/-- A query whose answer does not come. -/
def unanswered : List Event :=
  [.queryDns 0, .insertFlow 0, .written 0 true, .timeout 0, .removeFlow 0]

/-- All that is left of an unanswered query is that its id has been handed out. -/
theorem run_unanswered {st : State} (hidle : st.calls 0 = .idle)
    (hflow : st.flows st.nextConid = none) :
    run step st unanswered = some { st with nextConid := st.nextConid + 1 } := by
  have hflows : Function.update st.flows st.nextConid none = st.flows := by
    rw [← hflow, Function.update_eq_self]
  have hcalls : Function.update st.calls 0 .idle = st.calls := by
    rw [← hidle, Function.update_eq_self]
  simp only [unanswered, run_cons, run_nil, step, State.allocate, State.setCall, State.putFlow,
    State.dropFlow, hidle, hflow, Function.update_self, Function.update_idem, Option.bind_some,
    if_true, Call.setRx, hflows, hcalls]

theorem run_unanswered_replicate (n : ℕ) (st : State) (hidle : st.calls 0 = .idle)
    (hflow : ∀ i < n, st.flows (st.nextConid + UInt16.ofNat i) = none) :
    run step st (List.replicate n unanswered).flatten =
      some { st with nextConid := st.nextConid + UInt16.ofNat n } := by
  induction n generalizing st with
  | zero => simp
  | succ n ih =>
    have hshift (i : ℕ) :
        st.nextConid + UInt16.ofNat (i + 1) = st.nextConid + 1 + UInt16.ofNat i := by
      rw [UInt16.ofNat_add, UInt16.ofNat_one, UInt16.add_comm (UInt16.ofNat i), UInt16.add_assoc]
    have hhead : st.flows st.nextConid = none := by simpa using hflow 0 (Nat.succ_pos n)
    rw [List.replicate_succ, List.flatten_cons, run_append, run_unanswered hidle hhead,
      Option.bind_some, ih { st with nextConid := st.nextConid + 1 } hidle fun i hi => ?_]
    · rw [hshift]
    · rw [← hshift]
      exact hflow (i + 1) (Nat.succ_lt_succ hi)

/-- A new pair after all other ids have been used up by unanswered queries. -/
def wrapAround : List Event :=
  [.sendUdp earlyPair, .recordFlow] ++ ((List.replicate 65535 unanswered).flatten ++
    [.sendUdp latePair, .recordFlow])

/-- The state once the early pair is recorded. -/
def early : State := ((State.initial.record earlyPair).putFlow 1 (some (.udp earlyPair.1))).release

theorem early_flows (i : ℕ) (hi : i < 65535) :
    early.flows (early.nextConid + UInt16.ofNat i) = none := by
  have hne : 2 + UInt16.ofNat i ≠ 1 := by
    intro h
    have hnat := congrArg UInt16.toNat h
    simp only [UInt16.toNat_add, UInt16.toNat_ofNat'] at hnat
    change (2 + i % 2 ^ 16) % 2 ^ 16 = 1 at hnat
    omega
  exact Function.update_of_ne hne _ _

/-- The late pair is given the id of the early one, whose packets now go to the late one. -/
theorem conid_shared :
    ∃ st, run step State.initial wrapAround = some st ∧ Live st (.pair earlyPair) 1 ∧
      Live st (.pair latePair) 1 ∧ st.flows 1 = some (.udp latePair.1) ∧ ¬ ConidOwned st := by
  have hend : ∃ st, run step State.initial wrapAround = some st ∧ Live st (.pair earlyPair) 1 ∧
      Live st (.pair latePair) 1 ∧ st.flows 1 = some (.udp latePair.1) := by
    have hearly : run step State.initial [.sendUdp earlyPair, .recordFlow] = some early := rfl
    rw [wrapAround, run_append, hearly, Option.bind_some, run_append,
      run_unanswered_replicate 65535 early rfl early_flows, Option.bind_some]
    exact ⟨_, rfl, ⟨rfl, nofun⟩, ⟨rfl, nofun⟩, rfl⟩
  obtain ⟨st, hrun, hold, hnew, hflow⟩ := hend
  refine ⟨st, hrun, hold, hnew, hflow, fun howned => ?_⟩
  exact absurd ((howned _ _ hold).alone _ hnew) (by decide)

end EasyConnection.Udpgw
