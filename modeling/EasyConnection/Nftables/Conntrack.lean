import EasyConnection.Async.Run
import EasyConnection.Nftables.Output

/-! # The table under the connection tracker

A run starts with whatever the connection tracker knew when the table was installed. The nat
chain is consulted for flows that the tracker does not know; a known flow keeps the
redirection it was given, and a flow that is older than the table was given none.
-/
namespace EasyConnection.Nftables
open Net Async

structure Flow where
  proto : Proto
  src : IpAddr
  sport : UInt16
  dst : IpAddr
  dport : UInt16
  deriving DecidableEq

def Packet.flow (p : Packet) : Flow := ⟨p.proto, p.src, p.sport, p.dst, p.dport⟩

/-- What the tracker keeps of a flow: its redirection, and whether an answer has been seen. -/
structure Entry where
  port : Option UInt16
  replied : Bool
  deriving DecidableEq

def Entry.state (e : Entry) : CtState := if e.replied then .established else .new

structure NetState where
  tracked : Flow → Option Entry
  /-- The packets that have left, latest first. -/
  sent : List Packet

inductive NetEvent where
  | output (p : Packet) (ct : CtState)
  | reply (f : Flow)
  /-- A host outside opens a connection to this one; `f` is the way of the answers. -/
  | incoming (f : Flow)
  | expire (f : Flow)
  deriving DecidableEq

/-- The redirection that applies to a packet. A packet that the tracker does not follow is not
translated. -/
def NetState.port (c : Chains) (st : NetState) (p : Packet) (ct : CtState) : Option UInt16 :=
  match st.tracked p.flow with
  | some e => e.port
  | none => if ct = .new ∨ ct = .related then natPort c ct p else none

/-- The tracker's word for a packet: a known flow has the state of its entry, an unknown one
is not established. -/
def NetState.classifies (st : NetState) (p : Packet) (ct : CtState) : Bool :=
  match st.tracked p.flow with
  | some e => ct == e.state
  | none => ct != .established

/-- An accepted packet of an unknown flow makes the flow known. -/
def NetState.confirm (st : NetState) (p : Packet) (ct : CtState) (port : Option UInt16) :
    NetState :=
  if (st.tracked p.flow).isNone ∧ (ct = .new ∨ ct = .related) then
    { st with tracked := Function.update st.tracked p.flow (some ⟨port, false⟩) }
  else st

def netStep (c : Chains) (st : NetState) : NetEvent → Option NetState
  | .output p ct =>
    if st.classifies p ct then
      match filtered c ct p (st.port c p ct) with
      | .rejected => some st
      | .sent q => some { st.confirm p ct (st.port c p ct) with sent := q :: st.sent }
    else none
  | .reply f =>
    match st.tracked f with
    | some e => some { st with
        tracked := Function.update st.tracked f (some { e with replied := true }) }
    | none => none
  | .incoming f =>
    -- an answer to the outside is established from its first packet on, and is not translated
    match st.tracked f with
    | some _ => none
    | none => some { st with tracked := Function.update st.tracked f (some ⟨none, true⟩) }
  | .expire f => some { st with tracked := Function.update st.tracked f none }

/-- A packet that the filter chain lets pass for its connection state is exempt, or its flow
has been redirected. -/
def Covered (t : TableArgs) (c : Chains) (st : NetState) : NetEvent → Prop
  | .output p ct => (ct = .established ∨ ct = .related) →
      Exempt t p ∨ (st.port c p ct).isSome = true
  | _ => True

instance (t : TableArgs) (c : Chains) (st : NetState) : (e : NetEvent) → Decidable (Covered t c st e)
  | .output _ _ => inferInstanceAs (Decidable (_ → _))
  | .reply _ => inferInstanceAs (Decidable True)
  | .incoming _ => inferInstanceAs (Decidable True)
  | .expire _ => inferInstanceAs (Decidable True)

/-- Nothing has left but what is exempt. -/
def Contained (t : TableArgs) (st : NetState) : Prop := ∀ q ∈ st.sent, Exempt t q

section Step
variable {t : TableArgs} (hkill : t.killSwitch = true) {st st' : NetState}
include hkill

/-- With the kill switch, a packet leaves exempt exactly when it is covered. -/
theorem filtered_exempt {p : Packet} {ct : CtState} {port : Option UInt16} {q : Packet}
    (h : filtered t.chains ct p port = .sent q) :
    Exempt t q ↔ ((ct = .established ∨ ct = .related) → Exempt t p ∨ port.isSome = true) := by
  cases port with
  | some port =>
    rw [filtered_redirect, Fate.sent.injEq] at h
    subst h
    simp [exempt_redirectTo]
  | none =>
    change (if accepts t.chains ct p then Fate.sent p else .rejected) = .sent q at h
    split_ifs at h with haccept
    rw [Fate.sent.injEq] at h
    subst h
    rw [accepts_eq] at haccept
    simp only [hkill, or_true, not_true_eq_false, or_false] at haccept
    constructor
    · intro hex _
      exact .inl hex
    · intro hcov
      rcases haccept with hct | hex
      · exact (hcov hct).resolve_right (by simp)
      · exact hex

theorem contained_step {e : NetEvent} (hstep : netStep t.chains st e = some st') :
    Contained t st' ↔ Contained t st ∧ Covered t t.chains st e := by
  cases e with
  | output p ct =>
    simp only [netStep, Option.ite_none_right_eq_some] at hstep
    obtain ⟨_, hstep⟩ := hstep
    split at hstep
    · next hrej =>
      obtain rfl := Option.some.inj hstep
      have hcov : Covered t t.chains st (.output p ct) := by
        intro hct
        by_contra hno
        have haccept : accepts t.chains ct (p.translate (st.port t.chains p ct)) = true := by
          rw [accepts_eq]
          exact .inl hct
        simp [filtered, haccept] at hrej
      simp [hcov]
    · next q hsent =>
      obtain rfl := Option.some.inj hstep
      have hq := filtered_exempt hkill hsent
      simp only [Contained, List.forall_mem_cons]
      rw [hq, and_comm]
      rfl
  | reply f =>
    simp only [netStep] at hstep
    split at hstep
    · obtain rfl := Option.some.inj hstep
      simp [Contained, Covered]
    · cases hstep
  | incoming f =>
    simp only [netStep] at hstep
    split at hstep
    · cases hstep
    · obtain rfl := Option.some.inj hstep
      simp [Contained, Covered]
  | expire f =>
    obtain rfl := Option.some.inj hstep
    simp [Contained, Covered]

theorem contained_run {es : List NetEvent} (hrun : run (netStep t.chains) st es = some st') :
    Contained t st' ↔ Contained t st ∧ Meets (netStep t.chains) (Covered t t.chains) st es := by
  induction es generalizing st with
  | nil =>
    obtain rfl := Option.some.inj hrun
    simp [Meets]
  | cons e es ih =>
    rw [run_cons, Option.bind_eq_some_iff] at hrun
    obtain ⟨mid, hmid, hrun⟩ := hrun
    simp only [Meets, hmid]
    rw [ih hrun, contained_step hkill hmid, and_assoc]

end Step

/-- With the kill switch on, the script has chains under which a run, from any connections open
before the table was installed, lets nothing out but exempt packets exactly when each of its
packets in an established or related flow is exempt or belongs to a redirected flow. -/
theorem kill_switch_contains (t : TableArgs) (hkill : t.killSwitch = true) :
    ∃ c, readTable (renderTable t) = some c ∧
      ∀ (open₀ : Flow → Option Entry) (es : List NetEvent) (st : NetState),
        run (netStep c) ⟨open₀, []⟩ es = some st →
          (Contained t st ↔ Meets (netStep c) (Covered t c) ⟨open₀, []⟩ es) := by
  refine ⟨t.chains, readTable_renderTable t, fun open₀ es st hrun => ?_⟩
  have hstart : Contained t ⟨open₀, []⟩ := fun q hq => absurd hq List.not_mem_nil
  rw [contained_run hkill hrun]
  simp [hstart]

/-- A connection to a web server, opened before the table and already answered. -/
def oldConnection (f : Flow) : Option Entry :=
  if f = samplePacket.flow then some ⟨none, true⟩ else none

/-- A new connection to the same server is redirected. -/
theorem kill_switch_contains_new :
    ∃ c st, readTable (renderTable sampleTable) = some c ∧
      run (netStep c) ⟨fun _ => none, []⟩ [.output samplePacket .new] = some st ∧
      Contained sampleTable st := by
  obtain ⟨c, hread, hcontains⟩ := kill_switch_contains sampleTable rfl
  obtain rfl := Option.some.inj ((readTable_renderTable sampleTable).symm.trans hread)
  exact ⟨_, _, hread, rfl, (hcontains (fun _ => none) [.output samplePacket .new] _ rfl).2
    (by decide)⟩

/-- A connection that is older than the table goes on in the clear. -/
theorem kill_switch_leaks_old_connection :
    ¬ ∀ (t : TableArgs) (c : Chains) (open₀ : Flow → Option Entry) (es : List NetEvent)
      (st : NetState), t.killSwitch = true → readTable (renderTable t) = some c →
        run (netStep c) ⟨open₀, []⟩ es = some st → Contained t st := by
  intro h
  have hbad := h sampleTable _ oldConnection [.output samplePacket .established] _ rfl
    (readTable_renderTable _) rfl
  exact absurd (hbad samplePacket (List.mem_cons_self)) (by decide)

end EasyConnection.Nftables
