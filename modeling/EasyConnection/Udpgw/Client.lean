import EasyConnection.Async.Run
import EasyConnection.Net.Address

/-! # The multiplexed UDPGW client

All flows of a client share one stream; a 16-bit connection id says whose a packet is. Ids are
handed out by a counter that wraps around. A pair of addresses keeps its id for good, a DNS
query keeps it until it returns. The two maps have their own locks, so tasks are interleaved
between the insertions and removals below.
-/
namespace EasyConnection.Udpgw
open Net

/-- Where the packets of a connection id go: to a local socket, or to the query that waits for
its answer. -/
inductive Flow where
  | udp (source : SocketAddr)
  | dns (q : ℕ)
  deriving DecidableEq

/-- The receiving end of the channel on which a query waits. -/
inductive Rx where
  | pending
  | got (payload : List UInt8)
  | closed
  deriving DecidableEq

/-- Where a call of `query_dns` stands. -/
inductive Call where
  | idle
  | allocated (conid : UInt16)
  | writing (conid : UInt16) (rx : Rx)
  | waiting (conid : UInt16) (rx : Rx)
  | removing (conid : UInt16)
  deriving DecidableEq

namespace Call

/-- The id that the call has been given and may still use. -/
def conid : Call → Option UInt16
  | .idle => none
  | .allocated c => some c
  | .writing c _ => some c
  | .waiting c _ => some c
  | .removing c => some c

/-- The channel on which the call waits. -/
def rx : Call → Option Rx
  | .writing _ rx => some rx
  | .waiting _ rx => some rx
  | _ => none

def setRx (rx : Rx) : Call → Call
  | .writing c .pending => .writing c rx
  | .waiting c .pending => .waiting c rx
  | call => call

/-- The call waits for an answer to its packet. -/
def PendingAt (call : Call) (c : UInt16) : Prop :=
  call = .writing c .pending ∨ call = .waiting c .pending

end Call

/-- The source and the destination of a datagram. -/
abbrev Key := SocketAddr × SocketAddr

structure State where
  nextConid : UInt16
  flows : UInt16 → Option Flow
  keys : Key → Option UInt16
  /-- The call of `send_udp` that holds the lock of `keys` while it waits for that of `flows`. -/
  registering : Option (Key × UInt16)
  calls : ℕ → Call
  /-- The datagrams handed to local sockets, latest first. -/
  replies : List (SocketAddr × List UInt8)

inductive Event where
  /-- `send_udp` looks its pair up and records a new one. -/
  | sendUdp (k : Key)
  /-- `send_udp` inserts the flow of a new pair. -/
  | recordFlow
  /-- `query_dns` takes an id. -/
  | queryDns (q : ℕ)
  | insertFlow (q : ℕ)
  | written (q : ℕ) (ok : Bool)
  /-- `read_loop` takes a data packet from the stream. -/
  | packet (c : UInt16) (payload : List UInt8)
  | timeout (q : ℕ)
  | removeFlow (q : ℕ)
  /-- `query_dns` returns an answer, or that its channel is closed. -/
  | finish (q : ℕ)
  deriving DecidableEq

/-- The steps that may hand out an id. -/
def Event.allocates : Event → Bool
  | .sendUdp _ => true
  | .queryDns _ => true
  | _ => false

namespace State
variable (st : State)

def initial : State := ⟨1, fun _ => none, fun _ => none, none, fun _ => .idle, []⟩

/-- Hand the next id to a new pair, keeping the lock of `keys`. -/
def record (k : Key) : State :=
  { st with
    nextConid := st.nextConid + 1
    keys := Function.update st.keys k (some st.nextConid)
    registering := some (k, st.nextConid) }

def release : State := { st with registering := none }

def setCall (q : ℕ) (call : Call) : State := { st with calls := Function.update st.calls q call }

/-- Hand the next id to a query. -/
def allocate (q : ℕ) : State :=
  { st.setCall q (.allocated st.nextConid) with nextConid := st.nextConid + 1 }

/-- A dropped flow closes the channel of the query that waited on it. -/
def dropFlow : Option Flow → State
  | some (.dns q) => st.setCall q ((st.calls q).setRx .closed)
  | _ => st

/-- Insert a flow or remove one. What was there before is dropped. -/
def putFlow (c : UInt16) (f : Option Flow) : State :=
  { st.dropFlow (st.flows c) with flows := Function.update st.flows c f }

/-- The flow of a query is used up by its answer. -/
def answer (c : UInt16) (q : ℕ) (payload : List UInt8) : State :=
  { st.setCall q ((st.calls q).setRx (.got payload)) with
    flows := Function.update st.flows c none }

/-- The flow of a pair is kept for further datagrams. -/
def deliver (c : UInt16) (source : SocketAddr) (payload : List UInt8) : State :=
  { st with
    flows := Function.update st.flows c (some (.udp source))
    replies := (source, payload) :: st.replies }

end State

def step (st : State) : Event → Option State
  | .sendUdp k =>
    match st.registering, st.keys k with
    | none, some _ => some st
    | none, none => some (st.record k)
    | some _, _ => none
  | .recordFlow =>
    match st.registering with
    | some (k, c) => some (st.putFlow c (some (.udp k.1))).release
    | none => none
  | .queryDns q =>
    match st.calls q with
    | .idle => some (st.allocate q)
    | _ => none
  | .insertFlow q =>
    match st.calls q with
    | .allocated c => some ((st.putFlow c (some (.dns q))).setCall q (.writing c .pending))
    | _ => none
  | .written q ok =>
    match st.calls q with
    | .writing c rx => some (st.setCall q (if ok then .waiting c rx else .removing c))
    | _ => none
  | .packet c payload =>
    match st.flows c with
    | some (.dns q) => some (st.answer c q payload)
    | some (.udp source) => some (st.deliver c source payload)
    | none => some st
  | .timeout q =>
    match st.calls q with
    | .waiting c .pending => some (st.setCall q (.removing c))
    | _ => none
  | .removeFlow q =>
    match st.calls q with
    | .removing c => some ((st.putFlow c none).setCall q .idle)
    | _ => none
  | .finish q =>
    match st.calls q with
    | .waiting _ (.got _) => some (st.setCall q .idle)
    | .waiting _ .closed => some (st.setCall q .idle)
    | _ => none

/-- What the steps do, with what they require of the state. -/
inductive Moves (st : State) : Event → State → Prop
  | known {k : Key} {c : UInt16} (hkey : st.keys k = some c) : Moves st (.sendUdp k) st
  | record {k : Key} (hlock : st.registering = none) (hkey : st.keys k = none) :
      Moves st (.sendUdp k) (st.record k)
  | recordFlow {k : Key} {c : UInt16} (hreg : st.registering = some (k, c)) :
      Moves st .recordFlow (st.putFlow c (some (.udp k.1))).release
  | allocate {q : ℕ} (hcall : st.calls q = .idle) : Moves st (.queryDns q) (st.allocate q)
  | insertFlow {q : ℕ} {c : UInt16} (hcall : st.calls q = .allocated c) :
      Moves st (.insertFlow q) ((st.putFlow c (some (.dns q))).setCall q (.writing c .pending))
  | written {q : ℕ} {c : UInt16} {rx : Rx} {ok : Bool} (hcall : st.calls q = .writing c rx) :
      Moves st (.written q ok) (st.setCall q (if ok then .waiting c rx else .removing c))
  | answer {c : UInt16} {q : ℕ} {payload : List UInt8} (hf : st.flows c = some (.dns q)) :
      Moves st (.packet c payload) (st.answer c q payload)
  | deliver {c : UInt16} {source : SocketAddr} {payload : List UInt8}
      (hf : st.flows c = some (.udp source)) :
      Moves st (.packet c payload) (st.deliver c source payload)
  | unknown {c : UInt16} {payload : List UInt8} (hf : st.flows c = none) :
      Moves st (.packet c payload) st
  | timeout {q : ℕ} {c : UInt16} (hcall : st.calls q = .waiting c .pending) :
      Moves st (.timeout q) (st.setCall q (.removing c))
  | removeFlow {q : ℕ} {c : UInt16} (hcall : st.calls q = .removing c) :
      Moves st (.removeFlow q) ((st.putFlow c none).setCall q .idle)
  | finish {q : ℕ} {c : UInt16} {rx : Rx} (hcall : st.calls q = .waiting c rx)
      (hrx : rx ≠ .pending) : Moves st (.finish q) (st.setCall q .idle)

theorem step_moves {st st' : State} {e : Event} (h : step st e = some st') : Moves st e st' := by
  cases e with
  | sendUdp k =>
    simp only [step] at h
    split at h
    · next hkey =>
      cases h
      exact .known hkey
    · next hlock hkey =>
      cases h
      exact .record hlock hkey
    · cases h
  | packet c payload =>
    simp only [step] at h
    split at h
    · next hf =>
      cases h
      exact .answer hf
    · next hf =>
      cases h
      exact .deliver hf
    · next hf =>
      cases h
      exact .unknown hf
  | finish q =>
    simp only [step] at h
    split at h
    · next hcall =>
      cases h
      exact .finish hcall (by simp)
    · next hcall =>
      cases h
      exact .finish hcall (by simp)
    · cases h
  | recordFlow =>
    simp only [step] at h
    split at h
    · next hreg =>
      cases h
      exact .recordFlow hreg
    · cases h
  | queryDns q | insertFlow q | written q ok | timeout q | removeFlow q =>
    simp only [step] at h
    split at h
    · next hcall =>
      cases h
      constructor
      exact hcall
    · cases h

/-- Someone who waits for packets: a recorded pair, or a call of `query_dns`. -/
inductive Requester where
  | pair (k : Key)
  | query (q : ℕ)
  deriving DecidableEq

def Requester.flow : Requester → Flow
  | .pair k => .udp k.1
  | .query q => .dns q

/-- The requester has been given the id and may still use it. -/
def Holds (st : State) : Requester → UInt16 → Prop
  | .pair k, c => st.keys k = some c
  | .query q, c => (st.calls q).conid = some c

/-- The requester's registration is complete and it waits for packets. -/
def Live (st : State) : Requester → UInt16 → Prop
  | .pair k, c => st.keys k = some c ∧ st.registering ≠ some (k, c)
  | .query q, c => (st.calls q).PendingAt c

end EasyConnection.Udpgw
