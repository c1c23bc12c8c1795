import EasyConnection.Async.LockedWriter
import EasyConnection.Udpgw.Ownership
import EasyConnection.Udpgw.Proto

/-! # The UDPGW client and its gateway

The calls of the client and its keepalive task write their packets to one stream under a lock,
some bytes at a time. The gateway at the other end decodes the stream as the client does, and
answers under the connection ids of the packets that it has decoded. The read loop and the
keepalive task may end at any moment, which only takes steps away.
-/
namespace EasyConnection.Udpgw
open Async Net

/-- A packet with its frame. -/
structure Framed where
  packet : UdpgwPacket
  frame : List UInt8
  encoded : encodeFrame packet = .ok frame

/-- Who writes: the task of a datagram, a DNS query or the keepalive task. -/
inductive Task where
  | datagram (n : ℕ)
  | query (q : ℕ)
  | keepalive
  deriving DecidableEq

/-- What an id has been handed out for. -/
inductive Request where
  | pair (k : Key)
  | query (q : ℕ) (dest : SocketAddr) (query : List UInt8)
  deriving DecidableEq

def Request.flow : Request → Flow
  | .pair k => .udp k.1
  | .query q _ _ => .dns q

structure Link where
  client : State
  wire : SharedStream Task Framed UInt8
  /-- The datagram of the call that holds the lock of `keys`. -/
  registrar : Option (ℕ × List UInt8 × Bool)
  /-- The arguments of the latest call of each `query_dns`. -/
  queries : ℕ → SocketAddr × List UInt8
  /-- What the ids have been handed out for, in this order. -/
  issued : List Request

inductive LinkEvent where
  | sendUdp (n : ℕ) (k : Key) (payload : List UInt8) (dns : Bool)
  | recordFlow
  | queryDns (q : ℕ) (dest : SocketAddr) (query : List UInt8)
  | insertFlow (q : ℕ)
  | keepalive
  | lock (t : Task)
  | accept (t : Task) (n : ℕ)
  | flushed (t : Task)
  | fail (t : Task)
  /-- `read_loop` has decoded a packet of the gateway. -/
  | receive (pkt : UdpgwPacket)
  | timeout (q : ℕ)
  | removeFlow (q : ℕ)
  | finish (q : ℕ)
  deriving DecidableEq

def LinkEvent.fails : LinkEvent → Bool
  | .fail _ => true
  | _ => false

namespace Link
variable (st : Link)

def initial : Link := ⟨.initial, .initial, none, fun _ => (⟨.v4 0, 0⟩, []), []⟩

/-- A step of the client alone. -/
def advance (e : Event) : Option Link := (step st.client e).map fun client => { st with client }

/-- `write_packet` up to the lock. A packet without a frame is not written. -/
def submit (t : Task) (pkt : UdpgwPacket) (refused : Link → Option Link) : Option Link :=
  match h : encodeFrame pkt with
  | .ok frame => (st.wire.submit t ⟨pkt, frame, h⟩).map fun wire => { st with wire }
  | .error _ => refused st

/-- What a query does when its write has ended. -/
def written (ok : Bool) : Task → Option Link
  | .query q => st.advance (.written q ok)
  | _ => some st

/-- What the gateway has decoded of the stream, and why it waits for more. It decodes as `read_loop`
does. -/
def decode : List UdpgwPacket × Option UdpgwError :=
  readLoop (st.wire.sent.length + 1) st.wire.sent

def decoded : List UdpgwPacket := st.decode.1

/-- A new pair of addresses has its id, and the call keeps the lock of `keys`. -/
def register (n : ℕ) (k : Key) (payload : List UInt8) (dns : Bool) : Link :=
  { st with registrar := some (n, payload, dns), issued := st.issued ++ [.pair k] }

/-- A query has its id. -/
def enlist (q : ℕ) (dest : SocketAddr) (query : List UInt8) : Link :=
  { st with
    queries := Function.update st.queries q (dest, query)
    issued := st.issued ++ [.query q dest query] }

def sendUdp (n : ℕ) (k : Key) (payload : List UInt8) (dns : Bool) : Option Link :=
  match st.wire.writers (.datagram n), st.client.keys k with
  | .idle, some c => (st.advance (.sendUdp k)).bind fun st =>
      st.submit (.datagram n) (.data c k.2 payload dns false) some
  | .idle, none => (st.advance (.sendUdp k)).map fun st => st.register n k payload dns
  | _, _ => none

def recordFlow : Option Link :=
  match st.client.registering, st.registrar with
  | some (k, c), some (n, payload, dns) => (st.advance .recordFlow).bind fun st =>
      { st with registrar := none }.submit (.datagram n) (.data c k.2 payload dns false) some
  | _, _ => none

def queryDns (q : ℕ) (dest : SocketAddr) (query : List UInt8) : Option Link :=
  (st.advance (.queryDns q)).map fun st => st.enlist q dest query

def insertFlow (q : ℕ) : Option Link :=
  match (st.client.calls q).conid with
  | some c => (st.advance (.insertFlow q)).bind fun st =>
      st.submit (.query q) (.data c (st.queries q).1 (st.queries q).2 true false)
        (fun st => st.written false (.query q))
  | none => none

def receive (pkt : UdpgwPacket) : Option Link :=
  if pkt.flags &&& flagKeepalive ≠ 0 then some st
  else st.advance (.packet pkt.conid pkt.payload)

def step : LinkEvent → Option Link
  | .sendUdp n k payload dns => st.sendUdp n k payload dns
  | .recordFlow => st.recordFlow
  | .queryDns q dest query => st.queryDns q dest query
  | .insertFlow q => st.insertFlow q
  | .keepalive => st.submit .keepalive (.keepalive 0) some
  | .lock t => (st.wire.lock Framed.frame t).map fun wire => { st with wire }
  | .accept t n => (st.wire.accept t n).map fun wire => { st with wire }
  | .flushed t => (st.wire.finish t).bind fun wire => { st with wire }.written true t
  | .fail t => (st.wire.fail t).bind fun wire => { st with wire }.written false t
  | .receive pkt => st.receive pkt
  | .timeout q => st.advance (.timeout q)
  | .removeFlow q => st.advance (.removeFlow q)
  | .finish q => st.advance (.finish q)

end Link

section Decoding

theorem feed_eq_error {pkt : UdpgwPacket} {frame written left : List UInt8}
    (hframe : encodeFrame pkt = .ok frame) (hcut : written ++ left = frame) (hleft : left ≠ []) :
    (readFrame.feed () written).1 = .error .io := by
  obtain ⟨body, hbody, hle, rfl⟩ := encodeFrame_eq_ok.1 hframe
  have hlength : written.length + left.length = 2 + body.length := by
    rw [← List.length_append, hcut, List.length_append, Codec.leBytes_length]
  have hpos : 0 < left.length := List.length_pos_iff.2 hleft
  by_cases hshort : written.length < 2
  · simp only [readFrame, Reader.feed, if_pos hshort]
  · have hhead : written.take 2 = Codec.leBytes 2 body.length := by
      rw [← List.take_append_of_le_length (Nat.not_lt.1 hshort), hcut,
        List.take_left' (Codec.leBytes_length 2 _)]
    have hlen : Codec.ofLeBytes (Codec.leBytes 2 body.length) = body.length :=
      Codec.ofLeBytes_leBytes 2 _ (Nat.lt_of_le_of_lt hle (by decide))
    have hrest : (written.drop 2).length < body.length := by
      rw [List.length_drop]
      omega
    have hvalid : ¬ (body.length = 0 ∨ body.length > maxFrame) := by
      rw [maxFrame]
      omega
    simp only [readFrame, Reader.feed, if_neg hshort, hhead, hlen, if_neg hvalid, if_pos hrest]

theorem feed_append {pkt : UdpgwPacket} {w w' : List UInt8} {u : Unit}
    (h : readFrame.feed () w = (.ok pkt, u, w')) (v : List UInt8) :
    readFrame.feed () (w ++ v) = (.ok pkt, (), w' ++ v) := by
  by_cases hhead : w.length < 2
  · simp only [readFrame, Reader.feed, if_pos hhead] at h
    cases h
  have hhdr : (w.take 2).length = 2 := List.length_take_of_le (Nat.not_lt.1 hhead)
  rw [← List.take_append_drop 2 w] at h ⊢
  generalize w.take 2 = hdr at h hhdr ⊢
  generalize w.drop 2 = w₁ at h ⊢
  rw [List.append_assoc]
  rw [readFrame, Reader.feed_read_append hhdr] at h ⊢
  dsimp only at h ⊢
  split_ifs at h ⊢ with hvalid
  · cases h
  by_cases hbody : w₁.length < Codec.ofLeBytes hdr
  · simp only [Reader.feed, if_pos hbody] at h
    cases h
  have hlen := List.length_take_of_le (Nat.not_lt.1 hbody)
  rw [← List.take_append_drop (Codec.ofLeBytes hdr) w₁, Reader.feed_read_append hlen] at h
  rw [← List.take_append_drop (Codec.ofLeBytes hdr) w₁, List.append_assoc,
    Reader.feed_read_append hlen]
  simp only [Reader.feed, Prod.mk.injEq] at h ⊢
  exact ⟨h.1, trivial, by rw [h.2.2]⟩

/-- The frames in front of a stream that ends inside a frame. -/
theorem readLoop_framed {messages : List Framed} (h : ∀ m ∈ messages, m.packet.Coherent)
    {tail : List UInt8} (htail : (readFrame.feed () tail).1 = .error .io) {turns : ℕ}
    (hturns : messages.length < turns) :
    readLoop turns (messages.flatMap Framed.frame ++ tail) =
      (messages.map Framed.packet, some .io) := by
  induction turns generalizing messages with
  | zero => omega
  | succ turns ih =>
    cases messages with
    | nil =>
      rw [List.flatMap_nil, List.nil_append, readLoop]
      split
      · next he =>
        rw [he] at htail
        cases htail
        rfl
      · next he =>
        rw [he] at htail
        cases htail
    | cons m messages =>
      rw [List.forall_mem_cons] at h
      rw [List.flatMap_cons, List.append_assoc, readLoop, readFrame_feed h.1 m.encoded]
      simp only [ih h.2 (Nat.lt_of_succ_lt_succ hturns), List.map_cons]

theorem length_le_frames (messages : List Framed) :
    messages.length ≤ (messages.flatMap Framed.frame).length := by
  induction messages with
  | nil => exact Nat.le_refl 0
  | cons m messages ih =>
    obtain ⟨body, -, -, hframe⟩ := encodeFrame_eq_ok.1 m.encoded
    have htwo : 2 ≤ m.frame.length := by
      rw [hframe, List.length_append, Codec.leBytes_length]
      exact Nat.le_add_right 2 _
    rw [List.flatMap_cons, List.length_append, List.length_cons]
    omega

/-- What has been decoded stays decoded when more arrives. -/
theorem readLoop_append {turns turns' : ℕ} (h : turns ≤ turns') (w v : List UInt8) :
    (readLoop turns w).1 <+: (readLoop turns' (w ++ v)).1 := by
  induction turns generalizing turns' w with
  | zero => exact List.nil_prefix
  | succ turns ih =>
    obtain ⟨turns', rfl⟩ : ∃ n, turns' = n + 1 := ⟨turns' - 1, by omega⟩
    rcases hfeed : readFrame.feed () w with ⟨r, u, w'⟩
    cases r with
    | error e =>
      rw [readLoop, hfeed]
      exact List.nil_prefix
    | ok pkt =>
      have hmore : readFrame.feed () (w ++ v) = (.ok pkt, (), w' ++ v) := feed_append hfeed v
      rw [readLoop, hfeed, readLoop, hmore]
      exact List.prefix_cons_inj pkt |>.2 (ih (Nat.le_of_succ_le_succ h) w')

end Decoding

section Wire
variable {st st' : Link} {e : LinkEvent}

/-- What a step without a failing write can do to the stream. -/
inductive WireMoves (s : SharedStream Task Framed UInt8) :
    SharedStream Task Framed UInt8 → Prop where
  | still : WireMoves s s
  | submit {t : Task} {m : Framed} {s' : SharedStream Task Framed UInt8} (hbuilt : m.packet.Built)
      (hs : s.submit t m = some s') : WireMoves s s'
  | lock {t : Task} {s' : SharedStream Task Framed UInt8} (hs : s.lock Framed.frame t = some s') :
      WireMoves s s'
  | accept {t : Task} {n : ℕ} {s' : SharedStream Task Framed UInt8} (hs : s.accept t n = some s') :
      WireMoves s s'
  | finish {t : Task} {s' : SharedStream Task Framed UInt8} (hs : s.finish t = some s') :
      WireMoves s s'

theorem advance_wire {e : Event} (h : st.advance e = some st') : st'.wire = st.wire := by
  obtain ⟨client, -, rfl⟩ := Option.map_eq_some_iff.1 h
  rfl

theorem written_wire {ok : Bool} {t : Task} (h : st.written ok t = some st') :
    st'.wire = st.wire := by
  cases t with
  | query q => exact advance_wire h
  | datagram n => rw [← Option.some.inj h]
  | keepalive => rw [← Option.some.inj h]

theorem submit_wire {t : Task} {pkt : UdpgwPacket} {refused : Link → Option Link}
    (hbuilt : pkt.Built) (h : st.submit t pkt refused = some st')
    (hrefused : refused st = some st' → st'.wire = st.wire) : WireMoves st.wire st'.wire := by
  unfold Link.submit at h
  split at h
  · obtain ⟨wire, hwire, rfl⟩ := Option.map_eq_some_iff.1 h
    exact .submit hbuilt hwire
  · rw [hrefused h]
    exact .still

theorem data_built (c : UInt16) (dest : SocketAddr) (payload : List UInt8) (dns rebind : Bool) :
    (UdpgwPacket.data c dest payload dns rebind).Built :=
  .inr ⟨c, dest, payload, dns, rebind, rfl⟩

theorem step_wire (h : st.step e = some st') (hfails : e.fails = false) :
    WireMoves st.wire st'.wire := by
  cases e with
  | sendUdp n k payload dns =>
    simp only [Link.step, Link.sendUdp] at h
    split at h
    · obtain ⟨st₁, hst₁, h⟩ := Option.bind_eq_some_iff.1 h
      rw [← advance_wire hst₁]
      refine submit_wire (data_built _ _ _ _ _) h fun hsome => ?_
      rw [Option.some.inj hsome]
    · obtain ⟨st₁, hst₁, rfl⟩ := Option.map_eq_some_iff.1 h
      rw [← advance_wire hst₁]
      exact .still
    · cases h
  | recordFlow =>
    simp only [Link.step, Link.recordFlow] at h
    split at h
    · obtain ⟨st₁, hst₁, h⟩ := Option.bind_eq_some_iff.1 h
      rw [← advance_wire hst₁]
      change WireMoves { st₁ with registrar := none }.wire st'.wire
      refine submit_wire (data_built _ _ _ _ _) h fun hsome => ?_
      rw [← Option.some.inj hsome]
    · cases h
  | queryDns q dest query =>
    obtain ⟨st₁, hst₁, rfl⟩ := Option.map_eq_some_iff.1 h
    rw [← advance_wire hst₁]
    exact .still
  | insertFlow q =>
    simp only [Link.step, Link.insertFlow] at h
    split at h
    · obtain ⟨st₁, hst₁, h⟩ := Option.bind_eq_some_iff.1 h
      rw [← advance_wire hst₁]
      exact submit_wire (data_built _ _ _ _ _) h written_wire
    · cases h
  | keepalive =>
    change st.submit .keepalive (.keepalive 0) some = some st' at h
    refine submit_wire (.inl ⟨0, rfl⟩) h fun hsome => ?_
    rw [Option.some.inj hsome]
  | lock t =>
    obtain ⟨wire, hwire, rfl⟩ := Option.map_eq_some_iff.1 h
    exact .lock hwire
  | accept t n =>
    obtain ⟨wire, hwire, rfl⟩ := Option.map_eq_some_iff.1 h
    exact .accept hwire
  | flushed t =>
    obtain ⟨wire, hwire, h⟩ := Option.bind_eq_some_iff.1 h
    rw [written_wire h]
    exact .finish hwire
  | fail t => cases hfails
  | receive pkt =>
    simp only [Link.step, Link.receive] at h
    split_ifs at h
    · rw [Option.some.inj h]
      exact .still
    · rw [advance_wire h]
      exact .still
  | timeout q =>
    rw [advance_wire h]
    exact .still
  | removeFlow q =>
    rw [advance_wire h]
    exact .still
  | finish q =>
    rw [advance_wire h]
    exact .still

theorem WireMoves.whole {s s' : SharedStream Task Framed UInt8} (h : WireMoves s s')
    (hwhole : s.Whole Framed.frame) : s'.Whole Framed.frame := by
  cases h with
  | still => exact hwhole
  | submit _ hs => exact hwhole.submit hs
  | lock hs => exact hwhole.lock hs
  | accept hs => exact hwhole.accept hs
  | finish hs => exact hwhole.finish hs

theorem WireMoves.every_built {s s' : SharedStream Task Framed UInt8} (h : WireMoves s s')
    (hevery : s.Every fun m => m.packet.Built) : s'.Every fun m => m.packet.Built := by
  cases h with
  | still => exact hevery
  | submit hbuilt hs => exact hevery.submit hbuilt hs
  | lock hs => exact hevery.lock hs
  | accept hs => exact hevery.accept hs
  | finish hs => exact hevery.finish hs

/-- The stream is whole frames of packets that the client has built. -/
structure WireSound (st : Link) : Prop where
  whole : st.wire.Whole Framed.frame
  built : st.wire.Every fun m => m.packet.Built

theorem wireSound_run {es : List LinkEvent} (hfails : ∀ e ∈ es, e.fails = false)
    (hrun : run Link.step .initial es = some st) : WireSound st := by
  have htrue : Meets Link.step (fun _ _ => True) .initial es :=
    Meets.of_forall (fun _ _ => trivial) _ _
  have hmeets : Meets Link.step (fun _ e => e.fails = false) .initial es :=
    (htrue.and_labels hfails).mono fun _ _ h => h.2
  refine run_invariant (I := WireSound) ?_ ⟨SharedStream.whole_initial, SharedStream.every_initial⟩
    hmeets hrun
  intro s e s' h he hs
  have hmoves := step_wire hs he
  exact ⟨hmoves.whole h.whole, hmoves.every_built h.built⟩

/-- What the gateway makes of a stream of whole frames: all packets for which the lock was taken,
but for one that is still being written. -/
theorem WireSound.decode_eq (h : WireSound st) :
    st.decode = (st.wire.begun.map Framed.packet, some .io) ∨
    ∃ earlier m, st.wire.begun = earlier ++ [m] ∧ (∃ t, st.wire.holder = some t) ∧
      st.decode = (earlier.map Framed.packet, some .io) := by
  have hcoherent : ∀ m ∈ st.wire.begun, m.packet.Coherent := fun m hm =>
    (h.built.begun m hm).coherent
  rcases h.whole.cut with ⟨earlier, m, written, left, hbegun, hleft, hframe, hsent⟩ | hsent
  · right
    refine ⟨earlier, m, hbegun, ?_, ?_⟩
    · cases hholder : st.wire.holder with
      | some t => exact ⟨t, rfl⟩
      | none =>
        have hfree := h.whole.free hholder
        rw [hsent, hbegun, List.flatMap_append, List.flatMap_singleton, List.append_cancel_left_eq,
          ← hframe] at hfree
        exact absurd (List.self_eq_append_right.1 hfree) hleft
    · rw [Link.decode, hsent]
      refine readLoop_framed (fun m' hm' => ?_) (feed_eq_error m.encoded hframe hleft) ?_
      · exact hcoherent m' (by rw [hbegun]; exact List.mem_append_left _ hm')
      · have := length_le_frames earlier
        rw [List.length_append]
        omega
  · left
    have hnil : (readFrame.feed () []).1 = .error .io := rfl
    have hloop := readLoop_framed hcoherent hnil
      (Nat.lt_succ_of_le (length_le_frames st.wire.begun))
    rwa [List.append_nil, ← hsent] at hloop

/-- In any interleaving of datagrams, queries and keepalives, with any partial acceptance of their
bytes, a gateway that decodes as `read_loop` does gets the packets that the calls have built, each
whole and in the order in which their writers took the lock. Only a packet that is still being
written is missing, and nothing that it meets is malformed. -/
theorem gateway_decodes_packets {es : List LinkEvent} (hfails : ∀ e ∈ es, e.fails = false)
    (hrun : run Link.step .initial es = some st) :
    (∀ m ∈ st.wire.begun, m.packet.Built) ∧ st.decode.2 = some .io ∧
      (st.wire.begun.map Framed.packet = st.decoded ∨
        ∃ pkt t, st.wire.begun.map Framed.packet = st.decoded ++ [pkt] ∧
          st.wire.holder = some t) := by
  have hsound := wireSound_run hfails hrun
  refine ⟨hsound.built.begun, ?_⟩
  rcases hsound.decode_eq with hdecode | ⟨earlier, m, hbegun, ⟨t, ht⟩, hdecode⟩
  · rw [Link.decoded, hdecode]
    exact ⟨rfl, .inl rfl⟩
  · rw [Link.decoded, hdecode, hbegun, List.map_append]
    exact ⟨rfl, .inr ⟨m.packet, t, rfl, ht⟩⟩

/-- A query takes the lock before a datagram that came first, and each writes in two parts. -/
def twoWriters : List LinkEvent :=
  [.sendUdp 0 earlyPair [1, 2] false, .recordFlow, .queryDns 0 earlyPair.2 [3], .insertFlow 0,
    .lock (.query 0), .accept (.query 0) 4, .accept (.query 0) 8, .flushed (.query 0),
    .lock (.datagram 0), .accept (.datagram 0) 5]

theorem gateway_decodes_twoWriters :
    ∃ st, run Link.step .initial twoWriters = some st ∧ st.decode.2 = some .io ∧
      st.wire.begun.map Framed.packet =
        [.data 2 earlyPair.2 [3] true false, .data 1 earlyPair.2 [1, 2] false false] ∧
      st.decoded = [.data 2 earlyPair.2 [3] true false] := by
  have hrun : ∃ st, run Link.step .initial twoWriters = some st ∧
      st.wire.begun.map Framed.packet =
        [.data 2 earlyPair.2 [3] true false, .data 1 earlyPair.2 [1, 2] false false] ∧
      st.decoded.length = 1 := ⟨_, rfl, rfl, by decide⟩
  obtain ⟨st, hrun, hbegun, hone⟩ := hrun
  obtain ⟨-, hwaits, hall | ⟨pkt, t, hpart, -⟩⟩ := gateway_decodes_packets (by decide) hrun
  · rw [hbegun] at hall
    rw [← hall] at hone
    cases hone
  · refine ⟨st, hrun, hwaits, hbegun, ?_⟩
    obtain ⟨first, hfirst⟩ := List.length_eq_one_iff.1 hone
    rw [hbegun, hfirst] at hpart
    rw [hfirst]
    cases hpart
    rfl

end Wire

end EasyConnection.Udpgw
