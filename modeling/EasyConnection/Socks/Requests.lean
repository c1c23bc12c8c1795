import EasyConnection.Async.Segments
import EasyConnection.Socks.Credentials

/-! # SOCKS requests

The grammar of the two protocols, on the bytes of a stream. Without authentication the proxy
calls the upstream for exactly the streams that begin with a request, with the host and the port
of that request, and relays exactly what follows it.
-/
namespace EasyConnection.Socks
open Async Codec Net

section Grammar

/-- The bytes of an address in a SOCKS5 request, and the host they stand for. -/
inductive Address5 : List UInt8 → String → Prop where
  | v4 {addr : List UInt8} (hlen : addr.length = 4) :
      Address5 (0x01 :: addr) (IpAddr.v4 (BitVec.ofNat 32 (ofBeBytes addr))).text
  | domain {name : String} (hlen : (utf8 name).length < 256) :
      Address5 (0x03 :: UInt8.ofNat (utf8 name).length :: utf8 name) name
  | v6 {addr : List UInt8} (hlen : addr.length = 16) :
      Address5 (0x04 :: addr) (IpAddr.v6 (BitVec.ofNat 128 (ofBeBytes addr))).text

/-- A greeting that offers to go without authentication, and a request to connect. -/
def Request5 (bytes : List UInt8) (host : String) (port : UInt16) (rest : List UInt8) : Prop :=
  ∃ (methods : List UInt8) (rsv : UInt8) (addr : List UInt8), methods.length < 256 ∧
    0x00 ∈ methods ∧ Address5 addr host ∧
    bytes = [0x05, UInt8.ofNat methods.length] ++ methods ++ [0x05, 0x01, rsv] ++ addr ++
      beBytes 2 port.toNat ++ rest

/-- The address of a SOCKS4 request, what follows the user id, and the host that the two stand
for. -/
inductive Host4 : List UInt8 → List UInt8 → String → Prop where
  | ip {addr : List UInt8} (hlen : addr.length = 4) (hip : ¬ ∃ x, x ≠ 0 ∧ addr = [0, 0, 0, x]) :
      Host4 addr [] (IpAddr.v4 (BitVec.ofNat 32 (ofBeBytes addr))).text
  | domain {x : UInt8} {name : String} (hx : x ≠ 0) (hnul : 0 ∉ utf8 name)
      (hlen : (utf8 name).length ≤ 255) : Host4 [0, 0, 0, x] (utf8 name ++ [0]) name

def Request4 (bytes : List UInt8) (host : String) (port : UInt16) (rest : List UInt8) : Prop :=
  ∃ addr userid name : List UInt8, 0 ∉ userid ∧ userid.length ≤ 512 ∧ Host4 addr name host ∧
    bytes = [0x04, 0x01] ++ beBytes 2 port.toNat ++ addr ++ userid ++ [0] ++ name ++ rest

/-- The stream begins with a request for the host and the port, and goes on with `rest`. -/
def Request (bytes : List UInt8) (host : String) (port : UInt16) (rest : List UInt8) : Prop :=
  Request5 bytes host port rest ∨ Request4 bytes host port rest

theorem fields_ofBeBytes (a b c d : UInt8) :
    fields 8 4 (BitVec.ofNat 32 (ofBeBytes [a, b, c, d])) =
      [a.toNat, b.toNat, c.toNat, d.toNat] := by
  have ha := a.toNat_lt
  have hb := b.toNat_lt
  have hc := c.toNat_lt
  have hd := d.toNat_lt
  have hvalue : ofBeBytes [a, b, c, d] =
      d.toNat + 256 * (c.toNat + 256 * (b.toNat + 256 * a.toNat)) := rfl
  simp only [fields, List.range_succ, List.range_zero, List.nil_append, List.map_cons,
    List.map_nil, List.cons_append, BitVec.toNat_ofNat, hvalue]
  norm_num
  omega

theorem dotted_eq_text {addr : List UInt8} (hlen : addr.length = 4) :
    dotted addr = (IpAddr.v4 (BitVec.ofNat 32 (ofBeBytes addr))).text := by
  match addr, hlen with
  | [a, b, c, d], _ => rw [IpAddr.text, v4Text, fields_ofBeBytes, dotted]; rfl

end Grammar

/-- The client neither breaks the connection nor refuses what it is sent. -/
def Quiet (_ : Op) (c : Choice) (_ : Session) : Prop := c.breaks = none ∧ c.refuses = none

abbrev Serves {α : Type} (post : Except SocksError α → Session → Prop) (x : SocksM α)
    (s : Session) : Prop :=
  x.run.Ensures exec Quiet post s

/-! ## Every call of the upstream is for a request -/

variable {post : Except SocksError (List UInt8) → Session → Prop}

section Sound
variable {s : Session}

end Sound

/-! ## Every request is served -/

section Complete
variable {s : Session}

theorem readExact_serves {bytes rest : List UInt8} {n : ℕ} (hlen : bytes.length = n)
    (hinput : s.input = bytes ++ rest) (hok : post (.ok bytes) { s with input := rest }) :
    Serves post (readExact n) s := by
  rintro ⟨breaks, refuses, upstream⟩ ⟨rfl, -⟩
  have hlong : ¬ (bytes ++ rest).length < n := by
    rw [List.length_append]
    omega
  simp only [exec, hinput, if_neg hlong, List.take_left' hlen, List.drop_left' hlen]
  exact hok

theorem readByte_serves {b : UInt8} {rest : List UInt8}
    {post : Except SocksError UInt8 → Session → Prop} (hinput : s.input = b :: rest)
    (hok : post (.ok b) { s with input := rest }) : Serves post readByte s := by
  have hone : s.input = [b] ++ rest := hinput
  exact Prog.ensures_of_then (readExact_serves rfl hone hok)

theorem writeAll_serves {bytes : List UInt8} {post : Except SocksError Unit → Session → Prop}
    (hok : post (.ok ()) { s with output := s.output ++ bytes }) :
    Serves post (writeAll bytes) s := by
  rintro ⟨breaks, refuses, upstream⟩ ⟨-, rfl⟩
  exact hok

theorem readPort_serves {port : UInt16} {rest : List UInt8}
    {post : Except SocksError UInt16 → Session → Prop}
    (hinput : s.input = beBytes 2 port.toNat ++ rest)
    (hok : post (.ok port) { s with input := rest }) : Serves post readPort s := by
  refine Prog.ensures_of_then (readExact_serves (beBytes_length 2 _) hinput ?_)
  rw [← UInt16.ofNat_toNat (x := port), ← ofBeBytes_beBytes 2 _ port.toNat_lt] at hok
  exact hok

theorem toNat_length {bytes : List UInt8} (h : bytes.length < 256) :
    (UInt8.ofNat bytes.length).toNat = bytes.length := by
  rw [UInt8.toNat_ofNat']
  omega

variable {host : String}

theorem readAddress_serves {atyp : UInt8} {addr rest : List UInt8} {port : UInt16}
    {post : Except SocksError (String × UInt16) → Session → Prop}
    (haddr : Address5 (atyp :: addr) host)
    (hinput : s.input = addr ++ (beBytes 2 port.toNat ++ rest))
    (hok : post (.ok (host, port)) { s with input := rest }) :
    Serves post (readAddress atyp) s := by
  cases haddr with
  | v4 hlen =>
    refine Prog.ensures_of_then (readExact_serves hlen hinput ?_)
    refine Prog.ensures_of_then (readPort_serves rfl ?_)
    rw [dotted_eq_text hlen]
    exact hok
  | domain hlen =>
    refine Prog.ensures_of_then (readByte_serves hinput ?_)
    refine Prog.ensures_of_then (readExact_serves (toNat_length hlen).symm rfl ?_)
    refine Prog.ensures_of_then (readPort_serves rfl ?_)
    dsimp only
    rw [fromUtf8_utf8]
    exact hok
  | v6 hlen =>
    refine Prog.ensures_of_then (readExact_serves hlen hinput ?_)
    refine Prog.ensures_of_then (readPort_serves rfl ?_)
    exact hok

/-- What a request leads to: one call of the upstream and, if it stands and the relay does not
break, a relay of all that follows. -/
def Served (host : String) (port : UInt16) (rest : List UInt8) (r : Except SocksError Unit)
    (s : Session) : Prop :=
  s.dialled = [(host, port)] ∧ (r = .ok () → s.upstream.fault = none → s.toUpstream = rest)

theorem readGreeting_serves {methods rest : List UInt8} (hlen : methods.length < 256)
    (hinput : s.input = [0x05, UInt8.ofNat methods.length] ++ (methods ++ rest))
    (hok : post (.ok methods) { s with input := rest }) : Serves post readGreeting s := by
  refine Prog.ensures_of_then (readExact_serves rfl hinput ?_)
  simp only [Prog.Then, byteAt, List.getD_cons_zero, List.getD_cons_succ, toNat_length hlen]
  rw [if_neg (by decide)]
  split_ifs with hpos
  · exact readExact_serves rfl rfl hok
  · obtain rfl : methods = [] := List.length_eq_zero_iff.1 (by omega)
    exact hok

end Complete

/-! ## Segments -/

/-- A client whose bytes arrive in segments. -/
structure Conversation where
  stream : Segments UInt8
  output : List UInt8
  dialled : List (String × UInt16)
  upstream : Upstream
  toUpstream : List UInt8
  recorded : Option (ℕ × ℕ)

namespace Conversation

def start (segments : List (List UInt8)) : Conversation :=
  ⟨.ofList segments, [], [], ⟨[], none⟩, [], none⟩

/-- The session with the bytes in one piece. -/
def session (v : Conversation) : Session :=
  ⟨v.stream.pending, v.output, v.dialled, v.upstream, v.toUpstream, v.recorded⟩

/-- `exec` on the segments: an exact read polls the stream until it has its bytes, and the byte
that is put back is returned by a poll of its own. -/
def exec : (o : Op) → Choice → Conversation → Conversation × Ans o
  | .readExact n, c, v =>
    match c.breaks with
    | some kind => (v, .error kind)
    | none =>
      let p := v.stream.fill n n
      if p.1.length < n then ({ v with stream := p.2 }, .error .other)
      else ({ v with stream := p.2 }, .ok p.1)
  | .unread b, _, v => ({ v with stream := v.stream.unread b }, ())
  | .writeAll bytes, c, v =>
    match c.refuses with
    | some kind => (v, .error kind)
    | none => ({ v with output := v.output ++ bytes }, .ok ())
  | .connect host port, c, v =>
    match c.upstream with
    | .ok up => ({ v with dialled := v.dialled ++ [(host, port)], upstream := up }, .ok ())
    | .error e => ({ v with dialled := v.dialled ++ [(host, port)] }, .error e)
  | .relayBoth, _, v =>
    let relayed := relayBoth (v.stream.putBack :: v.stream.arriving) v.upstream
    ({ v with stream := .ofList [], output := v.output ++ relayed.down, toUpstream := relayed.up },
      relayed.result)
  | .recordRelay up down, _, v => ({ v with recorded := some (up, down) }, ())

theorem relayBoth_flatten (segments : List (List UInt8)) (upstream : Upstream) :
    relayBoth segments upstream = relayBoth [segments.flatten] upstream := by
  simp only [relayBoth, List.flatten_singleton]

/-- How the bytes are cut makes no difference to any call. -/
theorem exec_session (o : Op) (c : Choice) (v : Conversation) :
    ((exec o c v).1.session, (exec o c v).2) = Socks.exec o c v.session := by
  cases o with
  | readExact n =>
    obtain ⟨htake, hdrop⟩ := Segments.fill_pending (Nat.le_refl n) v.stream
    cases hc : c.breaks with
    | some kind => simp [exec, Socks.exec, hc]
    | none =>
      have hshort : (v.stream.pending.take n).length < n ↔ v.stream.pending.length < n := by
        rw [List.length_take]
        omega
      by_cases hlen : v.stream.pending.length < n
      · have hnil : v.stream.pending.drop n = [] := List.drop_of_length_le hlen.le
        simp only [exec, Socks.exec, hc, session, htake, hshort, hlen, if_true, hdrop, hnil]
      · simp only [exec, Socks.exec, hc, session, htake, hshort, hlen, if_false, hdrop]
  | unread b => rfl
  | writeAll bytes =>
    cases hc : c.refuses with
    | some kind => simp [exec, Socks.exec, hc]
    | none => simp [exec, Socks.exec, hc, session]
  | connect host port =>
    cases hc : c.upstream with
    | ok up => simp [exec, Socks.exec, hc, session]
    | error e => simp [exec, Socks.exec, hc, session]
  | relayBoth =>
    have hpending : (v.stream.putBack :: v.stream.arriving).flatten = v.stream.pending := rfl
    simp only [exec, Socks.exec, session]
    rw [relayBoth_flatten (v.stream.putBack :: v.stream.arriving), hpending]
    rfl
  | recordRelay up down => rfl

end Conversation

end EasyConnection.Socks
