import EasyConnection.Net.Display
import EasyConnection.Socks.Replies

/-! # The SOCKS client of the VLESS adapter

A VLESS engine listens as a SOCKS5 proxy, and the adapter asks it for each connection. The requests
of the adapter are read by a SOCKS5 server as they are meant, and what follows a reply is left to
the caller.
-/
namespace EasyConnection.Vless.Adapter
open Async Codec Net

section Client

inductive Op where
  | connect
  | writeAll (bytes : List UInt8)
  | readExact (n : ℕ)

/-- A failed call answers with the text of its error. -/
abbrev Ans : Op → Type
  | .connect => Except String Unit
  | .writeAll _ => Except String Unit
  | .readExact _ => Except String (List UInt8)

/-- What the engine has still to send, and what it has been sent. -/
structure TcpStream where
  input : List UInt8
  output : List UInt8

/-- A call fails with an error that the network chooses, or at the end of the stream. -/
def exec : (o : Op) → Option String → TcpStream → TcpStream × Ans o
  | .connect, some e, s | .writeAll _, some e, s => (s, .error e)
  | .readExact _, some e, s => (s, .error e)
  | .connect, none, s => (s, .ok ())
  | .writeAll bytes, none, s => ({ s with output := s.output ++ bytes }, .ok ())
  | .readExact n, none, s =>
    if s.input.length < n then ({ s with input := [] }, .error "early eof")
    else ({ s with input := s.input.drop n }, .ok (s.input.take n))

abbrev AdapterM := ExceptT Socks.SocksError (Prog Op Ans)

def perform (o : Op) : Prog Op Ans (Ans o) := Prog.perform o

def orUpstream {α : Type} (context : String) (p : Prog Op Ans (Except String α)) : AdapterM α :=
  ExceptT.mk do return (← p).mapError fun e => .upstream (context ++ e)

def connect : AdapterM Unit :=
  orUpstream "VLESS engine SOCKS connection: " (perform .connect)

def writeAll (bytes : List UInt8) : AdapterM Unit := orUpstream "" (perform (.writeAll bytes))

def readExact (n : ℕ) : AdapterM (List UInt8) := orUpstream "" (perform (.readExact n))

def destination (host : String) : Except Socks.SocksError (List UInt8) :=
  match parseIpAddr host with
  | some (.v4 ip) => .ok (0x01 :: beBytes 4 ip.toNat)
  | some (.v6 ip) => .ok (0x04 :: beBytes 16 ip.toNat)
  | none =>
    let bytes := Socks.utf8 host
    if bytes = [] ∨ 255 < bytes.length then .error (.upstream "invalid SOCKS destination host")
    else .ok (0x03 :: UInt8.ofNat bytes.length :: bytes)

def request (address : List UInt8) (port : UInt16) : List UInt8 :=
  [0x05, 0x01, 0x00] ++ address ++ beBytes 2 port.toNat

def addressLen (atyp : UInt8) : AdapterM ℕ := do
  if atyp = 0x01 then return 4
  else if atyp = 0x04 then return 16
  else if atyp = 0x03 then
    let len ← readExact 1
    return (Socks.byteAt len 0).toNat
  else throw (.upstream s!"VLESS engine returned invalid SOCKS address type {atyp.toNat}")

/-- The engine's reply, up to the end of the address that it is bound to. -/
def readReply : AdapterM Unit := do
  let reply ← readExact 4
  if Socks.byteAt reply 0 ≠ 0x05 ∨ Socks.byteAt reply 1 ≠ 0x00 then
    throw (.upstream s!"VLESS engine SOCKS connect failed with reply {(Socks.byteAt reply 1).toNat}")
  else
    let addressLen ← addressLen (Socks.byteAt reply 3)
    let _bound ← readExact (addressLen + 2)
    return ()

/-- The stream that is returned is the state in which the program ends. -/
def socksConnect (host : String) (port : UInt16) : AdapterM Unit := do
  connect
  writeAll [0x05, 0x01, 0x00]
  let greeting ← readExact 2
  if greeting ≠ [0x05, 0x00] then
    throw (.upstream ("VLESS engine rejected SOCKS authentication: " ++
      toString (greeting.map UInt8.toNat)))
  else
    let address ← ExceptT.mk (pure (destination host))
    writeAll (request address port)
    readReply

end Client

variable {post : Except Socks.SocksError Unit → TcpStream → Prop}

section Rules
variable {s : TcpStream}

/-- The network raises no error. -/
abbrev Reaches {α : Type} (post : Except Socks.SocksError α → TcpStream → Prop) (x : AdapterM α)
    (s : TcpStream) : Prop :=
  x.run.Ensures exec (fun _ c _ => c = none) post s

theorem connect_reaches (h : post (.ok ()) s) : Reaches post connect s := by
  rintro c rfl
  exact h

theorem writeAll_reaches {bytes : List UInt8}
    (h : post (.ok ()) { s with output := s.output ++ bytes }) :
    Reaches post (writeAll bytes) s := by
  rintro c rfl
  exact h

theorem readExact_reaches {n : ℕ} {bytes rest : List UInt8}
    {post : Except Socks.SocksError (List UInt8) → TcpStream → Prop} (hlen : bytes.length = n)
    (hinput : s.input = bytes ++ rest) (h : post (.ok bytes) { s with input := rest }) :
    Reaches post (readExact n) s := by
  rintro c rfl
  have hlong : ¬ (bytes ++ rest).length < n := by
    rw [List.length_append]
    omega
  simp only [exec, hinput, if_neg hlong, List.take_left' hlen, List.drop_left' hlen]
  exact h

end Rules

variable {host : String}

section Destinations

/-- Names are compared as texts, addresses as addresses. -/
def SameDestination (host host' : String) : Prop :=
  match parseIpAddr host with
  | some ip => parseIpAddr host' = some ip
  | none => host' = host

/-- The address of a request stands for the host that was asked for. -/
theorem destination_address (hne : host ≠ "") (hlen : (Socks.utf8 host).length ≤ 255) :
    ∃ atyp addr host', destination host = .ok (atyp :: addr) ∧
      Socks.Address5 (atyp :: addr) host' ∧ SameDestination host host' := by
  unfold destination SameDestination
  cases hparse : parseIpAddr host with
  | some ip =>
    cases ip with
    | v4 ip =>
      refine ⟨0x01, beBytes 4 ip.toNat, _, rfl, .v4 (beBytes_length 4 _), ?_⟩
      rw [ofBeBytes_beBytes 4 _ ip.isLt, BitVec.ofNat_toNat, BitVec.setWidth_eq]
      exact parseIpAddr_text (.v4 ip)
    | v6 ip =>
      refine ⟨0x04, beBytes 16 ip.toNat, _, rfl, .v6 (beBytes_length 16 _), ?_⟩
      rw [ofBeBytes_beBytes 16 _ ip.isLt, BitVec.ofNat_toNat, BitVec.setWidth_eq]
      exact parseIpAddr_text (.v6 ip)
  | none =>
    have hbytes : ¬ (Socks.utf8 host = [] ∨ 255 < (Socks.utf8 host).length) := by
      rintro (hnil | hlong)
      · have hempty := Socks.fromUtf8_utf8 host
        rw [hnil] at hempty
        exact hne (Option.some.inj hempty).symm
      · omega
    refine ⟨0x03, UInt8.ofNat (Socks.utf8 host).length :: Socks.utf8 host, host, if_neg hbytes, ?_, rfl⟩
    exact .domain (by omega)

end Destinations

section Agreement

theorem socksConnect_reaches {port : UInt16} {address answer : List UInt8}
    (haddress : destination host = .ok address)
    (h : Reaches post readReply ⟨answer, [0x05, 0x01, 0x00] ++ request address port⟩) :
    Reaches post (socksConnect host port) ⟨[0x05, 0x00] ++ answer, []⟩ := by
  refine Prog.ensures_of_then (connect_reaches ?_)
  refine Prog.ensures_of_then (writeAll_reaches ?_)
  refine Prog.ensures_of_then (readExact_reaches rfl rfl ?_)
  simp only [Prog.Then]
  rw [if_neg (by decide), haddress]
  refine Prog.ensures_of_then (Prog.ensures_ret _ |>.2 ?_)
  exact Prog.ensures_of_then (writeAll_reaches h)

def Op.Reads : Op → Prop
  | .readExact _ => True
  | _ => False

theorem only_readExact (n : ℕ) : (readExact n).run.Only Op.Reads := ⟨trivial, fun _ => trivial⟩

theorem only_readReply : readReply.run.Only Op.Reads := by
  refine (only_readExact 4).except_bind fun reply => ?_
  split_ifs
  · trivial
  · refine Prog.Only.except_bind ?_ fun len => (only_readExact _).except_bind fun _ => trivial
    unfold addressLen
    split_ifs
    · trivial
    · trivial
    · exact (only_readExact 1).except_bind fun _ => trivial
    · trivial

/-- Nothing is sent after the request. -/
theorem readReply_output (s : TcpStream) :
    Reaches (fun _ s' => s'.output = s.output) readReply s := by
  refine only_readReply.ensures (fun o c s' ho hs' => ?_) rfl
  cases o with
  | readExact n =>
    cases c with
    | some e => exact hs'
    | none =>
      simp only [exec]
      split_ifs <;> exact hs'
  | _ => exact ho.elim

/-- A reply that grants the request, from any address. -/
def granted (rsv : UInt8) (d : Socks.Destination) (port : UInt16) : List UInt8 :=
  [0x05, 0x00, rsv, d.atyp] ++ d.bytes port

theorem readReply_reaches {s : TcpStream} {rsv : UInt8} {d : Socks.Destination} {port : UInt16}
    {data : List UInt8} (hknown : d.isUnknown = false)
    (hinput : s.input = granted rsv d port ++ data) (h : post (.ok ()) { s with input := data }) :
    Reaches post readReply s := by
  rw [granted, List.append_assoc] at hinput
  refine Prog.ensures_of_then (readExact_reaches rfl hinput ?_)
  simp only [Prog.Then, Socks.byteAt, List.getD_cons_zero, List.getD_cons_succ]
  rw [if_neg (by decide)]
  cases d with
  | v4 addr hlen | v6 addr hlen =>
    refine Prog.ensures_of_then (Prog.ensures_ret _ |>.2 ?_)
    exact Prog.ensures_of_then (readExact_reaches (by simp [Socks.Destination.bytes, hlen]) rfl h)
  | domain name hlen =>
    have hlength : (Socks.Destination.domain name hlen).bytes port ++ data =
        [UInt8.ofNat name.length] ++ ((name ++ beBytes 2 port.toNat) ++ data) := rfl
    refine Prog.ensures_of_then (Prog.ensures_of_then (readExact_reaches rfl hlength ?_))
    have hbound : (name ++ beBytes 2 port.toNat).length =
        (UInt8.ofNat name.length).toNat + 2 := by
      rw [Socks.toNat_length hlen, List.length_append, beBytes_length]
    exact Prog.ensures_of_then (readExact_reaches hbound rfl h)
  | unknown atyp hatyp => cases hknown

theorem granted_reply5 :
    granted 0x00 (.v4 [0, 0, 0, 0] rfl) 0 = Socks.reply5 0x00 := by decide

section Server
open Socks
variable {s : Session}

theorem connectAndRelay_replies (host : String) (port : UInt16) (granted failed : List UInt8) :
    Serves (fun r s' => s'.dialled = s.dialled ++ [(host, port)] ∧ match r with
        | .ok () => ∃ down, s'.output = s.output ++ (granted ++ down)
        | .error _ => s'.output = s.output ++ failed)
      (connectAndRelay host port granted failed) s := by
  refine Prog.ensures_of_then ?_
  rintro ⟨breaks, refuses, up⟩ ⟨-, -⟩
  cases up with
  | error e => exact Prog.ensures_of_then (writeAll_serves ⟨rfl, rfl⟩)
  | ok up =>
    refine Prog.ensures_of_then (writeAll_serves ?_)
    refine Prog.ensures_of_then ?_
    rintro c -
    have houtput : s.output ++ granted ++ (relayBoth [s.input] up).down =
        s.output ++ (granted ++ (relayBoth [s.input] up).down) := List.append_assoc ..
    change Prog.Then Socks.exec _ _ _ (.ok (relayBoth [s.input] up).result) _
    cases hrelay : (relayBoth [s.input] up).result with
    | ok n => exact fun _ _ => ⟨rfl, _, houtput⟩
    | error kind => exact ⟨rfl, _, houtput⟩

theorem handleSocks5_replies {addr rest : List UInt8} {atyp : UInt8} {port : UInt16}
    (haddr : Address5 (atyp :: addr) host) :
    Serves (fun r s' => s'.dialled = [(host, port)] ∧ match r with
        | .ok () => ∃ down, s'.output = [0x05, 0x00] ++ (reply5 0x00 ++ down)
        | .error _ => s'.output = [0x05, 0x00] ++ reply5 0x01)
      (handleSocks5 .none)
      (.start ([0x05, 0x01, 0x00] ++ request (atyp :: addr) port ++ rest)) := by
  have hinput : [0x05, 0x01, 0x00] ++ request (atyp :: addr) port ++ rest =
      [0x05, UInt8.ofNat [(0x00 : UInt8)].length] ++ ([0x00] ++
        ([0x05, 0x01, 0x00, atyp] ++ (addr ++ (beBytes 2 port.toNat ++ rest)))) := by
    simp [request]
  refine Prog.ensures_of_then (Prog.ensures_of_then
    (readGreeting_serves (by decide) hinput (Prog.ensures_of_then (writeAll_serves ?_))))
  refine Prog.ensures_of_then (readExact_serves rfl rfl ?_)
  simp only [Prog.Then, byteAt, List.getD_cons_zero, List.getD_cons_succ]
  rw [if_neg (by decide)]
  refine Prog.ensures_of_then (readAddress_serves haddr rfl ?_)
  simp only [Prog.Then]
  rw [if_neg (by decide)]
  exact connectAndRelay_replies host port _ _

end Server

end Agreement

/-- What the adapter asks for is what a SOCKS5 server dials, and the adapter takes no more from its
stream than the reply. -/
theorem socks_sides_agree {host : String} (port : UInt16) (hne : host ≠ "")
    (hlen : (Socks.utf8 host).length ≤ 255) :
    (∃ sent, (∀ answer, Reaches (fun _ s => s.output = sent) (socksConnect host port)
        ⟨[0x05, 0x00] ++ answer, []⟩) ∧
      ∀ rest, Socks.Serves (fun r s =>
          (∃ host', SameDestination host host' ∧ s.dialled = [(host', port)]) ∧
          (r = .ok () → ∃ down, s.output = [0x05, 0x00] ++ (Socks.reply5 0x00 ++ down) ∧
            Reaches (fun r s => r = .ok () ∧ s.input = down) (socksConnect host port)
              ⟨s.output, []⟩))
        (Socks.handleSocks5 .none) (.start (sent ++ rest))) ∧
    ∀ rsv (d : Socks.Destination) bound data, d.isUnknown = false →
      Reaches (fun r s => r = .ok () ∧ s.input = data) (socksConnect host port)
        ⟨[0x05, 0x00] ++ (granted rsv d bound ++ data), []⟩ := by
  obtain ⟨atyp, addr, host', haddress, haddr, hsame⟩ := destination_address hne hlen
  have hreply : ∀ rsv (d : Socks.Destination) bound data, d.isUnknown = false →
      Reaches (fun r s => r = .ok () ∧ s.input = data) (socksConnect host port)
        ⟨[0x05, 0x00] ++ (granted rsv d bound ++ data), []⟩ :=
    fun rsv d bound data hknown =>
      socksConnect_reaches haddress (readReply_reaches hknown rfl ⟨rfl, rfl⟩)
  refine ⟨⟨[0x05, 0x01, 0x00] ++ request (atyp :: addr) port, fun answer => ?_, fun rest => ?_⟩, hreply⟩
  · exact socksConnect_reaches haddress (readReply_output ⟨answer, _⟩)
  · refine (handleSocks5_replies haddr).mono fun r s hr => ⟨⟨host', hsame, hr.1⟩, ?_⟩
    rintro rfl
    obtain ⟨down, houtput⟩ := hr.2
    refine ⟨down, houtput, ?_⟩
    rw [houtput, ← granted_reply5]
    exact hreply 0x00 _ 0 down rfl

/-- A reply from a name and one from an IPv6 address, each with a byte behind it. -/
theorem replies_of_other_types_taken :
    "example.com" ≠ "" ∧ (Socks.utf8 "example.com").length ≤ 255 ∧
    Reaches (fun r s => r = .ok () ∧ s.input = [0x16]) (socksConnect "example.com" 443)
      ⟨[0x05, 0x00] ++ (granted 0x00 (.domain [0x61, 0x62] (by decide)) 1080 ++ [0x16]), []⟩ ∧
    Reaches (fun r s => r = .ok () ∧ s.input = [0x16]) (socksConnect "2001:db8::1" 443)
      ⟨[0x05, 0x00] ++ (granted 0x00 (.v6 (List.replicate 16 0) rfl) 1080 ++ [0x16]), []⟩ :=
  ⟨by decide, by decide,
    (socks_sides_agree 443 (show "example.com" ≠ "" by decide) (by decide)).2 _ _ _ _ rfl,
    (socks_sides_agree 443 (show "2001:db8::1" ≠ "" by decide) (by decide)).2 _ _ _ _ rfl⟩

end EasyConnection.Vless.Adapter
