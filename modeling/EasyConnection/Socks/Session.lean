import EasyConnection.Async.Prog
import EasyConnection.Codec.Bytes
import EasyConnection.Net.Address
import EasyConnection.Socks.HttpConnect

/-! # The SOCKS proxy

A client of the SOCKS listener is served by its first byte: SOCKS5, or SOCKS4 with its extension
4a. A handler reads exact byte counts, so how the client's bytes arrive makes no difference. Each
access to the client or the upstream is one call, which may fail.
-/
namespace EasyConnection.Socks
open Async Codec

structure Socks5Auth where
  username : Option String
  password : Option String
  deriving DecidableEq

namespace Socks5Auth

def none : Socks5Auth := ⟨.none, .none⟩

def required (user pass : String) : Socks5Auth := ⟨some user, some pass⟩

end Socks5Auth

inductive Op where
  | readExact (n : ℕ)
  /-- Put a byte back in front of the stream. -/
  | unread (b : UInt8)
  | writeAll (bytes : List UInt8)
  | connect (host : String) (port : UInt16)
  | relayBoth
  | recordRelay (up down : ℕ)

abbrev Ans : Op → Type
  | .readExact _ => Except IoErrorKind (List UInt8)
  | .unread _ => Unit
  | .writeAll _ => Except IoErrorKind Unit
  | .connect _ _ => Except SocksError Unit
  | .relayBoth => Except IoErrorKind (ℕ × ℕ)
  | .recordRelay _ _ => Unit

/-- One client: what it has still to send, what it has been sent, the calls of the upstream's
`connect`, and what has been relayed. -/
structure Session where
  input : List UInt8
  output : List UInt8
  dialled : List (String × UInt16)
  upstream : Upstream
  toUpstream : List UInt8
  recorded : Option (ℕ × ℕ)

def Session.start (input : List UInt8) : Session := ⟨input, [], [], ⟨[], none⟩, [], none⟩

/-- How a call goes that does not depend on the bytes alone. -/
structure Choice where
  breaks : Option IoErrorKind
  refuses : Option IoErrorKind
  upstream : Except SocksError Upstream

def exec : (o : Op) → Choice → Session → Session × Ans o
  | .readExact n, c, s =>
    match c.breaks with
    | some kind => (s, .error kind)
    | none =>
      if s.input.length < n then ({ s with input := [] }, .error .other)
      else ({ s with input := s.input.drop n }, .ok (s.input.take n))
  | .unread b, _, s => ({ s with input := b :: s.input }, ())
  | .writeAll bytes, c, s =>
    match c.refuses with
    | some kind => (s, .error kind)
    | none => ({ s with output := s.output ++ bytes }, .ok ())
  | .connect host port, c, s =>
    match c.upstream with
    | .ok up => ({ s with dialled := s.dialled ++ [(host, port)], upstream := up }, .ok ())
    | .error e => ({ s with dialled := s.dialled ++ [(host, port)] }, .error e)
  | .relayBoth, _, s =>
    let relayed := relayBoth [s.input] s.upstream
    ({ s with input := [], output := s.output ++ relayed.down, toUpstream := relayed.up },
      relayed.result)
  | .recordRelay up down, _, s => ({ s with recorded := some (up, down) }, ())

abbrev SocksM := ExceptT SocksError (Prog Op Ans)

def perform (o : Op) : Prog Op Ans (Ans o) := Prog.perform o

/-- An error of the client's stream ends the handler. -/
def orIo {α : Type} (p : Prog Op Ans (Except IoErrorKind α)) : SocksM α :=
  ExceptT.mk do return (← p).mapError SocksError.io

def readExact (n : ℕ) : SocksM (List UInt8) := orIo (perform (.readExact n))

def writeAll (bytes : List UInt8) : SocksM Unit := orIo (perform (.writeAll bytes))

/-- Call the upstream, report how it went and relay until both sides have ended. -/
def connectAndRelay (host : String) (port : UInt16) (granted failed : List UInt8) : SocksM Unit := do
  match ← liftM (perform (.connect host port)) with
  | .ok () =>
    writeAll granted
    match ← liftM (perform .relayBoth) with
    | .ok (up, down) => liftM (perform (.recordRelay up down))
    | .error _ => return ()
  | .error e =>
    writeAll failed
    throw e

def byteAt (bytes : List UInt8) (i : ℕ) : UInt8 := bytes.getD i 0

def readByte : SocksM UInt8 := do
  let b ← readExact 1
  return byteAt b 0

def dotted (addr : List UInt8) : String := ".".intercalate (addr.map fun b => toString b.toNat)

def readPort : SocksM UInt16 := do
  let port ← readExact 2
  return UInt16.ofNat (ofBeBytes port)

section Socks5

/-- The method that the server selects. -/
def Socks5Auth.select (auth : Socks5Auth) (methods : List UInt8) : UInt8 :=
  if auth.username.isSome then
    if methods.contains 0x02 then 0x02 else 0xFF
  else if methods.contains 0x00 then 0x00 else 0xFF

def Socks5Auth.accepts (auth : Socks5Auth) (uname pass : List UInt8) : Bool :=
  match auth.username, auth.password with
  | some u, some p => utf8 u == uname && utf8 p == pass
  | _, _ => false

/-- The methods of a greeting. -/
def readGreeting : SocksM (List UInt8) := do
  let header ← readExact 2
  if byteAt header 0 ≠ 0x05 then
    throw (.protocol s!"invalid socks version {(byteAt header 0).toNat}")
  else
    let nmethods := (byteAt header 1).toNat
    if 0 < nmethods then readExact nmethods else return []

def checkUserPass (auth : Socks5Auth) : SocksM Unit := do
  let _ver ← readByte
  let ulen ← readByte
  let uname ← readExact ulen.toNat
  let plen ← readByte
  let pass ← readExact plen.toNat
  let ok := auth.accepts uname pass
  writeAll [0x01, if ok then 0x00 else 0x01]
  if ok then return () else throw .authFailed

def negotiate (auth : Socks5Auth) : SocksM Unit := do
  let methods ← readGreeting
  let selected := auth.select methods
  writeAll [0x05, selected]
  if selected = 0xFF then throw .authRequired
  else if selected = 0x02 then checkUserPass auth
  else return ()

def readAddress (atyp : UInt8) : SocksM (String × UInt16) := do
  if atyp = 0x01 then
    let addr ← readExact 4
    let port ← readPort
    return (dotted addr, port)
  else if atyp = 0x03 then
    let len ← readByte
    let domain ← readExact len.toNat
    let port ← readPort
    match fromUtf8 domain with
    | some host => return (host, port)
    | none => throw (.protocol "invalid domain utf-8")
  else if atyp = 0x04 then
    let addr ← readExact 16
    let port ← readPort
    return (Net.v6Text (BitVec.ofNat 128 (ofBeBytes addr)), port)
  else throw .addressNotSupported

def reply5 (rep : UInt8) : List UInt8 := [0x05, rep, 0x00, 0x01, 0, 0, 0, 0, 0, 0]

/-- The request after the negotiation. The address is read before the command is looked at. -/
def request5 : SocksM Unit := do
  let req ← readExact 4
  if byteAt req 0 ≠ 0x05 then throw (.protocol "bad request version")
  else
    let (host, port) ← readAddress (byteAt req 3)
    if byteAt req 1 ≠ 0x01 then
      writeAll (reply5 0x07)
      throw .commandNotSupported
    else connectAndRelay host port (reply5 0x00) (reply5 0x01)

def handleSocks5 (auth : Socks5Auth) : SocksM Unit := do
  negotiate auth
  request5

end Socks5

section Socks4

/-- Bytes up to a zero byte. The one that leaves no room is an error. -/
def readTerminated (tooLong : String) : (room : ℕ) → SocksM (List UInt8)
  | 0 => throw (.protocol tooLong)
  | room + 1 => do
    let b ← readByte
    if b = 0 then return []
    else if room = 0 then throw (.protocol tooLong)
    else
      let rest ← readTerminated tooLong room
      return b :: rest

def reply4 (code : UInt8) : List UInt8 := [0x00, code, 0, 0, 0, 0, 0, 0]

/-- SOCKS4a sends a name behind an address whose first three bytes alone are zero. -/
def readHost4 (ip : List UInt8) : SocksM String := do
  if byteAt ip 0 = 0 ∧ byteAt ip 1 = 0 ∧ byteAt ip 2 = 0 ∧ byteAt ip 3 ≠ 0 then
    let domain ← readTerminated "domain too long" 256
    match fromUtf8 domain with
    | some host => return host
    | none => throw (.protocol "invalid domain")
  else return dotted ip

def handleSocks4 : SocksM Unit := do
  let hdr ← readExact 8
  if byteAt hdr 0 ≠ 0x04 then throw (.protocol "not socks4")
  else if byteAt hdr 1 ≠ 0x01 then
    writeAll (reply4 0x5B)
    throw .commandNotSupported
  else
    let port := UInt16.ofNat (ofBeBytes [byteAt hdr 2, byteAt hdr 3])
    let _userid ← readTerminated "userid too long" 513
    let host ← readHost4 (hdr.drop 4)
    connectAndRelay host port (reply4 0x5A) (reply4 0x5B)

end Socks4

def dispatchSocks (auth : Socks5Auth) : SocksM Unit := do
  let ver ← readByte
  if ver = 0x05 then
    liftM (perform (.unread ver))
    handleSocks5 auth
  else if ver = 0x04 then
    liftM (perform (.unread ver))
    handleSocks4
  else
    throw (.protocol ("unsupported proxy version 0x" ++ String.ofList (Nat.toDigits 16 ver.toNat)))

end EasyConnection.Socks
