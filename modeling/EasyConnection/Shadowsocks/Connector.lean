import EasyConnection.Codec.Fallible
import EasyConnection.Net.Parse
import EasyConnection.Shadowsocks.Pump
import EasyConnection.Socks.ConnectHead

/-! # The destination of a Shadowsocks connection

A connection begins with the address of its destination, in the grammar of SOCKS5. A name has
one byte for its length; a longer one is cut off and then names another host.
-/
namespace EasyConnection.Shadowsocks
open Async Codec Net Socks

def encodeSocksAddr (host : String) (port : UInt16) : List UInt8 :=
  (match parseIpAddr host with
    | some (.v4 v) => 0x01 :: beBytes 4 v.toNat
    | some (.v6 v) => 0x04 :: beBytes 16 v.toNat
    | none =>
      let bytes := utf8 host
      let n := min bytes.length 255
      0x03 :: UInt8.ofNat n :: bytes.take n) ++ beBytes 2 port.toNat

section Connect
variable (C : Crypto)

def SsError.text (io : String) : SsError → String
  | .io => "I/O error: " ++ io
  | .config message => "config: " ++ message
  | .crypto message => "crypto: " ++ message
  | .transport message => "transport: " ++ message

/-- How one connection goes: the pool's error, the salt drawn, and the errors of the two writes. -/
structure Attempt where
  pool : Option String
  salt : List UInt8
  saltRefused : Option String
  headerRefused : Option String

def handshake (method : AeadMethod) (master : List UInt8) (attempt : Attempt) :
    Except SocksError C.Cipher :=
  match attempt.saltRefused with
  | some e => .error (.upstream (SsError.text e .io))
  | none => (saltCipher C method master attempt.salt).mapError fun e => .upstream (e.text "")

/-- `ShadowsocksConnector::connect`: the cipher of the stream, and the bytes written into it. -/
def connect (method : AeadMethod) (key : List UInt8) (attempt : Attempt) (host : String)
    (port : UInt16) : Except SocksError (C.Cipher × List UInt8) := do
  if let some e := attempt.pool then throw (.upstream ("SS transport " ++ e))
  let enc ← handshake C method key attempt
  if let some e := attempt.headerRefused then throw (.upstream (SsError.text e .io))
  return (enc, encodeSocksAddr host port)

end Connect

/-- A destination as the server sees it. -/
inductive Target where
  | ip (addr : IpAddr)
  | domain (bytes : List UInt8)
  deriving DecidableEq

/-- The SOCKS5 address grammar: a type, an address and a port, and nothing else. -/
def decodeSocksAddr : List UInt8 → Option (Target × UInt16)
  | atyp :: rest =>
    if atyp = 0x01 ∧ rest.length = 6 then
      some (.ip (.v4 (BitVec.ofNat 32 (ofBeBytes (rest.take 4)))), UInt16.ofNat (ofBeBytes (rest.drop 4)))
    else if atyp = 0x04 ∧ rest.length = 18 then
      some (.ip (.v6 (BitVec.ofNat 128 (ofBeBytes (rest.take 16)))),
        UInt16.ofNat (ofBeBytes (rest.drop 16)))
    else if atyp = 0x03 then
      match rest with
      | n :: rest =>
        if rest.length = n.toNat + 2 then
          some (.domain (rest.take n.toNat), UInt16.ofNat (ofBeBytes (rest.drop n.toNat)))
        else none
      | [] => none
    else none
  | [] => none

/-- The destination that a front end asks for. -/
def asked (host : String) : Target :=
  match parseIpAddr host with
  | some ip => .ip ip
  | none => .domain (utf8 host)

theorem ofBeBytes_port (port : UInt16) : UInt16.ofNat (ofBeBytes (beBytes 2 port.toNat)) = port := by
  rw [ofBeBytes_beBytes 2 _ port.toNat_lt, UInt16.ofNat_toNat]

theorem decodeSocksAddr_v4 (v : BitVec 32) (port : UInt16) :
    decodeSocksAddr (0x01 :: (beBytes 4 v.toNat ++ beBytes 2 port.toNat)) =
      some (.ip (.v4 v), port) := by
  have hv : BitVec.ofNat 32 (ofBeBytes (beBytes 4 v.toNat)) = v := by
    rw [ofBeBytes_beBytes 4 _ v.isLt, BitVec.ofNat_toNat, BitVec.setWidth_eq]
  simp only [decodeSocksAddr]
  rw [if_pos ⟨trivial, by simp⟩, List.take_left' (beBytes_length 4 _),
    List.drop_left' (beBytes_length 4 _), hv, ofBeBytes_port]

theorem decodeSocksAddr_v6 (v : BitVec 128) (port : UInt16) :
    decodeSocksAddr (0x04 :: (beBytes 16 v.toNat ++ beBytes 2 port.toNat)) =
      some (.ip (.v6 v), port) := by
  have hv : BitVec.ofNat 128 (ofBeBytes (beBytes 16 v.toNat)) = v := by
    rw [ofBeBytes_beBytes 16 _ v.isLt, BitVec.ofNat_toNat, BitVec.setWidth_eq]
  simp only [decodeSocksAddr]
  rw [if_neg (fun h => absurd h.1 (by decide)), if_pos ⟨trivial, by simp⟩,
    List.take_left' (beBytes_length 16 _), List.drop_left' (beBytes_length 16 _), hv, ofBeBytes_port]

theorem decodeSocksAddr_domain {bytes : List UInt8} (hbytes : bytes.length ≤ 255) (port : UInt16) :
    decodeSocksAddr (0x03 :: UInt8.ofNat bytes.length :: (bytes ++ beBytes 2 port.toNat)) =
      some (.domain bytes, port) := by
  have hlen : (UInt8.ofNat bytes.length).toNat = bytes.length := by
    rw [UInt8.toNat_ofNat']
    omega
  simp only [decodeSocksAddr]
  rw [if_neg (fun h => absurd h.1 (by decide)), if_neg (fun h => absurd h.1 (by decide)),
    if_pos trivial, hlen, if_pos (by simp), List.take_left, List.drop_left, ofBeBytes_port]

/-- What the server makes of the header: of a name, only its first 255 bytes. -/
def heard (host : String) : Target :=
  match parseIpAddr host with
  | some ip => .ip ip
  | none => .domain ((utf8 host).take 255)

theorem decodeSocksAddr_encodeSocksAddr (host : String) (port : UInt16) :
    decodeSocksAddr (encodeSocksAddr host port) = some (heard host, port) := by
  unfold encodeSocksAddr heard
  cases parseIpAddr host with
  | some ip =>
    cases ip with
    | v4 v => exact decodeSocksAddr_v4 v port
    | v6 v => exact decodeSocksAddr_v6 v port
  | none =>
    have hcut : (utf8 host).take (min (utf8 host).length 255) = (utf8 host).take 255 := by
      rw [Nat.min_comm, ← List.take_take, List.take_length]
    have hlen : ((utf8 host).take 255).length = min (utf8 host).length 255 := by
      rw [List.length_take, Nat.min_comm]
    dsimp only
    rw [hcut, ← hlen]
    exact decodeSocksAddr_domain (List.length_take_le _ _) port

theorem heard_eq_asked_iff (host : String) :
    heard host = asked host ↔ (parseIpAddr host).isSome ∨ (utf8 host).length ≤ 255 := by
  unfold heard asked
  cases parseIpAddr host with
  | some ip => simp
  | none =>
    simp only [Target.domain.injEq, Option.isSome_none, Bool.false_eq_true, false_or]
    refine ⟨fun hcut => ?_, List.take_of_length_le⟩
    rw [← hcut]
    exact List.length_take_le _ _

/-- The header of a connection that stands. -/
theorem connect_header {C : Crypto} {method : AeadMethod} {key : List UInt8} {attempt : Attempt}
    {host : String} {port : UInt16} {r : C.Cipher × List UInt8}
    (h : connect C method key attempt host port = .ok r) : r.2 = encodeSocksAddr host port := by
  unfold connect at h
  cases hpool : attempt.pool with
  | some e =>
    rw [hpool] at h
    cases h
  | none =>
    rw [hpool] at h
    obtain ⟨enc, _, h⟩ := except_bind_eq_ok.1 h
    cases hheader : attempt.headerRefused with
    | some e =>
      rw [hheader] at h
      cases h
    | none =>
      rw [hheader] at h
      exact congrArg Prod.snd (Except.ok.inj h).symm

/-- A connection that stands leads to the destination asked for exactly if that is an address or
a name of at most 255 bytes. -/
theorem connect_reaches_asked_iff {C : Crypto} {method : AeadMethod} {key : List UInt8}
    {attempt : Attempt} {host : String} {port : UInt16} {enc : C.Cipher} {header : List UInt8}
    (h : connect C method key attempt host port = .ok (enc, header)) :
    decodeSocksAddr header = some (asked host, port) ↔
      (parseIpAddr host).isSome ∨ (utf8 host).length ≤ 255 := by
  have hheader : header = encodeSocksAddr host port := connect_header h
  rw [← heard_eq_asked_iff, hheader, decodeSocksAddr_encodeSocksAddr]
  constructor
  · intro hreach
    exact (Prod.mk.inj (Option.some.inj hreach)).1
  · intro hsame
    rw [hsame]

/-- Nothing goes wrong. -/
def sampleAttempt : Attempt := ⟨none, List.replicate 16 0, none, none⟩

theorem connect_reaches_example :
    ∃ enc header, connect plainCrypto .aes128Gcm [] sampleAttempt "example.com" 443 =
        .ok (enc, header) ∧ decodeSocksAddr header = some (asked "example.com", 443) := by
  have hconnect : connect plainCrypto .aes128Gcm [] sampleAttempt "example.com" 443 =
      .ok ((), encodeSocksAddr "example.com" 443) := rfl
  exact ⟨_, _, hconnect, (connect_reaches_asked_iff hconnect).2 (.inr (by decide))⟩

/-- A name of 256 bytes. -/
def longName : List Char := List.replicate 256 'a'

def longHost : String := String.ofList longName

def longLine : List Char := "CONNECT ".toList ++ (longName ++ ":443 HTTP/1.1\r\n".toList)

theorem requestTarget_words {line method target : List Char} {rest : List (List Char)}
    (hwords : splitWhitespace line = method :: target :: rest)
    (hmethod : eqIgnoreAsciiCase method "CONNECT".toList = true) :
    requestTarget (String.ofList line) = splitHostPort target := by
  unfold requestTarget
  rw [String.toList_ofList, hwords]
  exact if_pos hmethod

theorem requestTarget_longLine : requestTarget (String.ofList longLine) = .ok (longHost, 443) := by
  have hwords : splitWhitespace longLine =
      ["CONNECT".toList, longName ++ ":443".toList, "HTTP/1.1".toList] := by decide +kernel
  have htarget : splitHostPort (longName ++ ":443".toList) = .ok (longHost, 443) := by
    decide +kernel
  exact (requestTarget_words hwords (by decide)).trans htarget

def longHead : Head longHost 443 where
  request :=
    { bytes := utf8 (String.ofList longLine)
      text := String.ofList longLine
      terminated := by
        rw [utf8_ofList]
        exact ⟨longLine.dropLast.flatMap String.utf8EncodeChar, by decide +kernel, by decide +kernel⟩
      wellFormed := fromUtf8_utf8 _ }
  headers := []
  blank := sampleHead.blank
  target := requestTarget_longLine
  goesOn := nofun
  ends := by decide

theorem parseIpAddr_longHost : parseIpAddr longHost = none := by
  have hv4 : readIpv4 longName = none := by decide +kernel
  have hv6 : readIpv6 longName = none := by decide +kernel
  rw [parseIpAddr, longHost, String.toList_ofList, hv4]
  dsimp only
  rw [hv6]

/-- A client of the HTTP proxy asks for a name of 256 bytes and is connected to another one. -/
theorem long_host_shortened :
    (∃ reader, readHead (.ofSegments bufCapacity [longHead.bytes]) = .ok ((longHost, 443), reader)) ∧
      ∃ enc header, connect plainCrypto .aes128Gcm [] sampleAttempt longHost 443 = .ok (enc, header) ∧
        decodeSocksAddr header = some (.domain ((utf8 longHost).take 255), 443) ∧
        asked longHost = .domain (utf8 longHost) ∧ (utf8 longHost).length = 256 := by
  have hpending : (BufReader.ofSegments bufCapacity [longHead.bytes]).pending = longHead.bytes ++ [] := by
    rw [BufReader.pending_ofSegments bufCapacity (by decide), List.flatten_singleton, List.append_nil]
  obtain ⟨reader, hread, _⟩ := readHead_head longHead hpending
  refine ⟨⟨reader, hread⟩, (), encodeSocksAddr longHost 443, rfl, ?_, ?_, ?_⟩
  · rw [decodeSocksAddr_encodeSocksAddr, heard, parseIpAddr_longHost]
  · rw [asked, parseIpAddr_longHost]
  · rw [longHost, utf8_ofList]
    decide +kernel

end EasyConnection.Shadowsocks
