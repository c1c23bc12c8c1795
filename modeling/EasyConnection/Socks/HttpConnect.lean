import EasyConnection.Async.BufReader
import EasyConnection.Codec.Str

/-! # The HTTP CONNECT proxy

The request head is read line by line through a buffered reader. Once the upstream connection
stands, the reader is turned back into the client's stream and the two streams are relayed.
-/
namespace EasyConnection.Socks
open Async Codec

inductive IoErrorKind where
  | invalidData
  | brokenPipe
  | connectionReset
  | other
  deriving DecidableEq

inductive SocksError where
  | io (kind : IoErrorKind)
  | protocol (message : String)
  | authRequired
  | authFailed
  | commandNotSupported
  | addressNotSupported
  | upstream (message : String)
  | stopped
  deriving DecidableEq

def parsePort (s : List Char) : Except SocksError UInt16 :=
  match parseU16 s with
  | some port => .ok port
  | none => .error (.protocol "invalid port")

def splitHostPort (target : List Char) : Except SocksError (String × UInt16) :=
  match target with
  | '[' :: rest =>
    match rsplitOnce "]:".toList rest with
    | none => .error (.protocol "invalid IPv6 CONNECT target")
    | some (host, port) => (parsePort port).map fun port => (String.ofList host, port)
  | _ =>
    match rsplitOnce ":".toList target with
    | some (host, port) => (parsePort port).map fun port => (String.ofList host, port)
    | none => .error (.protocol "CONNECT target missing port")

/-- The host and the port of a request line. -/
def requestTarget (requestLine : String) : Except SocksError (String × UInt16) :=
  match splitWhitespace requestLine.toList with
  | method :: target :: _ =>
    if eqIgnoreAsciiCase method "CONNECT".toList then splitHostPort target
    else .error (.protocol "expected HTTP CONNECT")
  | _ => .error (.protocol "expected HTTP CONNECT")

/-- The next line with its line feed, or what the stream ends with. -/
def readLine (r : BufReader) : Except SocksError (String × BufReader) :=
  match fromUtf8 (r.readUntil 10).1 with
  | some line => .ok (line, (r.readUntil 10).2)
  | none => .error (.io .invalidData)

/-- The lines that end the head. An empty line is the end of the stream. -/
def endsHead (line : String) : Bool := line == "\r\n" || line == "\n" || line == ""

theorem readLine_lt {r r' : BufReader} {line : String} (h : readLine r = .ok (line, r'))
    (hline : endsHead line = false) : r'.pending.length < r.pending.length := by
  rw [readLine] at h
  split at h
  · next heq =>
    cases h
    have hne : (r.readUntil 10).1 ≠ [] := by
      intro hnil
      rw [hnil] at heq
      cases heq
      exact absurd hline (by decide)
    have happend := congrArg List.length (r.readUntil_append 10)
    have hpos := List.length_pos_of_ne_nil hne
    rw [List.length_append] at happend
    omega
  · cases h

def consumeHeaders (r : BufReader) : Except SocksError BufReader :=
  match _h : readLine r with
  | .error e => .error e
  | .ok (line, r') =>
    if _hline : endsHead line = true then .ok r'
    else if line.utf8ByteSize > 8192 then .error (.protocol "header too long")
    else consumeHeaders r'
termination_by r.pending.length
decreasing_by exact readLine_lt _h (Bool.eq_false_iff.2 _hline)

theorem consumeHeaders_line {r r' : BufReader} {line : String} (h : readLine r = .ok (line, r')) :
    consumeHeaders r =
      if endsHead line then .ok r'
      else if line.utf8ByteSize > 8192 then .error (.protocol "header too long")
      else consumeHeaders r' := by
  rw [consumeHeaders]
  split
  · next h' => cases h.symm.trans h'
  · next h' =>
    cases h.symm.trans h'
    rfl

/-- Read a request head. -/
def readHead (r : BufReader) : Except SocksError ((String × UInt16) × BufReader) :=
  (readLine r).bind fun (requestLine, r) =>
    (requestTarget requestLine).bind fun target =>
      (consumeHeaders r).map fun r => (target, r)

/-- The client's side of a connection: what it sends, in the segments in which it arrives, and
how a write to it fails. -/
structure Client where
  segments : List (List UInt8)
  refuses : Option IoErrorKind

/-- What an upstream connection sends, and how the relay over it breaks: the error, and how many
bytes got through before it from the client and to it. -/
structure Upstream where
  bytes : List UInt8
  fault : Option (IoErrorKind × ℕ × ℕ)

/-- What a relay has copied from the client and to it, and what it returns. -/
structure Relayed where
  up : List UInt8
  down : List UInt8
  result : Except IoErrorKind (ℕ × ℕ)

/-- Copy both ways until both sides have ended. -/
def relayBoth (client : List (List UInt8)) (upstream : Upstream) : Relayed :=
  match upstream.fault with
  | none => ⟨client.flatten, upstream.bytes, .ok (client.flatten.length, upstream.bytes.length)⟩
  | some (kind, n, m) =>
    ⟨client.flatten.take n, upstream.bytes.take m,
      match kind with
      | .brokenPipe => .ok (0, 0)
      | .connectionReset => .ok (0, 0)
      | kind => .error kind⟩

def established : String := "HTTP/1.1 200 Connection Established\r\n\r\n"

def badGateway : String := "HTTP/1.1 502 Bad Gateway\r\nContent-Length: 0\r\n\r\n"

structure Outcome where
  result : Except SocksError Unit
  toClient : List UInt8
  /-- The bytes sent to the upstream, if there is one. -/
  toUpstream : Option (List UInt8)
  /-- The byte counts added to the statistics. -/
  recorded : Option (ℕ × ℕ)

/-- The default capacity of a buffered reader. -/
def bufCapacity : ℕ := 8192

def utf8 (s : String) : List UInt8 := s.toUTF8.data.toList

theorem fromUtf8_utf8 (s : String) : fromUtf8 (utf8 s) = some s := fromUtf8_toUTF8 s

theorem utf8_of_fromUtf8 {bytes : List UInt8} {s : String} (h : fromUtf8 bytes = some s) :
    utf8 s = bytes :=
  toUTF8_of_fromUtf8 h

theorem utf8_ofList (l : List Char) : utf8 (String.ofList l) = l.flatMap String.utf8EncodeChar :=
  toUTF8_ofList l

def handleHttpConnect (client : Client) (connect : String → UInt16 → Except SocksError Upstream) :
    Outcome :=
  match readHead (.ofSegments bufCapacity client.segments) with
  | .error e => ⟨.error e, [], none, none⟩
  | .ok ((host, port), reader) =>
    match connect host port, client.refuses with
    | .ok upstream, none =>
      let relayed := relayBoth reader.intoInner upstream
      ⟨.ok (), utf8 established ++ relayed.down, some relayed.up, relayed.result.toOption⟩
    | .ok _, some kind => ⟨.error (.io kind), [], some [], none⟩
    | .error e, none => ⟨.error e, utf8 badGateway, none, none⟩
    | .error e, some _ => ⟨.error e, [], none, none⟩

end EasyConnection.Socks
