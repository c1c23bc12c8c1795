import EasyConnection.Async.Reader
import EasyConnection.Codec.Bytes

/-! # WebSocket frames of the client

`readDataFrame` is one turn of the client's read loop: it ends with a data payload, with an
error, or, after a ping or a pong, with the request to read the next frame. Random mask keys
come from a stream of keys of which a counter says how many have been drawn.
-/
namespace EasyConnection.WebSocket
open Async Codec

inductive WsError where
  | io
  | handshake (message : String)
  | protocol (message : String)
  deriving DecidableEq

structure MaskKey where
  bytes : List UInt8
  length_eq : bytes.length = 4

/-- XOR with the key, repeated. -/
def xorMask (key payload : List UInt8) : List UInt8 :=
  payload.mapIdx (fun i b => b ^^^ key.getD (i % 4) 0)

@[simp] theorem xorMask_length (key payload : List UInt8) :
    (xorMask key payload).length = payload.length := by simp [xorMask]

@[simp] theorem xorMask_xorMask (key payload : List UInt8) :
    xorMask key (xorMask key payload) = payload := by
  apply List.ext_getElem
  · simp
  · intro i h₁ h₂
    simp only [xorMask, List.getElem_mapIdx]
    rw [UInt8.xor_assoc, UInt8.xor_self, UInt8.xor_zero]

/-- The frame as the client puts it on the wire; with no key it is not masked. -/
def writeFrame (opcode : UInt8) (payload : List UInt8) (key : Option MaskKey) : List UInt8 :=
  let bit : UInt8 := if key.isSome then 0x80 else 0
  let len := payload.length
  let head : List UInt8 :=
    if len < 126 then [bit ||| UInt8.ofNat len]
    else if len ≤ 65535 then (bit ||| 126) :: beBytes 2 len
    else (bit ||| 127) :: beBytes 8 len
  (0x80 ||| opcode) :: head ++ match key with
    | some key => key.bytes ++ xorMask key.bytes payload
    | none => payload

/-- The suspension points of the read loop. -/
inductive Await where
  | hdr
  | ext
  | mask
  | payload
  deriving DecidableEq

/-- Only the read of a header starts at a frame boundary. -/
def Await.boundary : Await → Bool
  | .hdr => true
  | _ => false

inductive Turn where
  | again
  | ret (result : Except WsError (List UInt8))

abbrev FrameReader := Reader Await ℕ Turn

def fail (e : WsError) : FrameReader := .done (.ret (.error e))

/-- A ping is answered before the next frame is read; a failed answer is ignored. -/
def dispatch (rng : ℕ → MaskKey) (opcode : UInt8) (payload : List UInt8) : FrameReader :=
  if opcode ≤ 0x2 then .done (.ret (.ok payload))
  else if opcode = 0x8 then fail (.protocol "WS close")
  else if opcode = 0x9 then
    .get fun drawn => .set (drawn + 1)
      (.write (writeFrame 0xA payload (some (rng drawn))) fun _ => .done .again)
  else if opcode = 0xA then .done .again
  else fail (.protocol s!"unsupported WS opcode {opcode.toNat}")

def unmask : Option (List UInt8) → List UInt8 → List UInt8
  | some key, payload => xorMask key payload
  | none, payload => payload

def readPayload (rng : ℕ → MaskKey) (opcode : UInt8) (mask : Option (List UInt8)) (len : ℕ) :
    FrameReader :=
  if len > 1000000 then fail (.protocol "WS frame too large")
  else if len = 0 then dispatch rng opcode (unmask mask [])
  else .read .payload len (fail .io) fun payload => dispatch rng opcode (unmask mask payload)

def readMask (rng : ℕ → MaskKey) (opcode : UInt8) (masked : Bool) (len : ℕ) : FrameReader :=
  if masked then .read .mask 4 (fail .io) fun key => readPayload rng opcode (some key) len
  else readPayload rng opcode none len

def readDataFrame (rng : ℕ → MaskKey) : FrameReader :=
  .read .hdr 2 (fail .io) fun hdr =>
    let opcode := hdr.getD 0 0 &&& 0x0f
    let masked := hdr.getD 1 0 &&& 0x80 != 0
    let len := (hdr.getD 1 0 &&& 0x7f).toNat
    if len = 126 then
      .read .ext 2 (fail .io) fun ext => readMask rng opcode masked (ofBeBytes ext)
    else if len = 127 then
      .read .ext 8 (fail .io) fun ext => readMask rng opcode masked (ofBeBytes ext)
    else readMask rng opcode masked len

end EasyConnection.WebSocket
