import EasyConnection.Codec.Bytes

/-! # Frames between the application and its helper

A frame is a payload behind its length. It may take a file descriptor along, which the kernel
delivers with the first byte that was sent with it. The receiver asks for up to 64 KiB at a time
and gets what has arrived, across the ends of frames if need be.
-/
namespace EasyConnection.Ipc
open Codec

variable {φ : Type}

inductive TunError where
  | io (op message : String)
  | ipc (message : String)
  deriving DecidableEq

def maxFrame : ℕ := 1024 * 1024

/-- The most that one `recvmsg` returns. -/
def recvCapacity : ℕ := 64 * 1024

structure Frame (φ : Type) where
  payload : List UInt8
  fd : Option φ
  deriving DecidableEq

/-- A byte on the socket, with the descriptor that travels with it. -/
abbrev Octet (φ : Type) := UInt8 × Option φ

/-- The bytes of one `sendmsg`. -/
def attach (fd : Option φ) : List UInt8 → List (Octet φ)
  | [] => []
  | b :: bytes => (b, fd) :: bytes.map (·, none)

inductive SendResult where
  | wrote (n : ℕ)
  | retry
  | failed (message : String)
  deriving DecidableEq

/-- Send until the kernel has accepted everything, given what the calls of `sendmsg` return. There
is no result as long as more calls are needed. -/
def sendLoop (op : String) : List UInt8 → Option φ → List SendResult →
    Option (Except TunError (List (Octet φ)))
  | [], _, _ => some (.ok [])
  | _ :: _, _, [] => none
  | _ :: _, _, .wrote 0 :: _ => some (.error (.io op "sendmsg wrote 0 bytes"))
  | b :: data, fd, .wrote (n + 1) :: results =>
    (sendLoop op (data.drop n) none results).map fun r =>
      r.map (attach fd (b :: data.take n) ++ ·)
  | b :: data, fd, .retry :: results => sendLoop op (b :: data) fd results
  | _ :: _, _, .failed message :: _ => some (.error (.io op message))

def sendFrame (op : String) (payload : List UInt8) (fd : Option φ) (results : List SendResult) :
    Option (Except TunError (List (Octet φ))) :=
  if payload.length > maxFrame then some (.error (.ipc (op ++ ": IPC frame too large")))
  else sendLoop op (beBytes 4 payload.length ++ payload) fd results

/-- Successive calls, up to the first that fails. -/
def sendFrames (op : String) : List (Frame φ × List SendResult) →
    Option (Except TunError (List (Octet φ)))
  | [] => some (.ok [])
  | (frame, results) :: rest =>
    (sendFrame op frame.payload frame.fd results).bind fun r =>
      match r with
      | .ok bytes => (sendFrames op rest).map fun r => r.map (bytes ++ ·)
      | .error e => some (.error e)

structure Chunk (φ : Type) where
  bytes : List UInt8
  fd : Option φ
  deriving DecidableEq

def descriptor (piece : List (Octet φ)) : Option φ := (piece.filterMap Prod.snd).head?

/-- What a `recvmsg` returns for a piece of the stream. -/
def recvmsg (piece : List (Octet φ)) : Chunk φ := ⟨piece.map Prod.fst, descriptor piece⟩

/-- What the calls of `recvmsg` return, until the socket is closed. -/
abbrev Inbox (φ : Type) := List (Except String (Chunk φ))

/-- Receive until the buffer holds `need` bytes. The first descriptor is kept. -/
def fill (op : String) (closed : ℕ → String) (need : ℕ) :
    List UInt8 → Option φ → Inbox φ → Except TunError ((List UInt8 × Option φ) × Inbox φ)
  | buf, fd, [] =>
    if need ≤ buf.length then .ok ((buf, fd), []) else .error (.io op (closed buf.length))
  | buf, fd, result :: inbox =>
    if need ≤ buf.length then .ok ((buf, fd), result :: inbox)
    else match result with
      | .error message => .error (.io op message)
      | .ok chunk =>
        if chunk.bytes = [] then .error (.io op (closed buf.length))
        else fill op closed need (buf ++ chunk.bytes) (fd.or chunk.fd) inbox

def closedEarly (_ : ℕ) : String := "helper socket closed"

def closedMidFrame (need got : ℕ) : String :=
  s!"helper socket closed mid-frame (have {got} of {need} bytes)"

/-- One frame. What the last `recvmsg` returned beyond it is dropped. -/
def recvFrame (op : String) (inbox : Inbox φ) : Except TunError (Frame φ × Inbox φ) :=
  match fill op closedEarly 4 [] none inbox with
  | .error e => .error e
  | .ok ((buf, fd), inbox) =>
    let len := ofBeBytes (buf.take 4)
    if len > maxFrame then
      .error (.ipc s!"{op}: IPC frame length {len} exceeds {maxFrame}")
    else match fill op (closedMidFrame (4 + len)) (4 + len) buf fd inbox with
      | .error e => .error e
      | .ok ((buf, fd), inbox) => .ok (⟨(buf.drop 4).take len, fd⟩, inbox)

/-- Successive calls, up to the first that fails. -/
def recvFrames (op : String) : ℕ → Inbox φ → Except TunError (List (Frame φ) × Inbox φ)
  | 0, inbox => .ok ([], inbox)
  | n + 1, inbox =>
    match recvFrame op inbox with
    | .error e => .error e
    | .ok (frame, inbox) => (recvFrames op n inbox).map fun p => (frame :: p.1, p.2)

end EasyConnection.Ipc
