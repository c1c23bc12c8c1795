import EasyConnection.Async.Inbound
import EasyConnection.WebSocket.ServerFrame

/-! # The task behind a WebSocket byte stream

The task waits for local bytes or for the next data frame of the server. When local bytes
win, the frame reader is dropped with the bytes it has taken, so the stream stays in step
with the server exactly as long as that happens at frame boundaries.
-/
namespace EasyConnection.WebSocket
open Async

def pump (rng : ℕ → MaskKey) : Pump Await ℕ Turn WsError where
  start := readDataFrame rng
  verdict
    | .again => .again
    | .ret (.ok data) => .deliver data
    | .ret (.error e) => .stop e
  onLocal drawn data := .ok (drawn + 1, writeFrame 0x2 data (some (rng drawn)))
  bufLen := 16 * 1024

abbrev PumpState := Pump.State Await ℕ Turn WsError

/-- The bytes of the frames, as the server sends them. -/
def wires (fs : List ServerFrame) : List UInt8 := fs.flatMap ServerFrame.wire

/-- The byte stream that the data frames carry. -/
def payloads (fs : List ServerFrame) : List UInt8 := fs.flatMap ServerFrame.data

/-- The task has handed on a prefix of the data and has not ended on its own. -/
def Intact (fs : List ServerFrame) (st : PumpState) : Prop :=
  st.delivered <+: payloads fs ∧ ∀ why, st.phase = .ended why → st.closed = true

/-- How a server takes leave: it closes the connection, with or without a close frame. -/
def farewell : Option CloseFrame → List UInt8
  | some f => f.wire
  | none => []

/-- At a frame boundary the bytes still to be taken are whole frames. -/
def Boundary (last : Option CloseFrame) (_ : ℕ) (w out : List UInt8) : Prop :=
  ∃ fs, w = wires fs ++ farewell last ∧ out = payloads fs

/-- The task ends with this error at a close frame. -/
def Bye (last : Option CloseFrame) (e : WsError) : Prop :=
  last.isSome = true ∧ e = .protocol "WS close"

theorem readDataFrame_end (rng : ℕ → MaskKey) {rest : ℕ → List UInt8 → Prop}
    {short : List UInt8 → Prop} {cut : Turn → Prop} {post : ℕ → Turn → List UInt8 → Prop}
    {drawn : ℕ} (hrest : rest drawn []) (hshort : short []) (hcut : cut (.ret (.error .io))) :
    ServerFrame.FrameReads rest short cut post (readDataFrame rng) drawn [] :=
  ⟨fun _ => hrest, ⟨_, rfl, hcut⟩, fun _ => hshort, fun h => absurd h (by decide)⟩

theorem pump_sound (rng : ℕ → MaskKey) (last : Option CloseFrame) :
    (pump rng).Sound Await.boundary (· = .io) (Bye last) (Boundary last) where
  waits _ := ⟨_, _, _, _, rfl⟩
  start := by
    rintro drawn w out ⟨fs, rfl, rfl⟩
    have hcut : ∃ why, (pump rng).verdict (.ret (.error .io)) = .stop why ∧ why = WsError.io :=
      ⟨.io, rfl, rfl⟩
    cases fs with
    | nil =>
      cases last with
      | none => exact readDataFrame_end rng ⟨[], rfl, rfl⟩ ⟨rfl, rfl⟩ hcut
      | some f =>
        have hbound : Boundary (some f) drawn (f.wire ++ []) [] :=
          ⟨[], by rw [List.append_nil]; rfl, rfl⟩
        have hreads : (pump rng).Reads Await.boundary (· = .io) (Bye (some f)) (Boundary (some f)) []
            (readDataFrame rng) drawn (f.wire ++ []) :=
          f.readDataFrame_reads rng hbound hcut ⟨⟨rfl, rfl⟩, rfl⟩
        rw [List.append_nil] at hreads
        exact hreads
    | cons f fs =>
      have hwires : wires (f :: fs) ++ farewell last = f.wire ++ (wires fs ++ farewell last) := by
        simp [wires]
      rw [hwires]
      refine f.readDataFrame_reads rng ⟨f :: fs, hwires.symm, rfl⟩ hcut ?_
      unfold ServerFrame.After
      cases hkind : f.kind with
      | data opcode => exact ⟨payloads fs, by simp [payloads, ServerFrame.data, hkind], fs, rfl, rfl⟩
      | ping =>
        have hout : payloads (f :: fs) = payloads fs := by simp [payloads, ServerFrame.data, hkind]
        exact ⟨⟨fs, rfl, hout⟩, fs, rfl, hout⟩
      | pong => exact ⟨fs, rfl, by simp [payloads, ServerFrame.data, hkind]⟩
  onLocal := fun _ hP => ⟨_, rfl, hP⟩

/-- In a run in which local bytes win only while the frame reader is between two frames, the
local side sees a prefix of the server's data and the task outlives the connection. -/
theorem pump_keeps_frames (rng : ℕ → MaskKey) (fs : List ServerFrame) (es : List Pump.Event)
    (st : PumpState) (hlive : ∀ e ∈ es, e.lively = true)
    (hrest : Meets (pump rng).step (fun st e => Pump.DropsAtRest Await.boundary st e = true)
      ((pump rng).initial 0 (wires fs)) es)
    (hrun : run (pump rng).step ((pump rng).initial 0 (wires fs)) es = some st) :
    Intact fs st := by
  have hP : Boundary none 0 (wires fs) (payloads fs) := ⟨fs, by simp [farewell], rfl⟩
  have h := Pump.inbound_integrity (pump_sound rng none) hP hlive hrest hrun
  refine ⟨h.1, fun why hp => ?_⟩
  obtain ⟨_, _, ⟨hclosed, _⟩ | ⟨⟨hbye, _⟩, _⟩⟩ := h.2 why hp
  · exact hclosed
  · cases hbye

def zeroKey : MaskKey := ⟨[0, 0, 0, 0], rfl⟩

/-- A binary frame of the server, neither masked nor fragmented. -/
def binary (payload : List UInt8) (h : payload.length < 126) : ServerFrame where
  flags := 8
  kind := .data 2
  form := .short
  mask := none
  payload := payload
  small := by omega
  fits := h

/-- Local bytes that arrive before the frame does not disturb it. -/
theorem pump_keeps_frames_between :
    ∃ st, run (pump fun _ => zeroKey).step
        ((pump fun _ => zeroKey).initial 0 (wires [binary [0x41] (by decide)]))
        [.localRead [0x68], .accept 7, .arrive 3, .take 2, .take 1, .deliver 1] = some st ∧
      st.delivered = [0x41] ∧ Intact [binary [0x41] (by decide)] st :=
  ⟨_, rfl, rfl, pump_keeps_frames (fun _ => zeroKey) [binary [0x41] (by decide)]
    [.localRead [0x68], .accept 7, .arrive 3, .take 2, .take 1, .deliver 1] _
    (by decide) (by decide) rfl⟩

/-- Local bytes that arrive while the reader waits for the payload of `82 03 02 01 41` make
it take the payload for the next frame. -/
theorem pump_loses_frame_sync :
    ¬ ∀ (rng : ℕ → MaskKey) (fs : List ServerFrame) (es : List Pump.Event) (st : PumpState),
      (∀ e ∈ es, e.lively = true) →
      run (pump rng).step ((pump rng).initial 0 (wires fs)) es = some st → Intact fs st := by
  intro h
  have hbad := h (fun _ => zeroKey) [binary [0x02, 0x01, 0x41] (by decide)]
    [.arrive 2, .take 2, .localRead [0x68], .accept 7, .arrive 3, .take 2, .take 1, .deliver 1] _
    (by decide) rfl
  exact absurd hbad.1 (by decide)

end EasyConnection.WebSocket
