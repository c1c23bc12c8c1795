import EasyConnection.Codec.ByteReader
import EasyConnection.WebSocket.Outbound
import Mathlib.Data.List.Forall2

/-! # Written frames and read frames

The read loop of the client on what `writeFrame` produces: control frames and then a data frame.
It returns the payload of the data frame, takes nothing of what follows, and answers each ping with
a masked pong of the same payload.
-/
namespace EasyConnection.WebSocket
open Async Codec

section Loop

/-- The read loop on a stream that holds `w`, with at most `fuel` turns: its result, what it leaves
of the stream, and what it has written. -/
def readLoop (rng : ℕ → MaskKey) : (fuel drawn : ℕ) → List UInt8 →
    Option (Except WsError (List UInt8) × List UInt8 × List (List UInt8))
  | 0, _, _ => none
  | fuel + 1, drawn, w =>
    match (readDataFrame rng).exchange drawn w with
    | ((.ret r, _, w), outs) => some (r, w, outs)
    | ((.again, drawn, w), outs) =>
      (readLoop rng fuel drawn w).map fun (r, w, outs') => (r, w, outs ++ outs')

end Loop

section Decoder

structure WireFrame where
  opcode : UInt8
  masked : Bool
  payload : List UInt8
  deriving DecidableEq

def decodeLen (code : ℕ) : ByteReader Unit ℕ :=
  if code = 126 then ofBeBytes <$> takeBytes () 2
  else if code = 127 then ofBeBytes <$> takeBytes () 8
  else pure code

def decodeBody (opcode : UInt8) (masked : Bool) (len : ℕ) : ByteReader Unit WireFrame := do
  let key ← if masked then some <$> takeBytes () 4 else pure none
  let payload ← takeBytes () len
  return ⟨opcode, masked, unmask key payload⟩

/-- The frame at the front of a stream. -/
def decodeFrame : ByteReader Unit WireFrame := do
  let hdr ← takeBytes () 2
  let len ← decodeLen (hdr.getD 1 0 &&& 0x7f).toNat
  decodeBody (hdr.getD 0 0 &&& 0x0f) (hdr.getD 1 0 &&& 0x80 != 0) len

namespace ServerFrame
variable (f : ServerFrame)

theorem reads_take {bytes : List UInt8} {n : ℕ} (h : bytes.length = n) :
    Reads (takeBytes () n) bytes bytes := h ▸ reads_takeBytes () bytes

theorem reads_decodeBody (opcode : UInt8) :
    Reads (decodeBody opcode f.mask.isSome f.payload.length) ⟨opcode, f.mask.isSome, f.payload⟩
      f.body := by
  unfold decodeBody body
  cases f.mask with
  | none => exact (reads_pure none).bind ((reads_takeBytes () f.payload).bind_pure _)
  | some key =>
    have hpayload := (reads_take (xorMask_length key.bytes f.payload)).bind_pure fun payload =>
      (⟨opcode, true, unmask (some key.bytes) payload⟩ : WireFrame)
    rw [unmask, xorMask_xorMask] at hpayload
    exact ((reads_take key.length_eq).map some).bind hpayload

theorem reads_decodeLen :
    Reads (decodeLen (f.form.code f.payload.length)) f.payload.length
      (f.form.ext f.payload.length) := by
  have hfits := f.fits
  unfold decodeLen
  cases hform : f.form with
  | short =>
    rw [hform, LenForm.Fits] at hfits
    rw [LenForm.code, if_neg (by omega), if_neg (by omega)]
    exact reads_pure _
  | ext16 =>
    rw [hform] at hfits
    have hread := (reads_take (beBytes_length 2 f.payload.length)).map ofBeBytes
    rw [ofBeBytes_beBytes 2 _ hfits] at hread
    exact hread
  | ext64 =>
    have hread := (reads_take (beBytes_length 8 f.payload.length)).map ofBeBytes
    rw [ofBeBytes_beBytes 8 _ (lt_of_le_of_lt f.small (by decide))] at hread
    exact hread

theorem reads_decodeFrame :
    Reads decodeFrame ⟨UInt8.ofNat f.kind.opcode, f.mask.isSome, f.payload⟩ f.wire := by
  have hhdr : Reads (takeBytes () 2) [f.hdr0, f.hdr1] [f.hdr0, f.hdr1] := reads_take rfl
  refine hhdr.bind ?_
  simp only [List.getD_cons_zero, List.getD_cons_succ, f.hdr0_opcode, f.hdr1_code, f.hdr1_masked]
  exact f.reads_decodeLen.bind (f.reads_decodeBody _)

end ServerFrame

end Decoder

namespace ServerFrame
variable (rng : ℕ → MaskKey) (f : ServerFrame) (drawn : ℕ) (w : List UInt8)

theorem exchange_readPayload (opcode : UInt8) {mask : Option (List UInt8)} {enc : List UInt8}
    (hlen : enc.length = f.payload.length) (hmask : unmask mask enc = f.payload) :
    (readPayload rng opcode mask f.payload.length).exchange drawn (enc ++ w) =
      (dispatch rng opcode f.payload).exchange drawn w := by
  rw [readPayload, if_neg (Nat.not_lt.2 f.small)]
  split_ifs with hempty
  · have henc : enc = [] := List.length_eq_zero_iff.1 (hlen.trans hempty)
    rw [henc, List.nil_append, ← hmask, henc]
  · rw [Reader.exchange_read_append hlen, hmask]

theorem exchange_readMask (opcode : UInt8) :
    (readMask rng opcode f.mask.isSome f.payload.length).exchange drawn (f.body ++ w) =
      (dispatch rng opcode f.payload).exchange drawn w := by
  unfold readMask body
  cases f.mask with
  | none => exact f.exchange_readPayload rng drawn w opcode rfl rfl
  | some key =>
    rw [if_pos (by rfl), List.append_assoc, Reader.exchange_read_append key.length_eq]
    exact f.exchange_readPayload rng drawn w opcode (xorMask_length _ _) (xorMask_xorMask _ _)

/-- The read loop takes a frame and does what its opcode asks for. -/
theorem exchange_readDataFrame :
    (readDataFrame rng).exchange drawn (f.wire ++ w) =
      (dispatch rng (UInt8.ofNat f.kind.opcode) f.payload).exchange drawn w := by
  have hhdr : [f.hdr0, f.hdr1].length = 2 := rfl
  rw [readDataFrame, wire, List.append_assoc, Reader.exchange_read_append hhdr]
  simp only [List.getD_cons_zero, List.getD_cons_succ, f.hdr0_opcode, f.hdr1_code, f.hdr1_masked]
  rw [List.append_assoc]
  have hfits := f.fits
  cases hform : f.form with
  | short =>
    rw [hform, LenForm.Fits] at hfits
    rw [LenForm.code, if_neg (by omega), if_neg (by omega)]
    exact f.exchange_readMask rng drawn w _
  | ext16 =>
    rw [hform] at hfits
    rw [LenForm.code, LenForm.ext, if_pos rfl, Reader.exchange_read_append (beBytes_length 2 _),
      ofBeBytes_beBytes 2 _ hfits]
    exact f.exchange_readMask rng drawn w _
  | ext64 =>
    rw [LenForm.code, LenForm.ext, if_neg (by decide), if_pos rfl,
      Reader.exchange_read_append (beBytes_length 8 _),
      ofBeBytes_beBytes 8 _ (lt_of_le_of_lt f.small (by decide))]
    exact f.exchange_readMask rng drawn w _

end ServerFrame

section Controls

/-- A frame that the read loop takes on its way to a data frame. -/
structure ControlFrame where
  isPing : Bool
  payload : List UInt8
  small : payload.length ≤ 1000000
  key : Option MaskKey

namespace ControlFrame

def opcode (c : ControlFrame) : UInt8 := if c.isPing then 0x9 else 0xA

def wire (c : ControlFrame) : List UInt8 := writeFrame c.opcode c.payload c.key

/-- What the read loop answers. -/
def answer (rng : ℕ → MaskKey) (drawn : ℕ) (c : ControlFrame) : List (List UInt8) :=
  if c.isPing then [writeFrame 0xA c.payload (some (rng drawn))] else []

theorem exchange_readDataFrame (rng : ℕ → MaskKey) (drawn : ℕ) (c : ControlFrame) (w : List UInt8) :
    (readDataFrame rng).exchange drawn (c.wire ++ w) =
      ((.again, if c.isPing then drawn + 1 else drawn, w), c.answer rng drawn) := by
  obtain ⟨isPing, payload, small, key⟩ := c
  cases isPing with
  | true =>
    have hwire := writtenFrame_wire .ping small key
    rw [wire, show opcode _ = UInt8.ofNat Kind.ping.opcode from rfl, ← hwire,
      ServerFrame.exchange_readDataFrame]
    rfl
  | false =>
    have hwire := writtenFrame_wire .pong small key
    rw [wire, show opcode _ = UInt8.ofNat Kind.pong.opcode from rfl, ← hwire,
      ServerFrame.exchange_readDataFrame]
    rfl

end ControlFrame

theorem decodeFrame_pong {payload : List UInt8} (small : payload.length ≤ 1000000) (key : MaskKey) :
    decodeFrame.run (writeFrame 0xA payload (some key)) = .ok (⟨0xA, true, payload⟩, []) := by
  have hwire := writtenFrame_wire .pong small (some key)
  have hread := (writtenFrame .pong payload small (some key)).reads_decodeFrame.run_eq
  rw [hwire] at hread
  exact hread

/-- A masked pong with the payload of the ping. -/
def Answers (c : ControlFrame) (out : List UInt8) : Prop :=
  decodeFrame.run out = .ok (⟨0xA, true, c.payload⟩, [])

theorem answers_answer (rng : ℕ → MaskKey) (drawn : ℕ) (c : ControlFrame) :
    List.Forall₂ Answers ([c].filter ControlFrame.isPing) (c.answer rng drawn) := by
  unfold ControlFrame.answer
  cases hping : c.isPing with
  | true =>
    rw [List.filter_singleton, hping]
    exact .cons (decodeFrame_pong c.small _) .nil
  | false =>
    rw [List.filter_singleton, hping]
    exact .nil

theorem readLoop_control (rng : ℕ → MaskKey) (fuel drawn : ℕ) (c : ControlFrame) (w : List UInt8) :
    readLoop rng (fuel + 1) drawn (c.wire ++ w) =
      (readLoop rng fuel (if c.isPing then drawn + 1 else drawn) w).map
        fun (r, w, outs) => (r, w, c.answer rng drawn ++ outs) := by
  rw [readLoop, c.exchange_readDataFrame]

theorem readLoop_data (rng : ℕ → MaskKey) (fuel drawn : ℕ) (opcode : Fin 3) {payload : List UInt8}
    (small : payload.length ≤ 1000000) (key : Option MaskKey) (rest : List UInt8) :
    readLoop rng (fuel + 1) drawn (writeFrame (UInt8.ofNat opcode) payload key ++ rest) =
      some (.ok payload, rest, []) := by
  have hwire := writtenFrame_wire (.data opcode) small key
  have hle : ∀ opcode : Fin 3, UInt8.ofNat opcode.val ≤ 0x2 := by decide
  have hdata : dispatch rng (UInt8.ofNat opcode) payload = .done (.ret (.ok payload)) :=
    if_pos (hle opcode)
  have hread : (readDataFrame rng).exchange drawn
      (writeFrame (UInt8.ofNat opcode) payload key ++ rest) = ((.ret (.ok payload), drawn, rest), []) :=
    calc (readDataFrame rng).exchange drawn (writeFrame (UInt8.ofNat opcode) payload key ++ rest)
        = (readDataFrame rng).exchange drawn
            ((writtenFrame (.data opcode) payload small key).wire ++ rest) := by rw [hwire]; rfl
      _ = (dispatch rng (UInt8.ofNat opcode) payload).exchange drawn rest :=
          ServerFrame.exchange_readDataFrame rng _ drawn rest
      _ = ((.ret (.ok payload), drawn, rest), []) := by rw [hdata]; rfl
  rw [readLoop, hread]

end Controls

/-- A data frame behind any control frames is read back, and each ping is answered. -/
theorem frames_read_back (rng : ℕ → MaskKey) (drawn : ℕ) (controls : List ControlFrame)
    (opcode : Fin 3) {payload : List UInt8} (small : payload.length ≤ 1000000) (key : Option MaskKey)
    (rest : List UInt8) {fuel : ℕ} (hfuel : controls.length < fuel) :
    ∃ outs, readLoop rng fuel drawn (controls.flatMap ControlFrame.wire ++
        (writeFrame (UInt8.ofNat opcode) payload key ++ rest)) = some (.ok payload, rest, outs) ∧
      List.Forall₂ Answers (controls.filter ControlFrame.isPing) outs := by
  induction controls generalizing drawn fuel with
  | nil =>
    obtain ⟨fuel, rfl⟩ := Nat.exists_eq_add_of_le' hfuel
    exact ⟨[], readLoop_data rng fuel drawn opcode small key rest, .nil⟩
  | cons c controls ih =>
    obtain ⟨fuel, rfl⟩ := Nat.exists_eq_add_of_le' (Nat.zero_lt_of_lt hfuel)
    obtain ⟨outs, hread, houts⟩ := ih (if c.isPing then drawn + 1 else drawn)
      (Nat.lt_of_succ_lt_succ hfuel)
    refine ⟨c.answer rng drawn ++ outs, ?_, ?_⟩
    · rw [List.flatMap_cons, List.append_assoc, readLoop_control, hread]
      rfl
    · rw [← List.singleton_append, List.filter_append]
      exact List.rel_append (answers_answer rng drawn c) houts

/-- A ping, a masked pong and then a masked text frame. -/
theorem text_behind_ping_read_back :
    ∃ outs, readLoop (fun _ => zeroKey) 3 0
        (writeFrame 0x9 [0x68, 0x69] none ++ writeFrame 0xA [] (some zeroKey) ++
          (writeFrame 0x1 [0x61] (some zeroKey) ++ [0x88])) = some (.ok [0x61], [0x88], outs) ∧
      List.Forall₂ Answers [⟨true, [0x68, 0x69], by decide, none⟩] outs :=
  frames_read_back (fun _ => zeroKey) 0
    [⟨true, [0x68, 0x69], by decide, none⟩, ⟨false, [], by decide, some zeroKey⟩] 1 (by decide)
    (some zeroKey) [0x88] (by decide)

end EasyConnection.WebSocket
