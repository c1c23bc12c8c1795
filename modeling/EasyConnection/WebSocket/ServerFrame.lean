import EasyConnection.WebSocket.Frame

/-! # Frames a server may send

A server frame is any data, continuation, ping or pong frame of at most one million payload
bytes: any FIN and reserved bits, masked or not, in any length form that fits. The read loop
takes exactly its bytes and then does what its opcode asks for.
-/
namespace EasyConnection.WebSocket
open Async Codec

/-- The opcodes 0 to 2 carry data; a ping is answered; a pong is skipped. -/
inductive Kind where
  | data (opcode : Fin 3)
  | ping
  | pong
  deriving DecidableEq

def Kind.opcode : Kind → ℕ
  | .data opcode => opcode.val
  | .ping => 9
  | .pong => 10

inductive LenForm where
  | short
  | ext16
  | ext64
  deriving DecidableEq

def LenForm.Fits : LenForm → ℕ → Prop
  | .short, n => n < 126
  | .ext16, n => n < 65536
  | .ext64, _ => True

instance (form : LenForm) (n : ℕ) : Decidable (form.Fits n) := by
  cases form <;> unfold LenForm.Fits <;> infer_instance

/-- The seven length bits of the second header byte. -/
def LenForm.code : LenForm → ℕ → ℕ
  | .short, n => n
  | .ext16, _ => 126
  | .ext64, _ => 127

def LenForm.ext : LenForm → ℕ → List UInt8
  | .short, _ => []
  | .ext16, n => beBytes 2 n
  | .ext64, n => beBytes 8 n

/-- The flags of a frame that is the last of its message. -/
def finFlag : Fin 16 := ⟨8, by decide⟩

structure ServerFrame where
  /-- The FIN bit and the three reserved bits. -/
  flags : Fin 16
  kind : Kind
  form : LenForm
  mask : Option MaskKey
  payload : List UInt8
  small : payload.length ≤ 1000000
  fits : form.Fits payload.length

namespace ServerFrame

def hdr0 (f : ServerFrame) : UInt8 := UInt8.ofNat (16 * f.flags.val + f.kind.opcode)

def hdr1 (f : ServerFrame) : UInt8 :=
  UInt8.ofNat ((if f.mask.isSome then 128 else 0) + f.form.code f.payload.length)

def body (f : ServerFrame) : List UInt8 :=
  match f.mask with
  | some key => key.bytes ++ xorMask key.bytes f.payload
  | none => f.payload

def wire (f : ServerFrame) : List UInt8 :=
  [f.hdr0, f.hdr1] ++ (f.form.ext f.payload.length ++ f.body)

/-- The data that the frame contributes to the byte stream. -/
def data (f : ServerFrame) : List UInt8 :=
  match f.kind with
  | .data _ => f.payload
  | _ => []

theorem code_lt (f : ServerFrame) : f.form.code f.payload.length < 128 := by
  have hfits := f.fits
  cases hform : f.form with
  | short =>
    rw [hform] at hfits
    simp only [LenForm.Fits] at hfits
    simp only [LenForm.code]
    omega
  | ext16 => simp [LenForm.code]
  | ext64 => simp [LenForm.code]

theorem opcode_lt (f : ServerFrame) : f.kind.opcode < 16 := by
  cases f.kind with
  | data opcode => exact lt_trans opcode.isLt (by decide)
  | ping => decide
  | pong => decide

theorem hdr0_opcode (f : ServerFrame) : f.hdr0 &&& 0x0f = UInt8.ofNat f.kind.opcode := by
  have hop := f.opcode_lt
  have hflags := f.flags.isLt
  apply UInt8.toNat_inj.mp
  simp only [toNat_and_low, hdr0, UInt8.toNat_ofNat']
  omega

theorem hdr1_code (f : ServerFrame) : (f.hdr1 &&& 0x7f).toNat = f.form.code f.payload.length := by
  have hcode := f.code_lt
  simp only [toNat_and_seven, hdr1, UInt8.toNat_ofNat']
  split_ifs <;> omega

theorem hdr1_masked (f : ServerFrame) : (f.hdr1 &&& 0x80 != 0) = f.mask.isSome := by
  have hcode := f.code_lt
  simp only [and_top_ne_zero, hdr1, UInt8.toNat_ofNat']
  cases f.mask with
  | none =>
    simp only [Option.isSome_none, Bool.false_eq_true, if_false, decide_eq_false_iff_not]
    omega
  | some key =>
    simp only [Option.isSome_some, if_true, decide_eq_true_eq]
    omega

/-- What the read loop does once it has taken the whole frame. -/
def After (f : ServerFrame) (rest : ℕ → List UInt8 → Prop) (post : ℕ → Turn → List UInt8 → Prop)
    (drawn : ℕ) (w : List UInt8) : Prop :=
  match f.kind with
  | .data _ => post drawn (.ret (.ok f.payload)) w
  | .ping => rest (drawn + 1) w ∧ post (drawn + 1) .again w
  | .pong => post drawn .again w

/-- A reader of frames that rests only at a frame boundary. -/
abbrev FrameReads (rest : ℕ → List UInt8 → Prop) (short : List UInt8 → Prop) (cut : Turn → Prop)
    (post : ℕ → Turn → List UInt8 → Prop) : FrameReader → ℕ → List UInt8 → Prop :=
  Reader.Expect (fun label => Await.boundary label = true) rest short cut post

section Reading
variable {rest : ℕ → List UInt8 → Prop} {short : List UInt8 → Prop} {cut : Turn → Prop}
  {post : ℕ → Turn → List UInt8 → Prop}
  (rng : ℕ → MaskKey) {drawn : ℕ} {w : List UInt8}

theorem dispatch_reads (f : ServerFrame) (h : f.After rest post drawn w) :
    FrameReads rest short cut post (dispatch rng (UInt8.ofNat f.kind.opcode) f.payload) drawn w := by
  unfold After at h
  cases hkind : f.kind with
  | data opcode =>
    rw [hkind] at h
    have hle : ∀ opcode : Fin 3, UInt8.ofNat opcode.val ≤ 0x2 := by decide
    simpa [FrameReads, Reader.Expect, dispatch, Kind.opcode, hle opcode] using h
  | ping =>
    rw [hkind] at h
    exact ⟨h.1, fun _ => h.2⟩
  | pong =>
    rw [hkind] at h
    exact h

theorem readPayload_reads (f : ServerFrame) (mask : Option (List UInt8)) (enc : List UInt8)
    (hlen : enc.length = f.payload.length)
    (hmask : unmask mask enc = f.payload)
    (hcut : cut (.ret (.error .io))) (h : f.After rest post drawn w) :
    FrameReads rest short cut post
      (readPayload rng (UInt8.ofNat f.kind.opcode) mask f.payload.length) drawn (enc ++ w) := by
  have hsmall : ¬ f.payload.length > 1000000 := by
    have := f.small
    omega
  unfold readPayload
  simp only [hsmall, if_false]
  split_ifs with h0
  · have henc : enc = [] := List.length_eq_zero_iff.mp (hlen.trans h0)
    subst henc
    rw [hmask]
    exact f.dispatch_reads rng h
  · refine Reader.Expect.of_append hlen (by decide) hcut ?_
    rw [hmask]
    exact f.dispatch_reads rng h

theorem readMask_reads (f : ServerFrame) (hcut : cut (.ret (.error .io)))
    (h : f.After rest post drawn w) :
    FrameReads rest short cut post
      (readMask rng (UInt8.ofNat f.kind.opcode) f.mask.isSome f.payload.length) drawn
      (f.body ++ w) := by
  unfold readMask body
  cases f.mask with
  | none => exact f.readPayload_reads rng none f.payload rfl rfl hcut h
  | some key =>
    simp only [Option.isSome_some, if_true, List.append_assoc]
    refine Reader.Expect.of_append key.length_eq (by decide) hcut ?_
    exact f.readPayload_reads rng (some key.bytes) _ (by simp) (by simp [unmask]) hcut h

/-- The read loop takes exactly the frame's bytes. -/
theorem readDataFrame_reads (f : ServerFrame) (hrest : rest drawn (f.wire ++ w))
    (hcut : cut (.ret (.error .io))) (h : f.After rest post drawn w) :
    FrameReads rest short cut post (readDataFrame rng) drawn (f.wire ++ w) := by
  refine ⟨fun _ => hrest, ⟨_, rfl, hcut⟩, fun hshort => ?_, fun _ => ?_⟩
  · simp only [wire, List.cons_append, List.length_cons] at hshort
    omega
  have hbody : FrameReads rest short cut post _ drawn (f.body ++ w) := f.readMask_reads rng hcut h
  have hlen : f.payload.length < 256 ^ 8 := lt_of_le_of_lt f.small (by decide)
  simp only [wire, List.cons_append, List.nil_append, List.take_succ_cons, List.take_zero,
    List.drop_succ_cons, List.drop_zero, List.getD_cons_zero, List.getD_cons_succ,
    f.hdr0_opcode, f.hdr1_code, f.hdr1_masked]
  have hfits := f.fits
  cases hform : f.form with
  | short =>
    rw [hform] at hfits
    simp only [LenForm.Fits] at hfits
    have h126 : f.payload.length ≠ 126 := by omega
    have h127 : f.payload.length ≠ 127 := by omega
    simpa [LenForm.code, LenForm.ext, h126, h127] using hbody
  | ext16 =>
    rw [hform] at hfits
    simp only [LenForm.code, LenForm.ext, if_true, List.append_assoc]
    refine Reader.Expect.of_append (beBytes_length 2 _) (by decide) hcut ?_
    rw [ofBeBytes_beBytes 2 _ hfits]
    exact hbody
  | ext64 =>
    simp only [LenForm.code, LenForm.ext, List.append_assoc]
    refine Reader.Expect.of_append (beBytes_length 8 _) (by decide) hcut ?_
    rw [ofBeBytes_beBytes 8 _ hlen]
    exact hbody

end Reading

end ServerFrame

/-- The close frame of a server. -/
structure CloseFrame where
  flags : Fin 16
  payload : List UInt8
  fits : payload.length < 126

namespace CloseFrame

def wire (f : CloseFrame) : List UInt8 :=
  [UInt8.ofNat (16 * f.flags.val + 8), UInt8.ofNat f.payload.length] ++ f.payload

theorem opcode (f : CloseFrame) : UInt8.ofNat (16 * f.flags.val + 8) &&& 0x0f = 8 := by
  have hflags := f.flags.isLt
  apply UInt8.toNat_inj.mp
  simp only [toNat_and_low, UInt8.toNat_ofNat', UInt8.reduceToNat]
  omega

theorem code (f : CloseFrame) : (UInt8.ofNat f.payload.length &&& 0x7f).toNat = f.payload.length := by
  have hfits := f.fits
  simp only [toNat_and_seven, UInt8.toNat_ofNat']
  omega

theorem masked (f : CloseFrame) : (UInt8.ofNat f.payload.length &&& 0x80 != 0) = false := by
  have hfits := f.fits
  simp only [and_top_ne_zero, UInt8.toNat_ofNat', decide_eq_false_iff_not]
  omega

/-- The read loop ends with an error at a close frame. -/
theorem readDataFrame_reads (f : CloseFrame) (rng : ℕ → MaskKey) {drawn : ℕ} {w : List UInt8}
    {rest : ℕ → List UInt8 → Prop} {short : List UInt8 → Prop} {cut : Turn → Prop}
    {post : ℕ → Turn → List UInt8 → Prop} (hrest : rest drawn (f.wire ++ w))
    (hcut : cut (.ret (.error .io)))
    (h : post drawn (.ret (.error (.protocol "WS close"))) w) :
    ServerFrame.FrameReads rest short cut post (readDataFrame rng) drawn (f.wire ++ w) := by
  have hfits := f.fits
  refine ⟨fun _ => hrest, ⟨_, rfl, hcut⟩, fun hshort => ?_, fun _ => ?_⟩
  · simp only [wire, List.cons_append, List.length_cons] at hshort
    omega
  have h126 : f.payload.length ≠ 126 := by omega
  have h127 : f.payload.length ≠ 127 := by omega
  have hsmall : ¬ f.payload.length > 1000000 := by omega
  simp only [wire, List.cons_append, List.nil_append, List.take_succ_cons, List.take_zero,
    List.drop_succ_cons, List.drop_zero, List.getD_cons_zero, List.getD_cons_succ,
    f.opcode, f.code, f.masked, h126, h127, if_false, readMask, readPayload, hsmall,
    Bool.false_eq_true]
  split_ifs with h0
  · rw [List.length_eq_zero_iff.mp h0, List.nil_append]
    exact h
  · exact Reader.Expect.of_append rfl (by decide) hcut h

end CloseFrame

end EasyConnection.WebSocket
