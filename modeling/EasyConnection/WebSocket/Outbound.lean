import EasyConnection.Async.Outbound
import EasyConnection.WebSocket.Pump

/-! # What a WebSocket task puts on the wire

The task writes data frames, and its frame reader answers pings. A pong of which a part has been
written when local bytes win is cut off, and the next frame stands in the middle of it. As long as
that does not happen, the wire holds whole masked frames at every moment, up to the one that is
being written. A pong of which nothing has been written yet may well be given up.
-/
namespace EasyConnection.WebSocket
open Async Codec

/-- A frame as a client may send it: final, without reserved bits, and masked. -/
structure ServerFrame.Masked (f : ServerFrame) : Prop where
  final : f.flags = 8
  masked : f.mask.isSome = true
  kind : f.kind = .data 2 ∨ f.kind = .pong

/-- The shortest length form. -/
def LenForm.shortest (n : ℕ) : LenForm :=
  if n < 126 then .short else if n ≤ 65535 then .ext16 else .ext64

theorem LenForm.shortest_fits (n : ℕ) : (LenForm.shortest n).Fits n := by
  unfold shortest
  split_ifs with hshort hext
  · exact hshort
  · exact Nat.lt_succ_of_le hext
  · trivial

/-- A frame as `writeFrame` puts it together. -/
def writtenFrame (kind : Kind) (payload : List UInt8) (small : payload.length ≤ 1000000)
    (key : Option MaskKey) : ServerFrame where
  flags := finFlag
  kind := kind
  form := .shortest payload.length
  mask := key
  payload := payload
  small := small
  fits := LenForm.shortest_fits _

theorem writtenFrame_hdr0 (kind : Kind) {payload : List UInt8} (small : payload.length ≤ 1000000)
    (key : Option MaskKey) :
    (writtenFrame kind payload small key).hdr0 = 0x80 ||| UInt8.ofNat kind.opcode := by
  have hbit : ∀ n < 16, UInt8.ofNat (16 * 8 + n) = 0x80 ||| UInt8.ofNat n := by decide
  exact hbit kind.opcode (writtenFrame kind payload small key).opcode_lt

theorem writtenFrame_hdr1 (kind : Kind) {payload : List UInt8} (small : payload.length ≤ 1000000)
    (key : Option MaskKey) :
    (writtenFrame kind payload small key).hdr1 = (if key.isSome then 0x80 else 0) |||
      UInt8.ofNat ((LenForm.shortest payload.length).code payload.length) := by
  have hbit : ∀ masked : Bool, ∀ n < 128, UInt8.ofNat ((if masked then 128 else 0) + n) =
      (if masked then 0x80 else 0) ||| UInt8.ofNat n := by decide
  exact hbit key.isSome _ (writtenFrame kind payload small key).code_lt

theorem writtenFrame_wire (kind : Kind) {payload : List UInt8} (small : payload.length ≤ 1000000)
    (key : Option MaskKey) :
    (writtenFrame kind payload small key).wire =
      writeFrame (UInt8.ofNat kind.opcode) payload key := by
  rw [ServerFrame.wire, writtenFrame_hdr0, writtenFrame_hdr1]
  simp only [writtenFrame, ServerFrame.body, writeFrame, LenForm.shortest]
  by_cases hshort : payload.length < 126
  · rw [if_pos hshort, if_pos hshort]
    rfl
  rw [if_neg hshort, if_neg hshort]
  by_cases hext : payload.length ≤ 65535
  · rw [if_pos hext, if_pos hext]
    rfl
  · rw [if_neg hext, if_neg hext]
    rfl

/-- The bursts are masked frames, whose data is what has been read from the local side. -/
def Frames (ds bs : List (List UInt8)) (_ : ℕ) : Prop :=
  ∃ fs : List ServerFrame, bs = fs.map ServerFrame.wire ∧ (∀ f ∈ fs, f.Masked) ∧
    payloads fs = ds.flatten

theorem Frames.snoc {ds ds' bs : List (List UInt8)} {s : ℕ} (h : Frames ds bs s) {f : ServerFrame}
    (hf : f.Masked) (hds : ds'.flatten = ds.flatten ++ f.data) (t : ℕ) :
    Frames ds' (bs ++ [f.wire]) t := by
  obtain ⟨fs, rfl, hmasked, hpayloads⟩ := h
  refine ⟨fs ++ [f], by rw [List.map_append, List.map_singleton], ?_, ?_⟩
  · intro g hg
    obtain hg | hg := List.mem_append.1 hg
    · exact hmasked g hg
    · exact List.mem_singleton.1 hg ▸ hf
  · rw [hds, ← hpayloads, payloads, List.flatMap_append, List.flatMap_singleton, payloads]

theorem Frames.data {ds bs : List (List UInt8)} {s : ℕ} (h : Frames ds bs s) {data : List UInt8}
    (small : data.length ≤ 1000000) (key : MaskKey) (t : ℕ) :
    Frames (ds ++ [data]) (bs ++ [writeFrame 0x2 data (some key)]) t := by
  have hf : (writtenFrame (.data 2) data small (some key)).Masked := ⟨rfl, rfl, .inl rfl⟩
  have hwire := writtenFrame_wire (.data 2) small (some key)
  exact hwire ▸ h.snoc hf (by simp [writtenFrame, ServerFrame.data]) t

theorem Frames.pong {ds bs : List (List UInt8)} {s : ℕ} (h : Frames ds bs s) {payload : List UInt8}
    (small : payload.length ≤ 1000000) (key : MaskKey) (t : ℕ) :
    Frames ds (bs ++ [writeFrame 0xA payload (some key)]) t := by
  have hf : (writtenFrame .pong payload small (some key)).Masked := ⟨rfl, rfl, .inr rfl⟩
  have hwire := writtenFrame_wire .pong small (some key)
  exact hwire ▸ h.snoc hf (by simp [writtenFrame, ServerFrame.data]) t

section Logs
variable (rng : ℕ → MaskKey) (ds bs : List (List UInt8))

theorem dispatch_logs (opcode : UInt8) {payload : List UInt8} (small : payload.length ≤ 1000000) :
    (dispatch rng opcode payload).Logs (Frames ds) True bs := by
  unfold dispatch
  split_ifs
  · trivial
  · trivial
  · intro drawn h
    exact ⟨h, trivial, fun _ hs => hs.pong small _ _, trivial, trivial⟩
  · trivial
  · trivial

theorem readPayload_logs (opcode : UInt8) (mask : Option (List UInt8)) (len : ℕ) :
    (readPayload rng opcode mask len).Logs (Frames ds) True bs := by
  have hunmask : ∀ payload : List UInt8, (unmask mask payload).length = payload.length := by
    intro payload
    cases mask with
    | none => rfl
    | some key => exact xorMask_length key payload
  unfold readPayload
  split_ifs with hlarge hempty
  · trivial
  · exact dispatch_logs rng ds bs opcode (by simp [hunmask])
  · exact ⟨trivial, fun payload hlen => dispatch_logs rng ds bs opcode (by rw [hunmask]; omega)⟩

theorem readMask_logs (opcode : UInt8) (masked : Bool) (len : ℕ) :
    (readMask rng opcode masked len).Logs (Frames ds) True bs := by
  unfold readMask
  split_ifs
  · exact ⟨trivial, fun key _ => readPayload_logs rng ds bs opcode (some key) len⟩
  · exact readPayload_logs rng ds bs opcode none len

theorem readDataFrame_logs : (readDataFrame rng).Logs (Frames ds) True bs := by
  refine ⟨trivial, fun hdr _ => ?_⟩
  dsimp only
  split_ifs
  · exact ⟨trivial, fun ext _ => readMask_logs rng ds bs _ _ _⟩
  · exact ⟨trivial, fun ext _ => readMask_logs rng ds bs _ _ _⟩
  · exact readMask_logs rng ds bs _ _ _

end Logs

theorem pump_logged (rng : ℕ → MaskKey) : (pump rng).Logged Frames True where
  start := readDataFrame_logs rng
  onLocal := by
    intro ds bs drawn data _ hle hs
    have hle : data.length ≤ 16384 := hle
    exact ⟨_, rfl, hs.data (by omega) (rng drawn) _⟩

/-- The wire holds whole masked frames and then what is written so far of the frame being
written. Their data is what has been read from the local side. -/
def Framed (ds : List (List UInt8)) (st : PumpState) : Prop :=
  ∃ (done : List ServerFrame) (started rest : List UInt8), (∀ f ∈ done, f.Masked) ∧
    st.outbound = wires done ++ started ∧
    (started = [] ∧ rest = [] ∧ payloads done = ds.flatten ∨
      ∃ f : ServerFrame, f.Masked ∧ f.wire = started ++ rest ∧
        payloads (done ++ [f]) = ds.flatten) ∧
    ((∀ why, st.phase ≠ .ended why) → rest = st.phase.unwritten)

theorem framed_of_wrote {ds bs : List (List UInt8)} {rest : List UInt8} {st : PumpState}
    (h : Frames ds bs st.shared) (hwrote : Pump.Wrote bs rest st)
    (hrest : (∀ why, st.phase ≠ .ended why) → rest = st.phase.unwritten) : Framed ds st := by
  obtain ⟨fs, rfl, hmasked, hpayloads⟩ := h
  obtain ⟨hflat, rfl | ⟨last, hlast, started, rfl⟩⟩ := hwrote
  · refine ⟨fs, [], [], hmasked, ?_, .inl ⟨rfl, rfl, hpayloads⟩, hrest⟩
    simpa [wires, List.flatMap_def] using hflat
  · rw [List.getLast?_map, Option.map_eq_some_iff] at hlast
    obtain ⟨f, hlast, hwire⟩ := hlast
    obtain ⟨done, rfl⟩ := List.getLast?_eq_some_iff.1 hlast
    have hout : st.outbound = wires done ++ started := by
      rw [List.map_append, List.flatten_append, List.map_singleton, List.flatten_singleton, hwire,
        ← List.append_assoc, ← List.flatMap_def] at hflat
      exact List.append_cancel_right hflat
    refine ⟨done, started, rest, fun g hg => hmasked g (List.mem_append_left _ hg), hout,
      .inr ⟨f, hmasked f (by simp), hwire, hpayloads⟩, hrest⟩

/-- In a run in which neither local bytes nor a failed write cut off a pong that is partly written,
the wire holds whole masked frames at every moment. -/
theorem pump_writes_frames (rng : ℕ → MaskKey) (wire : List UInt8) (es : List Pump.Event)
    (st : PumpState)
    (hsteady : Meets (pump rng).step (fun st e => Pump.Steady st e = true)
      ((pump rng).initial 0 wire) es)
    (hrun : run (pump rng).step ((pump rng).initial 0 wire) es = some st) :
    Framed (es.flatMap Pump.Event.localBytes) st := by
  have hinit : Frames [] [] 0 := ⟨[], rfl, nofun, rfl⟩
  obtain ⟨bs, rest, hs, hwrote, hrest⟩ := Pump.outbound_integrity (pump_logged rng) hinit
    (hsteady.mono fun _ _ h _ => h) hrun
  exact framed_of_wrote hs hwrote hrest

/-- A ping that is answered before the next local bytes win. -/
theorem pump_writes_frames_after_pong :
    ∃ st, run (pump fun _ => zeroKey).step ((pump fun _ => zeroKey).initial 0 [0x89, 0x00])
        [.arrive 2, .take 2, .accept 2, .accept 4, .localRead [0x68], .accept 7] = some st ∧
      st.outbound = [0x8a, 0x80, 0, 0, 0, 0, 0x82, 0x81, 0, 0, 0, 0, 0x68] ∧ Framed [[0x68]] st :=
  ⟨_, rfl, rfl, pump_writes_frames (fun _ => zeroKey) [0x89, 0x00]
    [.arrive 2, .take 2, .accept 2, .accept 4, .localRead [0x68], .accept 7] _ (by decide) rfl⟩

theorem ServerFrame.Masked.length_wire {f : ServerFrame} (h : f.Masked) :
    f.wire.length = 6 + (f.form.ext f.payload.length).length + f.payload.length := by
  obtain ⟨key, hkey⟩ := Option.isSome_iff_exists.1 h.masked
  simp only [ServerFrame.wire, ServerFrame.body, hkey, List.length_append, key.length_eq,
    xorMask_length, List.length_cons, List.length_nil]
  omega

/-- A header with no length bits stands for a frame of six bytes. -/
theorem ServerFrame.Masked.empty {f : ServerFrame} (h : f.Masked) (hlen : f.hdr1 = 0x80) :
    f.wire.length = 6 := by
  have hcode := f.hdr1_code
  rw [hlen] at hcode
  rw [h.length_wire]
  cases hform : f.form with
  | short => simpa [hform, LenForm.code, LenForm.ext] using hcode.symm
  | ext16 => simp [hform, LenForm.code] at hcode
  | ext64 => simp [hform, LenForm.code] at hcode

theorem Framed.whole {ds : List (List UInt8)} {st : PumpState} (h : Framed ds st)
    (hphase : ∀ why, st.phase ≠ .ended why) (hnone : st.phase.unwritten = []) :
    ∃ fs : List ServerFrame, (∀ f ∈ fs, f.Masked) ∧ st.outbound = wires fs := by
  obtain ⟨done, started, rest, hmasked, hout, hlast, hrest⟩ := h
  have hnil : rest = [] := (hrest hphase).trans hnone
  obtain ⟨rfl, _, _⟩ | ⟨f, hf, hwire, _⟩ := hlast
  · exact ⟨done, hmasked, by rw [hout, List.append_nil]⟩
  · refine ⟨done ++ [f], ?_, ?_⟩
    · intro g hg
      obtain hg | hg := List.mem_append.1 hg
      · exact hmasked g hg
      · exact List.mem_singleton.1 hg ▸ hf
    · rw [hout, wires, wires, List.flatMap_append, List.flatMap_singleton, hwire, hnil,
        List.append_nil]

/-- Local bytes that arrive when two bytes of a pong are written put a data frame behind them:
`8a 80 82 81 00 00 00 00 68`. -/
theorem pump_cuts_off_pong :
    ¬ ∀ (rng : ℕ → MaskKey) (wire : List UInt8) (es : List Pump.Event) (st : PumpState),
      run (pump rng).step ((pump rng).initial 0 wire) es = some st →
      Framed (es.flatMap Pump.Event.localBytes) st := by
  intro h
  have hbad := h (fun _ => zeroKey) [0x89, 0x00]
    [.arrive 2, .take 2, .accept 2, .localRead [0x68], .accept 7] _ rfl
  obtain ⟨fs, hmasked, hout⟩ := hbad.whole nofun rfl
  -- the first header says six bytes, and three bytes are no frame
  cases fs with
  | nil => cases hout
  | cons f fs =>
    have hf := hmasked f List.mem_cons_self
    have hhdr : (0x80 : UInt8) = f.hdr1 := (List.cons.inj (List.cons.inj hout).2).1
    have hlen : 9 = f.wire.length + (wires fs).length := by
      rw [← List.length_append]
      exact congrArg List.length hout
    rw [hf.empty hhdr.symm] at hlen
    cases fs with
    | nil => cases hlen
    | cons g fs =>
      have hg := (hmasked g (by simp)).length_wire
      rw [wires, List.flatMap_cons, List.length_append] at hlen
      omega

end EasyConnection.WebSocket
