import EasyConnection.Ssh.Http

/-! # Answers that a server may send to do harm

The lengths in an answer are any that 64 bits can hold. Every slice stays in its range, and every
sum but two: that of a declared length with the length of the head, and that of the size of a chunk
with its line break.
-/
namespace EasyConnection.Ssh
open Async Codec

section Chunks
variable {rest after : List UInt8} {size : ℕ}

/-- The size of the next chunk and what follows its line, with no bound on the numbers. -/
def nextChunk (rest : List UInt8) : Option (ℕ × List UInt8) := do
  let nl ← position crlf rest
  let size ← chunkSize (rest.take nl)
  return (size, rest.drop (nl + 2))

theorem nextChunk_shorter (h : nextChunk rest = some (size, after)) :
    after.length < rest.length := by
  obtain ⟨nl, hnl, h⟩ := Option.bind_eq_some_iff.1 h
  obtain ⟨_, -, h⟩ := Option.bind_eq_some_iff.1 h
  obtain ⟨-, rfl⟩ := Prod.mk.inj (Option.some.inj h)
  have hend : nl + 2 ≤ rest.length := position_end_le hnl
  rw [List.length_drop]
  omega

/-- The sizes of the chunks, as far as the chunks are there. -/
def chunkSizes (rest : List UInt8) : List ℕ :=
  match h : nextChunk rest with
  | none => []
  | some (size, after) =>
    have := nextChunk_shorter h
    size :: if size = 0 ∨ after.length < size + 2 then [] else chunkSizes (after.drop (size + 2))
termination_by rest.length
decreasing_by
  rw [List.length_drop]
  omega

theorem chunkHeader_eq (h : rest.length < usizeBound) : chunkHeader rest = .ok (nextChunk rest) := by
  unfold chunkHeader nextChunk
  cases hnl : position crlf rest with
  | none => rfl
  | some nl =>
    have hend : nl + 2 ≤ rest.length := position_end_le hnl
    dsimp only
    rw [sliceTo_eq (by omega), except_ok_bind]
    cases hsize : chunkSize (rest.take nl) with
    | none => simp [hsize, pure, Except.pure]
    | some size =>
      dsimp only
      rw [addUsize_eq (by omega), except_ok_bind, sliceFrom_eq hend]
      simp [hsize, pure, Except.pure, except_ok_bind]

theorem chunkStep_eq (h : rest.length < usizeBound) :
    chunkStep rest = match nextChunk rest with
      | none => .ok .broken
      | some (size, after) =>
        if size = 0 then .ok .last
        else if usizeBound ≤ size + 2 then .error .overflow
        else if after.length < size + 2 then .ok .broken
        else .ok (.chunk (after.take size) (after.drop (size + 2))) := by
  unfold chunkStep
  rw [chunkHeader_eq h, except_ok_bind]
  cases nextChunk rest with
  | none => rfl
  | some header =>
    obtain ⟨size, after⟩ := header
    dsimp only
    split_ifs with hzero hlarge hshort
    · rfl
    · rw [addUsize_overflow hlarge]
      rfl
    · rw [addUsize_eq (by omega), except_ok_bind, if_pos hshort]
      rfl
    · rw [addUsize_eq (by omega), except_ok_bind, if_neg hshort, sliceTo_eq (by omega),
        sliceFrom_eq (by omega)]
      rfl

theorem chunkSizes_eq (rest : List UInt8) :
    chunkSizes rest = match nextChunk rest with
      | none => []
      | some (size, after) =>
        size :: if size = 0 ∨ after.length < size + 2 then [] else chunkSizes (after.drop (size + 2)) := by
  rw [chunkSizes]
  split <;> rename_i h <;> simp only [h]

theorem decodeLoop_eq (out rest : List UInt8) :
    decodeLoop out rest = match chunkStep rest with
      | .error fault => .error fault
      | .ok .broken => .ok none
      | .ok .last => .ok (some out)
      | .ok (.chunk data after) => decodeLoop (out ++ data) after := by
  rw [decodeLoop]
  split <;> rename_i h <;> simp only [h]

/-- The decoder computes to its end exactly if no size of a chunk is within two of the bound. -/
theorem decodeLoop_ok_iff (h : rest.length < usizeBound) (out : List UInt8) :
    (∃ r, decodeLoop out rest = .ok r) ↔ ∀ size ∈ chunkSizes rest, size + 2 < usizeBound := by
  induction hn : rest.length using Nat.strong_induction_on generalizing rest out with
  | _ n ih =>
    rw [decodeLoop_eq, chunkSizes_eq, chunkStep_eq h]
    cases hnext : nextChunk rest with
    | none => exact iff_of_true ⟨_, rfl⟩ (by simp)
    | some header =>
      obtain ⟨size, after⟩ := header
      have hshorter := nextChunk_shorter hnext
      dsimp only
      rw [List.forall_mem_cons]
      by_cases hzero : size = 0
      · rw [if_pos hzero, if_pos (.inl hzero)]
        exact iff_of_true ⟨_, rfl⟩ ⟨by rw [hzero]; decide, by simp⟩
      · rw [if_neg hzero]
        by_cases hlarge : usizeBound ≤ size + 2
        · rw [if_pos hlarge]
          exact iff_of_false (by rintro ⟨_, hr⟩; cases hr) fun hsizes => by omega
        · rw [if_neg hlarge]
          by_cases hshort : after.length < size + 2
          · rw [if_pos hshort, if_pos (.inr hshort)]
            exact iff_of_true ⟨_, rfl⟩ ⟨by omega, by simp⟩
          · have hdrop : (after.drop (size + 2)).length < n := by
              rw [List.length_drop]
              omega
            rw [if_neg hshort, if_neg (by omega)]
            rw [and_iff_right (by omega : size + 2 < usizeBound)]
            exact ih _ hdrop (by omega) _ rfl

end Chunks

section Lengths
variable {buf s : List UInt8}

/-- Where an answer ends by the length that it declares. -/
def declaredEnd (buf : List UInt8) : Option ℕ :=
  (findHeaderEnd buf).bind fun headerEnd =>
    (contentLength (buf.take headerEnd)).map (headerEnd + 4 + ·)

theorem findHeaderEnd_le {headerEnd : ℕ} (h : findHeaderEnd buf = some headerEnd) :
    headerEnd + 4 ≤ buf.length :=
  position_end_le h

/-- A part of the stream has no head that the stream has not. -/
theorem declaredEnd_mono (hbuf : buf <+: s) {e : ℕ} (h : declaredEnd buf = some e) :
    declaredEnd s = some e := by
  obtain ⟨headerEnd, hend, h⟩ := Option.bind_eq_some_iff.1 h
  have hle := findHeaderEnd_le hend
  have hs : findHeaderEnd s = some headerEnd := position_mono hbuf hend
  obtain ⟨rest, rfl⟩ := hbuf
  rw [declaredEnd, hs, Option.bind_some, List.take_append_of_le_length (by omega)]
  exact h

theorem responseComplete_eq (h : buf.length < usizeBound) :
    responseComplete buf = if sshBanner <+: buf then .ok true
      else match declaredEnd buf with
        | none => .ok false
        | some e => if e < usizeBound then .ok (decide (e ≤ buf.length)) else .error .overflow := by
  unfold responseComplete declaredEnd
  split_ifs with hssh
  · rfl
  · cases hend : findHeaderEnd buf with
    | none => rfl
    | some headerEnd =>
      have hle := findHeaderEnd_le hend
      dsimp only
      rw [sliceTo_eq (by omega), except_ok_bind]
      cases hlength : contentLength (buf.take headerEnd) with
      | none => simp [hlength, pure, Except.pure]
      | some len =>
        dsimp only
        rw [addUsize_eq (by omega), except_ok_bind, Option.bind_some, hlength, Option.map_some]
        dsimp only
        by_cases hsum : headerEnd + 4 + len < usizeBound
        · rw [if_pos hsum, addUsize_eq hsum]
          rfl
        · rw [if_neg hsum, addUsize_overflow (Nat.not_lt.1 hsum)]
          rfl

end Lengths

section Safety

/-- The declared length of an HTTP answer can be added to the length of its head. -/
def LengthFits (s : List UInt8) : Prop :=
  ¬ sshBanner <+: s → ∀ e, declaredEnd s = some e → e < usizeBound

/-- The body of an HTTP answer in chunks. -/
def chunkedBody (buf : List UInt8) : Option (List UInt8) :=
  if sshBanner <+: buf then none
  else (findHeaderEnd buf).bind fun headerEnd =>
    ((fromUtf8 (buf.take headerEnd)).filter headHasChunked).map fun _ => buf.drop (headerEnd + 4)

/-- The sizes of the chunks can be added to the line breaks. -/
def ChunksFit (buf : List UInt8) : Prop :=
  ∀ body, chunkedBody buf = some body → ∀ size ∈ chunkSizes body, size + 2 < usizeBound

/-- The bytes that are taken apart, if it comes to that. -/
def ZoneStream.buffer (stream : ZoneStream) : Option (List UInt8) :=
  match gather responseRoom responseComplete [] stream.reads with
  | .stopped buf _ => some buf
  | .closed buf => stream.ending.toOption.map fun _ => buf
  | _ => none

/-- An answer with a head is taken apart without leaving a range, up to the decoder. -/
theorem splitHttp_of_head {buf : List UInt8} {headerEnd : ℕ} (h : buf.length < usizeBound)
    (hssh : ¬ sshBanner <+: buf) (hend : findHeaderEnd buf = some headerEnd) :
    splitHttp buf = match fromUtf8 (buf.take headerEnd) with
      | none => .ok (.error loadFailed)
      | some head =>
        if headHasChunked head then (decodeChunked (buf.drop (headerEnd + 4))).map fun decoded =>
          .ok ⟨statusOf head, decoded.getD (buf.drop (headerEnd + 4))⟩
        else .ok (.ok ⟨statusOf head, buf.drop (headerEnd + 4)⟩) := by
  have hle := findHeaderEnd_le hend
  unfold splitHttp
  rw [if_neg hssh, hend]
  dsimp only
  rw [sliceTo_eq (by omega), except_ok_bind]
  cases fromUtf8 (buf.take headerEnd) with
  | none => rfl
  | some head =>
    dsimp only
    rw [addUsize_eq (by omega), except_ok_bind, sliceFrom_eq hle, except_ok_bind]
    split_ifs
    · cases decodeChunked (buf.drop (headerEnd + 4)) <;> rfl
    · rfl

theorem map_ok_iff {α β : Type} {x : Machine α} {f : α → β} :
    (∃ b, x.map f = .ok b) ↔ ∃ a, x = .ok a := by
  cases x with
  | error fault => exact iff_of_false (by rintro ⟨_, h⟩; cases h) (by rintro ⟨_, h⟩; cases h)
  | ok a => exact iff_of_true ⟨_, rfl⟩ ⟨_, rfl⟩

theorem splitHttp_ok_iff {buf : List UInt8} (h : buf.length < usizeBound) :
    (∃ r, splitHttp buf = .ok r) ↔ ChunksFit buf := by
  unfold ChunksFit chunkedBody
  by_cases hssh : sshBanner <+: buf
  · rw [if_pos hssh]
    exact iff_of_true ⟨_, if_pos hssh⟩ fun _ hsome => by cases hsome
  rw [if_neg hssh]
  cases hend : findHeaderEnd buf with
  | none =>
    have hnone : splitHttp buf = .ok (.error loadFailed) := by
      rw [splitHttp, if_neg hssh, hend]
    exact iff_of_true ⟨_, hnone⟩ fun _ hsome => by cases hsome
  | some headerEnd =>
    rw [splitHttp_of_head h hssh hend, Option.bind_some]
    cases fromUtf8 (buf.take headerEnd) with
    | none => exact iff_of_true ⟨_, rfl⟩ fun _ hsome => by cases hsome
    | some head =>
      dsimp only
      rw [Option.filter_some]
      split_ifs with hchunked
      · have hbody : (buf.drop (headerEnd + 4)).length < usizeBound := by
          rw [List.length_drop]
          omega
        rw [map_ok_iff, Option.map_some]
        simp only [Option.some.injEq, forall_eq']
        exact decodeLoop_ok_iff hbody []
      · exact iff_of_true ⟨_, rfl⟩ fun _ hsome => by cases hsome

theorem maxResponse_lt : maxBody + 8192 < usizeBound := by decide

theorem responseRoom_eq {length n : ℕ} (h : length + n ≤ maxBody + 8192) :
    responseRoom length n = .ok true := by
  rw [responseRoom, addUsize_eq (Nat.lt_of_le_of_lt h maxResponse_lt), except_ok_bind,
    decide_eq_true h]
  rfl

variable {buf s : List UInt8}

theorem four_le_of_declaredEnd {e : ℕ} (h : declaredEnd buf = some e) : 4 ≤ buf.length := by
  obtain ⟨headerEnd, hend, -⟩ := Option.bind_eq_some_iff.1 h
  have hle := findHeaderEnd_le hend
  omega

theorem sshBanner_prefix_iff (hbuf : buf <+: s) (hfour : 4 ≤ buf.length) :
    sshBanner <+: buf ↔ sshBanner <+: s :=
  ⟨fun h => h.trans hbuf, fun h => List.prefix_of_prefix_length_le h hbuf hfour⟩

/-- If the lengths of the stream can be added, those of a part of it can. -/
theorem LengthFits.complete (hfits : LengthFits s) (hbuf : buf <+: s)
    (hlength : buf.length < usizeBound) (fault : Fault) : responseComplete buf ≠ .error fault := by
  rw [responseComplete_eq hlength]
  split_ifs with hssh
  · exact fun h => by cases h
  · cases hend : declaredEnd buf with
    | none => exact fun h => by cases h
    | some e =>
      have hnot : ¬ sshBanner <+: s :=
        mt (sshBanner_prefix_iff hbuf (four_le_of_declaredEnd hend)).2 hssh
      dsimp only
      rw [if_pos (hfits hnot e (declaredEnd_mono hbuf hend))]
      exact fun h => by cases h

/-- They can if a part of the stream is complete, or if the loop has seen the whole. -/
theorem lengthFits_of_complete {complete : Bool} (hbuf : buf <+: s)
    (hlength : buf.length < usizeBound) (h : responseComplete buf = .ok complete)
    (hall : complete = true ∨ buf = s) : LengthFits s := by
  intro hssh e hend
  have hnot : ¬ sshBanner <+: buf := fun hpart => hssh (hpart.trans hbuf)
  rw [responseComplete_eq hlength, if_neg hnot] at h
  have hdeclared : declaredEnd buf = some e := by
    rcases hall with rfl | rfl
    · cases hpart : declaredEnd buf with
      | none =>
        rw [hpart] at h
        cases h
      | some e' => rw [← hend, declaredEnd_mono hbuf hpart]
    · exact hend
  rw [hdeclared] at h
  by_contra hlarge
  dsimp only at h
  rw [if_neg hlarge] at h
  cases h

/-- How the loop ends on a stream that is within the limit. -/
inductive ResponseEnds (s : List UInt8) : Gathered Fault UInt8 → Prop where
  | closed (incomplete : responseComplete s = .ok false) : ResponseEnds s (.closed s)
  | failed {buf : List UInt8} {fault : Fault} (part : buf <+: s)
      (failed : responseComplete buf = .error fault) : ResponseEnds s (.failed fault)
  | stopped {buf : List UInt8} (rest : List (List UInt8)) (part : buf <+: s)
      (complete : responseComplete buf = .ok true) : ResponseEnds s (.stopped buf rest)

theorem response_ends {pieces : List (List UInt8)} (hflatten : pieces.flatten = s)
    (hsize : s.length ≤ maxBody + 8192) :
    ResponseEnds s (gather responseRoom responseComplete [] pieces) := by
  have hpart : ∀ {before after : List (List UInt8)} {piece : List UInt8},
      pieces = before ++ piece :: after → [] ++ before.flatten ++ piece <+: s ∧
        responseRoom ([] ++ before.flatten).length piece.length = .ok true := by
    intro before after piece hsplit
    have hs : s = before.flatten ++ piece ++ after.flatten := hflatten.symm.trans (flatten_split hsplit)
    have hlength : before.flatten.length + piece.length ≤ s.length := by
      rw [hs, List.length_append, List.length_append]
      omega
    refine ⟨?_, responseRoom_eq (hlength.trans hsize)⟩
    rw [hs]
    exact List.prefix_append _ _
  have hends : Ends responseRoom responseComplete [] pieces _ := gather_ends [] pieces
  revert hends
  generalize gather responseRoom responseComplete [] pieces = r
  intro hends
  cases hends with
  | closed quiet =>
    rw [List.nil_append, hflatten]
    refine .closed ?_
    by_cases hne : pieces = []
    · rw [← hflatten, hne]
      rfl
    · rw [← hflatten]
      exact quiet.last hne
  | noRoom split quiet full =>
    rw [(hpart split).2] at full
    cases full
  | roomFailed split quiet failed =>
    rw [(hpart split).2] at failed
    cases failed
  | stopFailed split quiet fits failed => exact .failed (hpart split).1 failed
  | stopped split quiet fits enough => exact .stopped _ (hpart split).1 enough

/-- The processing of an answer within the limit computes to its end exactly if the declared length
and the sizes of the chunks leave room for what is added to them. -/
theorem exchange_computes_iff (stream : ZoneStream)
    (hsize : stream.reads.flatten.length ≤ 1024 * 1024 + 8192) :
    (∃ r, exchangeAttempt stream = .ok r) ↔ (stream.opened = .ok () →
      LengthFits stream.reads.flatten ∧ ∀ buf, stream.buffer = some buf → ChunksFit buf) := by
  unfold exchangeAttempt ZoneStream.buffer
  cases stream.opened with
  | error e => exact iff_of_true ⟨_, rfl⟩ fun h => by cases h
  | ok u =>
    rw [forall_prop_of_true rfl]
    dsimp only
    have hpart : ∀ {buf : List UInt8}, buf <+: stream.reads.flatten → buf.length < usizeBound :=
      fun hbuf => Nat.lt_of_le_of_lt (hbuf.length_le.trans hsize) maxResponse_lt
    have hends := response_ends rfl hsize
    revert hends
    generalize gather responseRoom responseComplete [] stream.reads = r
    intro hends
    cases hends with
    | failed part failed =>
      exact iff_of_false (by rintro ⟨_, h⟩; cases h)
        fun h => h.1.complete part (hpart part) _ failed
    | stopped rest part complete =>
      have hfits := lengthFits_of_complete part (hpart part) complete (.inl rfl)
      simp only [Option.some.injEq, forall_eq', and_iff_right hfits]
      exact splitHttp_ok_iff (hpart part)
    | closed incomplete =>
      have hall : stream.reads.flatten.length < usizeBound := hpart List.prefix_rfl
      have hfits := lengthFits_of_complete List.prefix_rfl hall incomplete (.inr rfl)
      rw [and_iff_right hfits]
      cases stream.ending with
      | error e => exact iff_of_true ⟨_, rfl⟩ fun _ h => by cases h
      | ok u =>
        simp only [Except.toOption, Option.map_some, Option.some.injEq, forall_eq']
        exact splitHttp_ok_iff hall

/-- An answer of two reads. -/
def helloStream : ZoneStream :=
  ⟨.ok (), ["HTTP/1.1 200 OK\r\nContent-Length: 5\r\n\r\nhe".toUTF8.data.toList,
    "llo".toUTF8.data.toList], .ok ()⟩

theorem hello_answer_computes : ∃ r, exchangeAttempt helloStream = .ok r := by
  refine (exchange_computes_iff helloStream (by decide +kernel)).2 fun _ => ⟨?_, ?_⟩
  · intro _ e he
    have hend : declaredEnd helloStream.reads.flatten = some 43 := by decide +kernel
    obtain rfl := Option.some.inj (hend.symm.trans he)
    decide
  · intro buf hbuf body hbody
    have hbuffer : helloStream.buffer = some helloStream.reads.flatten := by decide +kernel
    have hplain : chunkedBody helloStream.reads.flatten = none := by decide +kernel
    obtain rfl := Option.some.inj (hbuffer.symm.trans hbuf)
    rw [hplain] at hbody
    cases hbody

def longestAnswer : List UInt8 :=
  "HTTP/1.1 200 OK\r\nContent-Length: 18446744073709551615\r\n\r\n".toUTF8.data.toList

def longestChunk : List UInt8 :=
  "HTTP/1.1 200 OK\r\nTransfer-Encoding: chunked\r\n\r\nffffffffffffffff\r\n".toUTF8.data.toList

/-- A declared length of sixty-four ones, and a chunk of such a size. -/
theorem longest_lengths_overflow :
    exchangeAttempt ⟨.ok (), [longestAnswer], .ok ()⟩ = .error .overflow ∧
      exchangeAttempt ⟨.ok (), [longestChunk], .ok ()⟩ = .error .overflow := by
  constructor
  · decide +kernel
  · have hend : findHeaderEnd longestChunk = some 43 := by decide +kernel
    have hstep : chunkStep (longestChunk.drop 47) = .error .overflow := by decide +kernel
    calc exchangeAttempt ⟨.ok (), [longestChunk], .ok ()⟩
      _ = splitHttp longestChunk := rfl
      _ = (decodeChunked (longestChunk.drop 47)).map _ :=
        splitHttp_of_head (by decide +kernel) (by decide +kernel) hend
      _ = .error .overflow := by rw [decodeChunked, decodeLoop_eq, hstep]; rfl

end Safety

end EasyConnection.Ssh
