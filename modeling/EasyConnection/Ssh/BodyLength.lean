import EasyConnection.Ssh.ResponseSafety

/-! # The body of an answer and the reads it comes in

The loop that reads an answer knows where it ends by its declared length. What it has read beyond
that end counts as part of the body all the same, and a stream that ends before it is no error.
-/
namespace EasyConnection.Ssh
open Async Codec

section Declared
variable {s buf : List UInt8} {headerEnd len : ℕ} {reads : List (List UInt8)}

/-- An HTTP answer within the limit that declares its length. -/
structure Declared (s : List UInt8) (headerEnd len : ℕ) : Prop where
  http : ¬ sshBanner <+: s
  head : findHeaderEnd s = some headerEnd
  length : contentLength (s.take headerEnd) = some len
  plain : headHasChunked (fromUtf8Lossy (s.take headerEnd)) = false
  size : s.length ≤ 1024 * 1024 + 8192

/-- What the declared length asks for: the status and so many bytes, or an error if they are not
all there. -/
def Exact (s : List UInt8) (headerEnd len : ℕ) (r : Machine (Except SshError HttpResponse)) : Prop :=
  if headerEnd + 4 + len ≤ s.length then
    r = .ok (.ok ⟨statusOf (fromUtf8Lossy (s.take headerEnd)), (s.drop (headerEnd + 4)).take len⟩)
  else ∃ e, r = .ok (.error e)

/-- What an answer comes to if so much of it is taken apart. -/
def taken (s : List UInt8) (headerEnd : ℕ) (buf : List UInt8) : Except SshError HttpResponse :=
  if (fromUtf8 (s.take headerEnd)).isSome then
    .ok ⟨statusOf (fromUtf8Lossy (s.take headerEnd)), buf.drop (headerEnd + 4)⟩
  else .error loadFailed

theorem exact_taken_iff : Exact s headerEnd len (.ok (taken s headerEnd buf)) ↔
    if (fromUtf8 (s.take headerEnd)).isSome then headerEnd + 4 + len ≤ s.length ∧
      buf.drop (headerEnd + 4) = (s.drop (headerEnd + 4)).take len
    else s.length < headerEnd + 4 + len := by
  unfold Exact taken
  split_ifs with hle htext htext <;> simp <;> omega

theorem not_exact_fault {fault : Fault} : ¬ Exact s headerEnd len (.error fault) := by
  unfold Exact
  split_ifs <;> simp

/-- The exchange over a stream that is read to its end. -/
def exchangeReads (reads : List (List UInt8)) : Machine (Except SshError HttpResponse) :=
  exchangeAttempt ⟨.ok (), reads, .ok ()⟩

namespace Declared

theorem length_lt (h : Declared s headerEnd len) (hbuf : buf <+: s) : buf.length < usizeBound :=
  Nat.lt_of_le_of_lt (hbuf.length_le.trans h.size) maxResponse_lt

theorem declaredEnd_eq (h : Declared s headerEnd len) : declaredEnd s = some (headerEnd + 4 + len) := by
  rw [declaredEnd, h.head, Option.bind_some, h.length, Option.map_some]

theorem findHeaderEnd_part (h : Declared s headerEnd len) (hbuf : buf <+: s)
    (hle : headerEnd + 4 ≤ buf.length) :
    findHeaderEnd buf = some headerEnd ∧ buf.take headerEnd = s.take headerEnd := by
  constructor
  · exact (position_part h.head hbuf).trans (if_pos hle)
  · rw [List.prefix_iff_eq_take.1 hbuf, List.take_take, Nat.min_eq_left (by omega)]

/-- The answer is complete where its declared length ends, if there is such a number. -/
theorem complete_eq (h : Declared s headerEnd len) (hbound : headerEnd + 4 + len < usizeBound)
    (hbuf : buf <+: s) :
    responseComplete buf = .ok (decide (headerEnd + 4 + len ≤ buf.length)) := by
  rw [responseComplete_eq (h.length_lt hbuf), if_neg fun hssh => h.http (hssh.trans hbuf)]
  cases hend : declaredEnd buf with
  | none =>
    refine congrArg Except.ok (decide_eq_false fun hle => ?_).symm
    obtain ⟨hhead, htake⟩ := h.findHeaderEnd_part hbuf (by omega)
    rw [declaredEnd, hhead, Option.bind_some, htake, h.length] at hend
    cases hend
  | some e =>
    obtain rfl : headerEnd + 4 + len = e :=
      Option.some.inj (h.declaredEnd_eq.symm.trans (declaredEnd_mono hbuf hend))
    dsimp only
    rw [if_pos hbound]

theorem splitHttp_eq (h : Declared s headerEnd len) (hbuf : buf <+: s)
    (hle : headerEnd + 4 ≤ buf.length) : splitHttp buf = .ok (taken s headerEnd buf) := by
  obtain ⟨hhead, htake⟩ := h.findHeaderEnd_part hbuf hle
  rw [splitHttp_of_head (h.length_lt hbuf) (fun hssh => h.http (hssh.trans hbuf)) hhead, htake, taken]
  cases htext : fromUtf8 (s.take headerEnd) with
  | none => rfl
  | some head =>
    have hplain := h.plain
    rw [fromUtf8Lossy_of_fromUtf8 htext] at hplain ⊢
    dsimp only
    rw [hplain]
    rfl

/-- What is taken apart is a part of the stream that has the declared length, or all of it. -/
theorem exchangeReads_eq (h : Declared s headerEnd len) (hbound : headerEnd + 4 + len < usizeBound)
    (hreads : reads.flatten = s) :
    ∃ buf, buf <+: s ∧ (headerEnd + 4 + len ≤ buf.length ∨ buf = s) ∧
      exchangeReads reads = .ok (taken s headerEnd buf) := by
  have hle := findHeaderEnd_le h.head
  unfold exchangeReads exchangeAttempt
  dsimp only
  have hends := response_ends hreads h.size
  revert hends
  generalize gather responseRoom responseComplete [] reads = r
  intro hends
  cases hends with
  | closed incomplete => exact ⟨s, List.prefix_rfl, .inr rfl, h.splitHttp_eq List.prefix_rfl hle⟩
  | failed part failed =>
    rw [h.complete_eq hbound part] at failed
    cases failed
  | stopped rest part complete =>
    rw [h.complete_eq hbound part] at complete
    have hall := of_decide_eq_true (Except.ok.inj complete)
    exact ⟨_, part, .inl hall, h.splitHttp_eq part (by omega)⟩

theorem exchangeReads_overflow (h : Declared s headerEnd len)
    (hbound : usizeBound ≤ headerEnd + 4 + len) (hreads : reads.flatten = s) :
    ∃ fault, exchangeReads reads = .error fault := by
  have hnot : ∀ {buf complete}, buf <+: s → responseComplete buf = .ok complete →
      complete = true ∨ buf = s → False := by
    intro buf complete hbuf hcomplete hall
    have hfits := lengthFits_of_complete hbuf (h.length_lt hbuf) hcomplete hall
    have hlt := hfits h.http _ h.declaredEnd_eq
    omega
  unfold exchangeReads exchangeAttempt
  dsimp only
  have hends := response_ends hreads h.size
  revert hends
  generalize gather responseRoom responseComplete [] reads = r
  intro hends
  cases hends with
  | closed incomplete => exact (hnot List.prefix_rfl incomplete (.inr rfl)).elim
  | failed part failed => exact ⟨_, rfl⟩
  | stopped rest part complete => exact (hnot part complete (.inl rfl)).elim

/-- A read across the end of the declared length. -/
theorem exchangeReads_across (h : Declared s headerEnd len)
    (hlong : headerEnd + 4 + len < s.length) :
    exchangeReads (singlesAround (headerEnd + 3 + len) 2 s) =
      .ok (taken s headerEnd (s.take (headerEnd + 3 + len + 2))) := by
  have hsize := h.size
  have hbound : headerEnd + 4 + len < usizeBound := hlong.trans (h.length_lt List.prefix_rfl)
  have hroom : ∀ a b, a + b ≤ headerEnd + 3 + len + 2 → responseRoom a b = .ok true := by
    intro a b hle
    refine responseRoom_eq ?_
    rw [maxBody]
    omega
  have hbefore : ∀ b, b <+: s.take (headerEnd + 3 + len) → responseComplete b = .ok false := by
    intro b hb
    have hle := hb.length_le.trans (List.length_take_le ..)
    rw [h.complete_eq hbound (hb.trans (List.take_prefix ..)), decide_eq_false (by omega)]
  have hacross : responseComplete (s.take (headerEnd + 3 + len + 2)) = .ok true := by
    rw [h.complete_eq hbound (List.take_prefix ..), List.length_take, decide_eq_true (by omega)]
  have hgather : gather responseRoom responseComplete [] (singlesAround (headerEnd + 3 + len) 2 s) =
      .stopped (s.take (headerEnd + 3 + len + 2)) (singles (s.drop (headerEnd + 3 + len + 2))) := by
    rw [gather_singlesAround (fun a b hle => hroom a b (by omega)) hbefore, gather,
      hroom _ _ (by simp only [List.length_take, List.length_drop]; omega)]
    dsimp only
    rw [← List.take_add, hacross]
  unfold exchangeReads exchangeAttempt
  dsimp only
  rw [hgather]
  exact h.splitHttp_eq (List.take_prefix ..) (by rw [List.length_take]; omega)

end Declared

/-- The result does not depend on the reads, and is the one that the declared length asks for,
exactly if the stream ends with the declared length. A head that is not UTF-8 is an error, which
only a stream that is too short asks for. -/
theorem exchange_segmentation_iff (h : Declared s headerEnd len) :
    (∀ reads reads', Segmentation 8192 s reads → Segmentation 8192 s reads' →
      exchangeReads reads = exchangeReads reads' ∧ Exact s headerEnd len (exchangeReads reads)) ↔
    if (fromUtf8 (s.take headerEnd)).isSome then s.length = headerEnd + 4 + len
    else s.length < headerEnd + 4 + len ∧ headerEnd + 4 + len < usizeBound := by
  constructor
  · intro hsame
    have hone := segmentation_singles (by decide : 0 < 8192) s
    have hexact := (hsame _ _ hone hone).2
    by_cases hbound : headerEnd + 4 + len < usizeBound
    · obtain ⟨buf, -, -, heq⟩ := h.exchangeReads_eq hbound hone.flatten
      rw [heq, exact_taken_iff] at hexact
      split_ifs at hexact ⊢ with htext
      · by_contra hne
        have hlong : headerEnd + 4 + len < s.length := by omega
        have htwo : Segmentation 8192 s (singlesAround (headerEnd + 3 + len) 2 s) :=
          segmentation_singlesAround (by decide) (by decide) (by omega)
        have hacross := (hsame _ _ htwo hone).2
        rw [h.exchangeReads_across hlong, exact_taken_iff, if_pos htext] at hacross
        have hbody := congrArg List.length hacross.2
        simp only [List.length_drop, List.length_take] at hbody
        omega
      · exact ⟨hexact, hbound⟩
    · obtain ⟨fault, hfault⟩ := h.exchangeReads_overflow (Nat.not_lt.1 hbound) hone.flatten
      rw [hfault] at hexact
      exact (not_exact_fault hexact).elim
  · intro hcond
    -- Every segmentation comes to the whole stream, or to the error for the head.
    have hall : headerEnd + 4 + len < usizeBound ∧ ∀ buf, buf <+: s →
        headerEnd + 4 + len ≤ buf.length ∨ buf = s → taken s headerEnd buf = taken s headerEnd s := by
      split_ifs at hcond with htext
      · refine ⟨hcond ▸ h.length_lt List.prefix_rfl, fun buf hbuf hend => ?_⟩
        rw [hend.elim (fun hle => hbuf.eq_of_length_le (by omega)) id]
      · refine ⟨hcond.2, fun buf hbuf hend => ?_⟩
        rw [taken, taken, if_neg htext, if_neg htext]
    have hreads : ∀ reads, Segmentation 8192 s reads →
        exchangeReads reads = .ok (taken s headerEnd s) := by
      intro reads hseg
      obtain ⟨buf, hbuf, hend, heq⟩ := h.exchangeReads_eq hall.1 hseg.flatten
      rw [heq, hall.2 buf hbuf hend]
    intro reads reads' hseg hseg'
    rw [hreads reads hseg, hreads reads' hseg', exact_taken_iff]
    refine ⟨rfl, ?_⟩
    split_ifs at hcond ⊢ with htext
    · refine ⟨hcond.ge, (List.take_of_length_le ?_).symm⟩
      rw [List.length_drop]
      omega
    · exact hcond.1

def helloHead : List UInt8 := "HTTP/1.1 200 OK\r\nContent-Length: 5\r\n\r\n".toUTF8.data.toList

def hello : List UInt8 := "hello".toUTF8.data.toList

theorem declared_hello : Declared (helloHead ++ hello) 34 5 :=
  ⟨by decide +kernel, by decide +kernel, by decide +kernel, by decide +kernel, by decide +kernel⟩

theorem hello_in_one_read_or_two :
    exchangeReads [helloHead ++ hello] = exchangeReads [helloHead, hello] ∧
      Exact (helloHead ++ hello) 34 5 (exchangeReads [helloHead ++ hello]) :=
  (exchange_segmentation_iff declared_hello).2 (by decide +kernel) _ _
    ⟨by decide +kernel, by decide +kernel⟩ ⟨by decide +kernel, by decide +kernel⟩

/-- A byte too many is in the body or not, as the reads will have it, and with one too few the body
is short. -/
theorem hello_body_of_reads :
    Declared (helloHead ++ hello ++ [33]) 34 5 ∧
      exchangeReads [helloHead ++ hello, [33]] = .ok (.ok ⟨200, hello⟩) ∧
      exchangeReads [helloHead ++ hello ++ [33]] = .ok (.ok ⟨200, hello ++ [33]⟩) ∧
    Declared (helloHead ++ hello.dropLast) 34 5 ∧
      exchangeReads [helloHead ++ hello.dropLast] = .ok (.ok ⟨200, hello.dropLast⟩) := by
  refine ⟨?_, by decide +kernel, by decide +kernel, ?_, by decide +kernel⟩
  · exact ⟨by decide +kernel, by decide +kernel, by decide +kernel, by decide +kernel,
      by decide +kernel⟩
  · exact ⟨by decide +kernel, by decide +kernel, by decide +kernel, by decide +kernel,
      by decide +kernel⟩

end Declared

end EasyConnection.Ssh
