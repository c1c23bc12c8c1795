import Mathlib.Data.List.Infix
import EasyConnection.Config.Envelope
import EasyConnection.Config.Import

/-! # Percent decoding

The two decoders of links against the one that the text of a link is meant for: a percent sign with
two hexadecimal digits is a byte, and everything else stands for itself. The decoder of share links
also takes a plus sign with one digit for a number.
-/
namespace EasyConnection.Config
open Codec

section Reference

def hexDigit (b : UInt8) : Option ℕ := Net.digitValue 16 (Char.ofUInt8 b)

/-- The byte of two digits. -/
def digitPair (x y : UInt8) : Option UInt8 := do
  let high ← hexDigit x
  let low ← hexDigit y
  return UInt8.ofNat (16 * high + low)

def referenceBytes : List UInt8 → List UInt8
  | [] => []
  | [b] => [b]
  | [b, x] => [b, x]
  | b :: x :: y :: rest =>
    if b = 0x25 then
      match digitPair x y with
      | some v => v :: referenceBytes rest
      | none => b :: referenceBytes (x :: y :: rest)
    else b :: referenceBytes (x :: y :: rest)

def referenceDecode (s : String) : String := fromUtf8Lossy (referenceBytes (textBytes s))

/-- A percent sign, a plus sign and a digit. -/
def Signed (bytes : List UInt8) : Prop :=
  ∃ d, (hexDigit d).isSome ∧ [0x25, 0x2b, d] <:+: bytes

end Reference

section Digits
variable {x y : UInt8}

theorem hexDigit_plus : hexDigit 0x2b = none := by decide

theorem ne_percent_of_hexDigit (h : (hexDigit x).isSome) : x ≠ 0x25 := by
  rintro rfl
  exact absurd h (by decide)

theorem hexPair_eq_digitPair (h : x ≠ 0x2b) : hexPair x y = digitPair x y := by
  unfold hexPair digitPair hexDigit
  cases Net.digitValue 16 (Char.ofUInt8 y) with
  | none => cases Net.digitValue 16 (Char.ofUInt8 x) <;> rfl
  | some low => simp [h]

theorem hexPair_plus : hexPair 0x2b y = (hexDigit y).map UInt8.ofNat := by
  unfold hexPair hexDigit
  cases Net.digitValue 16 (Char.ofUInt8 y) <;> rfl

theorem digitPair_plus : digitPair 0x2b y = none := by
  rw [digitPair, hexDigit_plus]
  rfl

theorem digitPair_of_hexPair (h : hexPair x y = none) : digitPair x y = none := by
  by_cases hx : x = 0x2b
  · rw [hx, digitPair_plus]
  · rwa [← hexPair_eq_digitPair hx]

theorem hexDigit_of_digitPair {v : UInt8} (h : digitPair x y = some v) :
    (hexDigit x).isSome ∧ (hexDigit y).isSome := by
  unfold digitPair at h
  obtain ⟨high, hhigh, h⟩ := Option.bind_eq_some_iff.1 h
  obtain ⟨low, hlow, -⟩ := Option.bind_eq_some_iff.1 h
  rw [hhigh, hlow]
  exact ⟨rfl, rfl⟩

theorem hexDigit_lt {n : ℕ} (h : hexDigit x = some n) : n < 16 := by
  rw [hexDigit, Net.digitValue] at h
  obtain ⟨hlt, hv⟩ := Option.ite_none_right_eq_some.1 h
  rwa [← Option.some.inj hv]

end Digits

section Comparison
variable {bytes : List UInt8}

theorem Signed.cons (h : Signed bytes) (b : UInt8) : Signed (b :: bytes) := by
  obtain ⟨d, hd, hinfix⟩ := h
  exact ⟨d, hd, hinfix.trans (List.suffix_cons b bytes).isInfix⟩

/-- It stands at the front or behind. -/
theorem signed_cons_iff {b : UInt8} : Signed (b :: bytes) ↔
    (b = 0x25 ∧ ∃ d rest, (hexDigit d).isSome ∧ bytes = 0x2b :: d :: rest) ∨ Signed bytes := by
  constructor
  · rintro ⟨d, hd, hinfix⟩
    rcases List.infix_cons_iff.1 hinfix with ⟨rest, hfront⟩ | hbehind
    · obtain ⟨rfl, rfl⟩ := List.cons.inj hfront
      exact .inl ⟨rfl, d, rest, hd, rfl⟩
    · exact .inr ⟨d, hd, hbehind⟩
  · rintro (⟨rfl, d, rest, hd, rfl⟩ | h)
    · exact ⟨d, hd, (List.prefix_append [0x25, 0x2b, d] rest).isInfix⟩
    · exact h.cons b

theorem Signed.length_le (h : Signed bytes) : 3 ≤ bytes.length := by
  obtain ⟨d, -, hinfix⟩ := h
  exact hinfix.length_le

/-- Two digits are no part of it. -/
theorem signed_of_digits {b x y : UInt8} (hx : (hexDigit x).isSome) (hy : (hexDigit y).isSome)
    (h : Signed (b :: x :: y :: bytes)) : Signed bytes := by
  rcases signed_cons_iff.1 h with ⟨-, d, rest, -, hplus⟩ | h
  · rw [(List.cons.inj hplus).1, hexDigit_plus] at hx
    cases hx
  rcases signed_cons_iff.1 h with ⟨hpercent, -⟩ | h
  · exact absurd hpercent (ne_percent_of_hexDigit hx)
  rcases signed_cons_iff.1 h with ⟨hpercent, -⟩ | h
  · exact absurd hpercent (ne_percent_of_hexDigit hy)
  · exact h

theorem percentBytes_eq_referenceBytes (h : ¬ Signed bytes) :
    percentBytes bytes = referenceBytes bytes := by
  fun_induction percentBytes bytes with
  | case1 => rfl
  | case2 b => rfl
  | case3 b x => rfl
  | case4 x y rest v hpair ih =>
    have hx : x ≠ 0x2b := by
      rintro rfl
      rw [hexPair_plus] at hpair
      obtain ⟨n, hn, -⟩ := Option.map_eq_some_iff.1 hpair
      exact h (signed_cons_iff.2 (.inl ⟨rfl, y, rest, hn ▸ rfl, rfl⟩))
    rw [hexPair_eq_digitPair hx] at hpair
    rw [referenceBytes, if_pos rfl, hpair, ih fun hrest => h (((hrest.cons y).cons x).cons _)]
  | case5 x y rest hpair ih =>
    rw [referenceBytes, if_pos rfl, digitPair_of_hexPair hpair, ih fun hrest => h (hrest.cons _)]
  | case6 b x y rest hb ih =>
    rw [referenceBytes, if_neg hb, ih fun hrest => h (hrest.cons b)]

theorem lossyChars_cons_ne {p : Option Pending} (hp : ∀ q ∈ p, 0x80 ≤ q.low) {b : UInt8}
    {as bs : List UInt8}
    (h : ∀ {p : Option Pending}, (∀ q ∈ p, 0x80 ≤ q.low) → lossyChars p as ≠ lossyChars p bs) :
    lossyChars p (b :: as) ≠ lossyChars p (b :: bs) := by
  intro heq
  rw [lossyChars, lossyChars] at heq
  exact h (nextByte_low hp _) (List.append_cancel_left heq)

/-- A plus sign that is read as part of a number leaves a control character where the percent sign
should be. -/
theorem lossyChars_ne_of_signed (h : Signed bytes) {p : Option Pending}
    (hp : ∀ q ∈ p, 0x80 ≤ q.low) :
    lossyChars p (percentBytes bytes) ≠ lossyChars p (referenceBytes bytes) := by
  fun_induction percentBytes bytes generalizing p with
  | case1 => exact absurd h.length_le (by simp)
  | case2 b => exact absurd h.length_le (by simp)
  | case3 b x => exact absurd h.length_le (by simp)
  | case4 x y rest v hpair ih =>
    by_cases hx : x = 0x2b
    · subst hx
      rw [hexPair_plus] at hpair
      obtain ⟨n, hn, rfl⟩ := Option.map_eq_some_iff.1 hpair
      have hlt := hexDigit_lt hn
      obtain ⟨before, hascii⟩ := nextByte_ascii hp
      rw [referenceBytes, if_pos rfl, digitPair_plus, lossyChars, lossyChars,
        UInt8.toNat_ofNat_of_lt' (by omega : n < 256), hascii n (by omega),
        hascii (UInt8.toNat 0x25) (by decide)]
      intro heq
      simp only [List.append_assoc, List.append_cancel_left_eq, List.singleton_append,
        List.cons.injEq] at heq
      have hcontrol : ∀ n < 16, Char.ofNat n ≠ Char.ofNat 0x25 := by decide
      exact hcontrol n hlt heq.1
    · have hpair' := hpair
      rw [hexPair_eq_digitPair hx] at hpair'
      obtain ⟨hx', hy'⟩ := hexDigit_of_digitPair hpair'
      rw [referenceBytes, if_pos rfl, hpair']
      exact lossyChars_cons_ne hp (ih (signed_of_digits hx' hy' h))
  | case5 x y rest hpair ih =>
    rw [referenceBytes, if_pos rfl, digitPair_of_hexPair hpair]
    rcases signed_cons_iff.1 h with ⟨-, d, rest', hd, hplus⟩ | h
    · obtain ⟨rfl, htail⟩ := List.cons.inj hplus
      obtain ⟨rfl, -⟩ := List.cons.inj htail
      rw [hexPair_plus, Option.map_eq_none_iff] at hpair
      rw [hpair] at hd
      cases hd
    · exact lossyChars_cons_ne hp (ih h)
  | case6 b x y rest hb ih =>
    rw [referenceBytes, if_neg hb]
    rcases signed_cons_iff.1 h with ⟨hpercent, -⟩ | h
    · exact absurd hpercent hb
    · exact lossyChars_cons_ne hp (ih h)

theorem toDigit_eq_ok {b : UInt8} {n : ℕ} : toDigit b = .ok n ↔ hexDigit b = some n := okOr_eq_ok

theorem percentBytes_of_decodePercentBytes {out : List UInt8}
    (h : decodePercentBytes bytes = .ok out) : percentBytes bytes = out := by
  fun_induction decodePercentBytes bytes generalizing out with
  | case1 =>
    obtain rfl := Except.ok.inj h
    rfl
  | case2 hi lo rest ih =>
    simp only [except_bind_eq_ok] at h
    obtain ⟨high, hhigh, low, hlow, tail, htail, h⟩ := h
    rw [toDigit_eq_ok] at hhigh hlow
    have hplus : hi ≠ 0x2b := by
      rintro rfl
      rw [hexDigit_plus] at hhigh
      cases hhigh
    have hpair : hexPair hi lo = some (UInt8.ofNat (16 * high + low)) := by
      rw [hexPair_eq_digitPair hplus, digitPair, hhigh, hlow]
      rfl
    rw [percentBytes, if_pos rfl, hpair, ih htail]
    exact Except.ok.inj h
  | case3 rest hshort => cases h
  | case4 b rest hb ih =>
    rw [except_bind_eq_ok] at h
    obtain ⟨tail, htail, h⟩ := h
    rw [percentBytes_cons hb, ih htail]
    exact Except.ok.inj h

end Comparison

/-- The decoder of share links is the reference on all but the texts that have a percent sign with a
plus sign and a digit behind it, and is the decoder of smart links wherever that one succeeds. -/
theorem percentDecode_reference_iff (s : String) :
    (percentDecode s = referenceDecode s ↔ ¬ Signed (textBytes s)) ∧
      ∀ t, decodePercent s = .ok t → percentDecode s = t := by
  constructor
  · constructor
    · intro h hsigned
      exact lossyChars_ne_of_signed hsigned (fun _ hq => by cases hq) (String.ofList_injective h)
    · intro h
      rw [percentDecode, referenceDecode]
      exact congrArg fromUtf8Lossy (percentBytes_eq_referenceBytes h)
  · intro t h
    rw [decodePercent, except_bind_eq_ok] at h
    obtain ⟨out, hout, htext⟩ := h
    rw [percentDecode]
    exact (congrArg fromUtf8Lossy (percentBytes_of_decodePercentBytes hout)).trans
      (fromUtf8Lossy_of_fromUtf8 (okOr_eq_ok.1 htext))

/-- A password that ends in `%+f` is read with a control character. -/
theorem plus_sign_decoded :
    percentDecode "pass%+f" = "pass\x0f" ∧ referenceDecode "pass%+f" = "pass%+f" := by
  decide

end EasyConnection.Config
