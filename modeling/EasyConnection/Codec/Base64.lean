import Mathlib.Data.List.Basic

/-! # Base64

Three bytes are four numbers below 64, each with a symbol of an alphabet. A last group with fewer
bytes has fewer symbols, and its unused bits are zero. Padding fills the last group up.
-/
namespace EasyConnection.Codec.Base64

section Sextets

def sextets : List UInt8 → List ℕ
  | [] => []
  | [x] => [x.toNat / 4, x.toNat % 4 * 16]
  | [x, y] => [x.toNat / 4, x.toNat % 4 * 16 + y.toNat / 16, y.toNat % 16 * 4]
  | x :: y :: z :: rest =>
    x.toNat / 4 :: (x.toNat % 4 * 16 + y.toNat / 16) :: (y.toNat % 16 * 4 + z.toNat / 64) ::
      z.toNat % 64 :: sextets rest

/-- The bytes of a sequence of numbers below 64, if no bits are left over but zeros. -/
def octets : List ℕ → Option (List UInt8)
  | [] => some []
  | [_] => none
  | [a, b] => if b % 16 = 0 then some [UInt8.ofNat (a * 4 + b / 16)] else none
  | [a, b, c] =>
    if c % 4 = 0 then some [UInt8.ofNat (a * 4 + b / 16), UInt8.ofNat (b % 16 * 16 + c / 4)]
    else none
  | a :: b :: c :: d :: rest =>
    (octets rest).map fun bytes => UInt8.ofNat (a * 4 + b / 16) ::
      UInt8.ofNat (b % 16 * 16 + c / 4) :: UInt8.ofNat (c % 4 * 64 + d) :: bytes

theorem ofNat_eq {n : ℕ} {x : UInt8} (h : n = x.toNat) : UInt8.ofNat n = x := by
  rw [h, UInt8.ofNat_toNat]

theorem octets_sextets (bytes : List UInt8) : octets (sextets bytes) = some bytes := by
  fun_induction sextets bytes with
  | case1 => rfl
  | case2 x =>
    rw [octets, if_pos (by omega), ofNat_eq (x := x) (by omega)]
  | case3 x y =>
    have hx := x.toNat_lt
    have hy := y.toNat_lt
    rw [octets, if_pos (by omega), ofNat_eq (x := x) (by omega), ofNat_eq (x := y) (by omega)]
  | case4 x y z rest ih =>
    have hx := x.toNat_lt
    have hy := y.toNat_lt
    have hz := z.toNat_lt
    rw [octets, ih, Option.map_some, ofNat_eq (x := x) (by omega), ofNat_eq (x := y) (by omega),
      ofNat_eq (x := z) (by omega)]

theorem sextets_lt {bytes : List UInt8} : ∀ n ∈ sextets bytes, n < 64 := by
  fun_induction sextets bytes with
  | case1 => simp
  | case2 x =>
    have hx := x.toNat_lt
    simp only [List.mem_cons, List.not_mem_nil, or_false, forall_eq_or_imp, forall_eq]
    omega
  | case3 x y =>
    have hx := x.toNat_lt
    have hy := y.toNat_lt
    simp only [List.mem_cons, List.not_mem_nil, or_false, forall_eq_or_imp, forall_eq]
    omega
  | case4 x y z rest ih =>
    have hx := x.toNat_lt
    have hy := y.toNat_lt
    have hz := z.toNat_lt
    simp only [List.mem_cons, forall_eq_or_imp]
    exact ⟨by omega, by omega, by omega, by omega, ih⟩

theorem length_sextets_mod (bytes : List UInt8) : (sextets bytes).length % 4 ≠ 1 := by
  fun_induction sextets bytes with
  | case4 x y z rest ih =>
    simp only [List.length_cons]
    omega
  | _ => simp

end Sextets

section Text

/-- A symbol for each number below 64, none of them the padding. -/
structure Alphabet where
  symbol : ℕ → Char
  value : Char → Option ℕ
  value_symbol : ∀ n < 64, value (symbol n) = some n
  value_pad : value '=' = none

/-- An alphabet in order, given by its last two symbols. -/
def symbolOf (last : Char × Char) (n : ℕ) : Char :=
  if n < 26 then Char.ofNat (n + 65)
  else if n < 52 then Char.ofNat (n - 26 + 97)
  else if n < 62 then Char.ofNat (n - 52 + 48)
  else if n = 62 then last.1 else last.2

def valueOf (last : Char × Char) (c : Char) : Option ℕ :=
  if 65 ≤ c.toNat ∧ c.toNat ≤ 90 then some (c.toNat - 65)
  else if 97 ≤ c.toNat ∧ c.toNat ≤ 122 then some (c.toNat - 97 + 26)
  else if 48 ≤ c.toNat ∧ c.toNat ≤ 57 then some (c.toNat - 48 + 52)
  else if c = last.1 then some 62
  else if c = last.2 then some 63
  else none

def standard : Alphabet where
  symbol := symbolOf ('+', '/')
  value := valueOf ('+', '/')
  value_symbol := by decide
  value_pad := by decide

def urlSafe : Alphabet where
  symbol := symbolOf ('-', '_')
  value := valueOf ('-', '_')
  value_symbol := by decide
  value_pad := by decide

variable (a : Alphabet)

def encode (bytes : List UInt8) : List Char := (sextets bytes).map a.symbol

def padding (length : ℕ) : List Char :=
  if length % 4 = 2 then ['=', '='] else if length % 4 = 3 then ['='] else []

def pad (text : List Char) : List Char := text ++ padding text.length

/-- The text of bytes, with or without the padding. -/
def text (padded : Bool) (bytes : List UInt8) : List Char :=
  if padded then pad (encode a bytes) else encode a bytes

/-- The strict decoder: the padding is what the length asks for, and nothing else is accepted. -/
def decode (text : List Char) : Option (List UInt8) :=
  let body := text.takeWhile (· ≠ '=')
  if text = pad body then (body.mapM a.value).bind octets else none

variable {a}

theorem symbol_ne_pad {n : ℕ} (h : n < 64) : a.symbol n ≠ '=' := by
  intro heq
  have hvalue := a.value_symbol n h
  rw [heq, a.value_pad] at hvalue
  cases hvalue

theorem mem_encode {bytes : List UInt8} {c : Char} (h : c ∈ encode a bytes) :
    ∃ n < 64, c = a.symbol n := by
  obtain ⟨n, hn, rfl⟩ := List.mem_map.1 h
  exact ⟨n, sextets_lt n hn, rfl⟩

theorem padding_cases (length : ℕ) :
    length % 4 = 2 ∧ padding length = ['=', '='] ∨ length % 4 = 3 ∧ padding length = ['='] ∨
      (length % 4 = 0 ∨ length % 4 = 1) ∧ padding length = [] := by
  unfold padding
  split
  · exact .inl ⟨‹_›, rfl⟩
  split
  · exact .inr (.inl ⟨‹_›, rfl⟩)
  · exact .inr (.inr ⟨by omega, rfl⟩)

theorem pad_encode_length_mod (bytes : List UInt8) : (pad (encode a bytes)).length % 4 = 0 := by
  have hmod : (encode a bytes).length % 4 ≠ 1 := by
    simpa [encode] using length_sextets_mod bytes
  rw [pad, List.length_append]
  rcases padding_cases (encode a bytes).length with ⟨h, hp⟩ | ⟨h, hp⟩ | ⟨h, hp⟩
  all_goals
    rw [hp]
    simp only [List.length_cons, List.length_nil]
    omega

theorem pad_pad_encode (bytes : List UInt8) : pad (pad (encode a bytes)) = pad (encode a bytes) := by
  have hmod := pad_encode_length_mod (a := a) bytes
  rcases padding_cases (pad (encode a bytes)).length with ⟨h, -⟩ | ⟨h, -⟩ | ⟨-, hp⟩
  · omega
  · omega
  · rw [pad, hp, List.append_nil]

theorem pad_text (padded : Bool) (bytes : List UInt8) :
    pad (text a padded bytes) = pad (encode a bytes) := by
  cases padded with
  | false => rfl
  | true => exact pad_pad_encode bytes

theorem mem_text {padded : Bool} {bytes : List UInt8} {c : Char} (h : c ∈ text a padded bytes) :
    (∃ n < 64, c = a.symbol n) ∨ c = '=' := by
  have hpad : c ∈ pad (encode a bytes) := by
    cases padded with
    | false => exact List.mem_append_left _ h
    | true => exact h
  rcases List.mem_append.1 hpad with hc | hc
  · exact .inl (mem_encode hc)
  · rcases padding_cases (encode a bytes).length with ⟨-, hp⟩ | ⟨-, hp⟩ | ⟨-, hp⟩ <;> simp_all

theorem takeWhile_pad_encode (bytes : List UInt8) :
    (pad (encode a bytes)).takeWhile (· ≠ '=') = encode a bytes := by
  rw [pad, List.takeWhile_append_of_pos]
  · rcases padding_cases (encode a bytes).length with ⟨-, hp⟩ | ⟨-, hp⟩ | ⟨-, hp⟩ <;> simp [hp]
  · intro c hc
    obtain ⟨n, hn, rfl⟩ := mem_encode hc
    simpa using symbol_ne_pad hn

theorem decode_pad_encode_eq (a b : Alphabet) (bytes : List UInt8) :
    decode a (pad (encode b bytes)) = ((encode b bytes).mapM a.value).bind octets := by
  rw [decode, takeWhile_pad_encode, if_pos rfl]

theorem mapM_value {f : ℕ → Char} {value : Char → Option ℕ} {ns : List ℕ}
    (h : ∀ n ∈ ns, value (f n) = some n) : (ns.map f).mapM value = some ns := by
  induction ns with
  | nil => rfl
  | cons n ns ih =>
    rw [List.forall_mem_cons] at h
    rw [List.map_cons, List.mapM_cons, h.1, ih h.2]
    rfl

theorem mapM_value_or_none {f : ℕ → Char} {value : Char → Option ℕ} {ns : List ℕ}
    (h : ∀ n ∈ ns, value (f n) = some n ∨ value (f n) = none) :
    (ns.map f).mapM value = some ns ∨ (ns.map f).mapM value = none := by
  induction ns with
  | nil => exact .inl rfl
  | cons n ns ih =>
    rw [List.forall_mem_cons] at h
    rw [List.map_cons, List.mapM_cons]
    rcases h.1 with hn | hn
    · rcases ih h.2 with hns | hns
      · rw [hn, hns]
        exact .inl rfl
      · rw [hn, hns]
        exact .inr rfl
    · rw [hn]
      exact .inr rfl

theorem decode_pad_encode (bytes : List UInt8) : decode a (pad (encode a bytes)) = some bytes := by
  have hvalues : (encode a bytes).mapM a.value = some (sextets bytes) :=
    mapM_value fun n hn => a.value_symbol n (sextets_lt n hn)
  rw [decode_pad_encode_eq, hvalues, Option.bind_some, octets_sextets]

/-- The symbols of one alphabet are those of another or unknown there. -/
def Agrees (a b : Alphabet) : Prop :=
  ∀ n < 64, a.value (b.symbol n) = some n ∨ a.value (b.symbol n) = none

theorem standard_agrees_urlSafe : Agrees standard urlSafe := by
  unfold Agrees
  decide

theorem decode_of_agrees {a b : Alphabet} (h : Agrees a b) (bytes : List UInt8) :
    decode a (pad (encode b bytes)) = some bytes ∨ decode a (pad (encode b bytes)) = none := by
  have hvalues : (encode b bytes).mapM a.value = some (sextets bytes) ∨
      (encode b bytes).mapM a.value = none :=
    mapM_value_or_none fun n hn => h n (sextets_lt n hn)
  rw [decode_pad_encode_eq]
  rcases hvalues with hvalues | hvalues
  · rw [hvalues, Option.bind_some, octets_sextets]
    exact .inl rfl
  · rw [hvalues]
    exact .inr rfl

end Text

example : pad (encode standard [0xfb, 0xff, 0x00, 0x61]) = "+/8AYQ==".toList ∧
    decode urlSafe "-_8AYQ==".toList = some [0xfb, 0xff, 0x00, 0x61] ∧
    decode standard "YR==".toList = none := by
  decide

end EasyConnection.Codec.Base64
