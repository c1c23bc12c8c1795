import Mathlib.Data.List.DropRight
import Mathlib.Data.Nat.Digits.Defs

/-! # String methods

The methods of the standard library's strings that the parsers use, on lists of characters.
-/
namespace EasyConnection.Codec

/-- The text of a byte sequence that is well-formed UTF-8. -/
def fromUtf8 (bytes : List UInt8) : Option String := String.fromUTF8? ⟨bytes.toArray⟩

theorem fromUtf8_toUTF8 (s : String) : fromUtf8 s.toUTF8.data.toList = some s := by
  rw [fromUtf8, String.fromUTF8?]
  exact dif_pos s.isValidUTF8

section Lossy

def replacementCharacter : Char := Char.ofNat 0xfffd

/-- A character of which some bytes are still to come, with its bits so far and the bounds of the
next byte. -/
structure Pending where
  left : ℕ
  bits : ℕ
  low : ℕ
  high : ℕ

def firstByte (b : ℕ) : List Char × Option Pending :=
  if b < 0x80 then ([Char.ofNat b], none)
  else if 0xc2 ≤ b ∧ b ≤ 0xdf then ([], some ⟨1, b - 0xc0, 0x80, 0xbf⟩)
  else if b = 0xe0 then ([], some ⟨2, 0, 0xa0, 0xbf⟩)
  else if b = 0xed then ([], some ⟨2, 0xd, 0x80, 0x9f⟩)
  else if 0xe1 ≤ b ∧ b ≤ 0xef then ([], some ⟨2, b - 0xe0, 0x80, 0xbf⟩)
  else if b = 0xf0 then ([], some ⟨3, 0, 0x90, 0xbf⟩)
  else if 0xf1 ≤ b ∧ b ≤ 0xf3 then ([], some ⟨3, b - 0xf0, 0x80, 0xbf⟩)
  else if b = 0xf4 then ([], some ⟨3, 4, 0x80, 0x8f⟩)
  else ([replacementCharacter], none)

/-- A byte that does not continue the character begins a new one. -/
def nextByte (b : ℕ) : Option Pending → List Char × Option Pending
  | none => firstByte b
  | some ⟨left, bits, low, high⟩ =>
    if low ≤ b ∧ b ≤ high then
      let bits := bits * 64 + (b - 0x80)
      if left = 1 then ([Char.ofNat bits], none) else ([], some ⟨left - 1, bits, 0x80, 0xbf⟩)
    else ((replacementCharacter :: (firstByte b).1), (firstByte b).2)

def lossyChars : Option Pending → List UInt8 → List Char
  | none, [] => []
  | some _, [] => [replacementCharacter]
  | pending, b :: bs =>
    (nextByte b.toNat pending).1 ++ lossyChars (nextByte b.toNat pending).2 bs

/-- The text of a byte sequence, with a replacement character for each part that is not UTF-8. -/
def fromUtf8Lossy (bytes : List UInt8) : String := String.ofList (lossyChars none bytes)

example : fromUtf8Lossy [0x61, 0xe2, 0x82, 0xac, 0xe2, 0x82, 0x62, 0xff] = "a€\ufffdb\ufffd" := by
  decide

section Ascii
variable {p : Option Pending}

theorem firstByte_low (b : ℕ) : ∀ q ∈ (firstByte b).2, 0x80 ≤ q.low := by
  intro q hq
  unfold firstByte at hq
  split_ifs at hq <;> cases hq
  all_goals simp

/-- No ASCII character continues another. -/
theorem nextByte_low (hp : ∀ q ∈ p, 0x80 ≤ q.low) (b : ℕ) :
    ∀ q ∈ (nextByte b p).2, 0x80 ≤ q.low := by
  cases p with
  | none => exact firstByte_low b
  | some p =>
    rw [nextByte]
    split_ifs with hcontinues hlast
    · simp
    · simp
    · exact firstByte_low b

/-- An ASCII character is read as it is, after what it cuts off. -/
theorem nextByte_ascii (hp : ∀ q ∈ p, 0x80 ≤ q.low) :
    ∃ before, ∀ b < 0x80, nextByte b p = (before ++ [Char.ofNat b], none) := by
  cases p with
  | none => exact ⟨[], fun b hb => if_pos hb⟩
  | some p =>
    refine ⟨[replacementCharacter], fun b hb => ?_⟩
    have hlow := hp p rfl
    rw [nextByte, if_neg (by omega), firstByte, if_pos hb]
    rfl

end Ascii

section WellFormed

theorem lossyChars_first {n : ℕ} {p : Pending} (hn : n < 256) (h : firstByte n = ([], some p))
    (bs : List UInt8) : lossyChars none (UInt8.ofNat n :: bs) = lossyChars (some p) bs := by
  rw [lossyChars, UInt8.toNat_ofNat_of_lt' hn, nextByte, h]
  rfl

theorem lossyChars_continue {n left bits low high : ℕ} (hn : n < 256) (hlow : low ≤ n)
    (hhigh : n ≤ high) (hleft : left ≠ 1) (bs : List UInt8) :
    lossyChars (some ⟨left, bits, low, high⟩) (UInt8.ofNat n :: bs) =
      lossyChars (some ⟨left - 1, bits * 64 + (n - 0x80), 0x80, 0xbf⟩) bs := by
  rw [lossyChars, UInt8.toNat_ofNat_of_lt' hn, nextByte, if_pos ⟨hlow, hhigh⟩]
  dsimp only
  rw [if_neg hleft]
  rfl

theorem lossyChars_last {n bits low high v : ℕ} (hn : n < 256) (hlow : low ≤ n) (hhigh : n ≤ high)
    (hv : bits * 64 + (n - 0x80) = v) (bs : List UInt8) :
    lossyChars (some ⟨1, bits, low, high⟩) (UInt8.ofNat n :: bs) =
      Char.ofNat v :: lossyChars none bs := by
  rw [lossyChars, UInt8.toNat_ofNat_of_lt' hn, nextByte, if_pos ⟨hlow, hhigh⟩, ← hv]
  rfl

variable {v : ℕ}

theorem firstByte_two (hlow : 0x80 ≤ v) (hhigh : v < 0x800) :
    firstByte (v / 64 % 32 + 192) = ([], some ⟨1, v / 64, 0x80, 0xbf⟩) := by
  have hbits : v / 64 % 32 + 192 - 0xc0 = v / 64 := by omega
  rw [firstByte, if_neg (by omega), if_pos (by omega), hbits]

/-- The first of three bytes. The bounds of the second leave out what has a shorter form and the
surrogates. -/
theorem firstByte_three (hlow : 0x800 ≤ v) (hhigh : v < 0x10000) (hvalid : v < 0xd800 ∨ 0xdfff < v) :
    ∃ low high, firstByte (v / 4096 % 16 + 224) = ([], some ⟨2, v / 4096, low, high⟩) ∧
      low ≤ v / 64 % 64 + 128 ∧ v / 64 % 64 + 128 ≤ high := by
  rw [firstByte, if_neg (by omega), if_neg (by omega)]
  by_cases hzero : v / 4096 = 0
  · rw [if_pos (by omega), hzero]
    exact ⟨_, _, rfl, by omega, by omega⟩
  by_cases hsurrogate : v / 4096 = 13
  · rw [if_neg (by omega), if_pos (by omega), hsurrogate]
    exact ⟨_, _, rfl, by omega, by omega⟩
  · have hbits : v / 4096 % 16 + 224 - 0xe0 = v / 4096 := by omega
    rw [if_neg (by omega), if_neg (by omega), if_pos (by omega), hbits]
    exact ⟨_, _, rfl, by omega, by omega⟩

theorem firstByte_four (hlow : 0x10000 ≤ v) (hhigh : v < 0x110000) :
    ∃ low high, firstByte (v / 262144 % 8 + 240) = ([], some ⟨3, v / 262144, low, high⟩) ∧
      low ≤ v / 4096 % 64 + 128 ∧ v / 4096 % 64 + 128 ≤ high := by
  rw [firstByte, if_neg (by omega), if_neg (by omega), if_neg (by omega), if_neg (by omega),
    if_neg (by omega)]
  by_cases hzero : v / 262144 = 0
  · rw [if_pos (by omega), hzero]
    exact ⟨_, _, rfl, by omega, by omega⟩
  by_cases hlast : v / 262144 = 4
  · rw [if_neg (by omega), if_neg (by omega), if_pos (by omega), hlast]
    exact ⟨_, _, rfl, by omega, by omega⟩
  · have hbits : v / 262144 % 8 + 240 - 0xf0 = v / 262144 := by omega
    rw [if_neg (by omega), if_pos (by omega), hbits]
    exact ⟨_, _, rfl, by omega, by omega⟩

/-- The bytes of a character are read as the character. -/
theorem lossyChars_utf8EncodeChar (c : Char) (bs : List UInt8) :
    lossyChars none (String.utf8EncodeChar c ++ bs) = c :: lossyChars none bs := by
  have hvalid : c.toNat < 0xd800 ∨ 0xdfff < c.toNat ∧ c.toNat < 0x110000 := c.valid
  conv => right; rw [← Char.ofNat_toNat c]
  unfold String.utf8EncodeChar
  rw [show c.val.toNat = c.toNat from rfl]
  generalize c.toNat = v at *
  dsimp only
  split
  · rw [List.cons_append, lossyChars, UInt8.toNat_ofNat_of_lt' (by omega : v < 256), nextByte,
      firstByte, if_pos (by omega)]
    rfl
  split
  · have hfirst := firstByte_two (v := v) (by omega) (by omega)
    rw [List.cons_append, List.cons_append, lossyChars_first (by omega) hfirst,
      lossyChars_last (v := v) (by omega) (by omega) (by omega) (by omega)]
    rfl
  split
  · obtain ⟨low, high, hfirst, hlow, hhigh⟩ :=
      firstByte_three (v := v) (by omega) (by omega) (by omega)
    rw [List.cons_append, List.cons_append, List.cons_append, lossyChars_first (by omega) hfirst,
      lossyChars_continue (by omega) hlow hhigh (by decide),
      lossyChars_last (v := v) (by omega) (by omega) (by omega) (by omega)]
    rfl
  · obtain ⟨low, high, hfirst, hlow, hhigh⟩ := firstByte_four (v := v) (by omega) (by omega)
    rw [List.cons_append, List.cons_append, List.cons_append, List.cons_append,
      lossyChars_first (by omega) hfirst, lossyChars_continue (by omega) hlow hhigh (by decide),
      lossyChars_continue (by omega) (by omega) (by omega) (by decide),
      lossyChars_last (v := v) (by omega) (by omega) (by omega) (by omega)]
    rfl

theorem toUTF8_ofList (cs : List Char) :
    (String.ofList cs).toUTF8.data.toList = cs.flatMap String.utf8EncodeChar := by
  simp [String.toUTF8, List.utf8Encode]

theorem toUTF8_eq_flatMap (s : String) :
    s.toUTF8.data.toList = s.toList.flatMap String.utf8EncodeChar := by
  conv => left; rw [← String.ofList_toList (s := s)]
  exact toUTF8_ofList s.toList

theorem utf8EncodeChar_ascii {c : Char} (h : c.toNat < 128) :
    String.utf8EncodeChar c = [UInt8.ofNat c.toNat] :=
  if_pos (Nat.le_of_lt_succ h)

/-- Well-formed UTF-8 is read without a loss. -/
theorem toUTF8_of_fromUtf8 {bytes : List UInt8} {s : String} (h : fromUtf8 bytes = some s) :
    s.toUTF8.data.toList = bytes := by
  rw [fromUtf8, String.fromUTF8?] at h
  split at h
  · obtain rfl := Option.some.inj h
    rfl
  · cases h

theorem fromUtf8Lossy_toUTF8 (s : String) : fromUtf8Lossy s.toUTF8.data.toList = s := by
  have hchars : ∀ cs : List Char, lossyChars none (cs.flatMap String.utf8EncodeChar) = cs := by
    intro cs
    induction cs with
    | nil => rfl
    | cons c cs ih => rw [List.flatMap_cons, lossyChars_utf8EncodeChar, ih]
  rw [toUTF8_eq_flatMap, fromUtf8Lossy, hchars, String.ofList_toList]

theorem fromUtf8Lossy_of_fromUtf8 {bytes : List UInt8} {s : String} (h : fromUtf8 bytes = some s) :
    fromUtf8Lossy bytes = s := by
  rw [← toUTF8_of_fromUtf8 h, fromUtf8Lossy_toUTF8]

end WellFormed

end Lossy

/-- The characters with the Unicode property `White_Space`. -/
def isWhitespace (c : Char) : Bool :=
  let n := c.toNat
  (9 ≤ n && n ≤ 13) || n == 0x20 || n == 0x85 || n == 0xa0 || n == 0x1680 ||
    (0x2000 ≤ n && n ≤ 0x200a) || n == 0x2028 || n == 0x2029 || n == 0x202f || n == 0x205f ||
    n == 0x3000

def trim (s : List Char) : List Char :=
  ((s.dropWhile isWhitespace).reverse.dropWhile isWhitespace).reverse

def trimmed (s : String) : String := String.ofList (trim s.toList)

theorem dropWhile_of_head {α : Type} {p : α → Bool} {l t : List α} (h : t <+: l.dropWhile p) :
    t.dropWhile p = t := by
  cases t with
  | nil => rfl
  | cons a t =>
    obtain ⟨u, hu⟩ := h
    have ha : p a = false := by
      have := List.head?_dropWhile_not p l
      rw [← hu] at this
      simpa using this
    rw [List.dropWhile_cons_of_neg (by simp [ha])]

theorem trim_eq_rdropWhile (s : List Char) :
    trim s = (s.dropWhile isWhitespace).rdropWhile isWhitespace :=
  rfl

@[simp] theorem trim_trim (s : List Char) : trim (trim s) = trim s := by
  simp only [trim_eq_rdropWhile]
  rw [dropWhile_of_head (List.rdropWhile_prefix _ _), List.rdropWhile_idempotent]

@[simp] theorem trimmed_trimmed (s : String) : trimmed (trimmed s) = trimmed s := by
  simp [trimmed]

def splitWhitespace (s : List Char) : List (List Char) :=
  (s.splitOnP isWhitespace).filter (· ≠ [])

theorem mem_trim {s : List Char} {c : Char} (h : c ∈ trim s) : c ∈ s := by
  have hback := (List.dropWhile_suffix _).subset (List.mem_reverse.1 h)
  exact (List.dropWhile_suffix _).subset (List.mem_reverse.1 hback)

theorem trim_eq_self {s : List Char} (h : ∀ c ∈ s, isWhitespace c = false) : trim s = s := by
  have hdrop : ∀ t : List Char, (∀ c ∈ t, isWhitespace c = false) → t.dropWhile isWhitespace = t := by
    intro t ht
    cases t with
    | nil => rfl
    | cons c t => exact List.dropWhile_cons_of_neg (by simp [ht c List.mem_cons_self])
  rw [trim, hdrop s h, hdrop _ fun c hc => h c (List.mem_reverse.1 hc), List.reverse_reverse]

/-- Only the ends count. -/
theorem trim_of_ends {a b : Char} (ha : isWhitespace a = false) (hb : isWhitespace b = false)
    (s : List Char) : trim (a :: (s ++ [b])) = a :: (s ++ [b]) := by
  have hback : (a :: (s ++ [b])).reverse = b :: (s.reverse ++ [a]) := by simp
  rw [trim, List.dropWhile_cons_of_neg (by simp [ha]), hback,
    List.dropWhile_cons_of_neg (by simp [hb]), ← hback, List.reverse_reverse]

theorem trim_cons {c : Char} (h : isWhitespace c = true) (s : List Char) : trim (c :: s) = trim s := by
  rw [trim, List.dropWhile_cons_of_pos h, trim]

theorem trim_concat {c : Char} (h : isWhitespace c = true) (s : List Char) :
    trim (s ++ [c]) = trim s := by
  rw [trim_eq_rdropWhile, trim_eq_rdropWhile, List.dropWhile_append]
  split_ifs with hblank
  · rw [List.isEmpty_iff.1 hblank, List.dropWhile_cons_of_pos h]
    rfl
  · rw [List.rdropWhile_concat, if_pos h]

section Split
variable {sep : Char}

/-- A character that is no separator belongs to the last part. -/
theorem splitOn_concat {c : Char} (h : c ≠ sep) (s : List Char) :
    ∃ init last, s.splitOn sep = init ++ [last] ∧ (s ++ [c]).splitOn sep = init ++ [last ++ [c]] := by
  induction s with
  | nil => exact ⟨[], [], rfl, by simp [List.splitOn_cons_eq_if_modifyHead, h]⟩
  | cons x s ih =>
    obtain ⟨init, last, hs, hc⟩ := ih
    rw [List.cons_append, List.splitOn_cons_eq_if_modifyHead, List.splitOn_cons_eq_if_modifyHead, hs, hc]
    split_ifs
    · exact ⟨[] :: init, last, rfl, rfl⟩
    · cases init with
      | nil => exact ⟨[], x :: last, rfl, rfl⟩
      | cons first init => exact ⟨(x :: first) :: init, last, rfl, rfl⟩

/-- Blanks around a list do not change its trimmed parts. -/
theorem map_trim_splitOn_trim (hsep : isWhitespace sep = false) (s : List Char) :
    ((trim s).splitOn sep).map trim = (s.splitOn sep).map trim := by
  have hne : ∀ {c}, isWhitespace c = true → c ≠ sep := by
    rintro c hc rfl
    rw [hsep] at hc
    cases hc
  have hfront : ∀ s : List Char,
      ((s.dropWhile isWhitespace).splitOn sep).map trim = (s.splitOn sep).map trim := by
    intro s
    induction s with
    | nil => rfl
    | cons c s ih =>
      by_cases hc : isWhitespace c = true
      · rw [List.dropWhile_cons_of_pos hc, ih, List.splitOn_cons_eq_if_modifyHead,
          if_neg (by simpa using hne hc)]
        cases s.splitOn sep with
        | nil => rfl
        | cons first rest => rw [List.modifyHead_cons, List.map_cons, List.map_cons, trim_cons hc]
      · rw [List.dropWhile_cons_of_neg hc]
  have hback : ∀ s : List Char,
      ((s.rdropWhile isWhitespace).splitOn sep).map trim = (s.splitOn sep).map trim := by
    intro s
    induction s using List.reverseRecOn with
    | nil => rfl
    | append_singleton s c ih =>
      rw [List.rdropWhile_concat]
      split_ifs with hc
      · obtain ⟨init, last, hs, hconcat⟩ := splitOn_concat (hne hc) s
        rw [ih, hs, hconcat, List.map_append, List.map_append, List.map_singleton,
          List.map_singleton, trim_concat hc]
      · rfl
  rw [trim_eq_rdropWhile, hback, hfront]

end Split

/-- The parts of a text between separators, trimmed, without the empty ones. -/
def parts (seps : List Char) (s : List Char) : List (List Char) :=
  ((s.splitOnP (· ∈ seps)).map trim).filter (· ≠ [])

section Parts
variable {seps : List Char}

theorem not_of_mem_splitOnP {α : Type} {p : α → Bool} {xs part : List α}
    (h : part ∈ xs.splitOnP p) : ∀ x ∈ part, p x = false := by
  induction xs generalizing part with
  | nil =>
    rw [List.splitOnP_nil, List.mem_singleton] at h
    subst h
    exact fun _ hx => (nomatch hx)
  | cons x xs ih =>
    rw [List.splitOnP_cons_eq_if_modifyHead] at h
    split at h
    · obtain rfl | h := List.mem_cons.1 h
      · exact fun _ hx => (nomatch hx)
      · exact ih h
    · next hx =>
      obtain ⟨first, rest, hsplit⟩ := List.exists_cons_of_ne_nil (List.splitOnP_ne_nil p xs)
      rw [hsplit] at h ih
      obtain rfl | h := List.mem_cons.1 h
      · intro y hy
        obtain rfl | hy := List.mem_cons.1 hy
        · simpa using hx
        · exact ih List.mem_cons_self y hy
      · exact ih (List.mem_cons_of_mem _ h)

theorem parts_append_cons {sep : Char} (hsep : sep ∈ seps) (s t : List Char) :
    parts seps (s ++ sep :: t) = parts seps s ++ parts seps t := by
  rw [parts, List.splitOnP_append_cons s t (decide_eq_true hsep), List.map_append,
    List.filter_append]
  rfl

theorem parts_cons {sep : Char} (hsep : sep ∈ seps) (t : List Char) :
    parts seps (sep :: t) = parts seps t :=
  parts_append_cons hsep [] t

/-- An item without separators and blanks is read as it is. -/
theorem parts_item {s : List Char} (hne : s ≠ [])
    (h : ∀ c ∈ s, c ∉ seps ∧ isWhitespace c = false) : parts seps s = [s] := by
  have hsplit : s.splitOnP (· ∈ seps) = [s] :=
    List.splitOnP_eq_singleton fun c hc => decide_eq_false (h c hc).1
  rw [parts, hsplit, List.map_singleton, trim_eq_self fun c hc => (h c hc).2]
  simp [hne]

theorem not_mem_of_mem_parts {s part : List Char} (h : part ∈ parts seps s) :
    ∀ c ∈ part, c ∉ seps := by
  intro c hc
  obtain ⟨raw, hraw, rfl⟩ := List.mem_map.1 (List.mem_filter.1 h).1
  exact of_decide_eq_false (not_of_mem_splitOnP hraw c (mem_trim hc))

theorem mem_intercalate {α : Type} {sep : List α} {items : List (List α)} {x : α}
    (h : x ∈ sep.intercalate items) : x ∈ sep ∨ ∃ item ∈ items, x ∈ item := by
  induction items with
  | nil => cases h
  | cons item rest ih =>
    cases rest with
    | nil => exact .inr ⟨item, List.mem_cons_self, by simpa using h⟩
    | cons next rest =>
      rw [List.intercalate_cons_cons, List.mem_append, List.mem_append] at h
      obtain (hitem | hsep) | hrest := h
      · exact .inr ⟨item, List.mem_cons_self, hitem⟩
      · exact .inl hsep
      · obtain hsep | ⟨item', hitem', hx⟩ := ih hrest
        · exact .inl hsep
        · exact .inr ⟨item', List.mem_cons_of_mem _ hitem', hx⟩

/-- A joined list is read item by item. -/
theorem parts_intercalate (hcomma : ',' ∈ seps) (hblank : ' ' ∈ seps) (items : List (List Char)) :
    parts seps ([',', ' '].intercalate items) = items.flatMap (parts seps) := by
  induction items with
  | nil => rfl
  | cons item rest ih =>
    cases rest with
    | nil => simp [List.intercalate]
    | cons next rest =>
      rw [List.intercalate_cons_cons, List.append_assoc, List.cons_append, List.cons_append,
        List.nil_append, parts_append_cons hcomma, parts_cons hblank, ih]
      rfl

end Parts

def eqIgnoreAsciiCase (s t : List Char) : Bool := s.map Char.toLower == t.map Char.toLower

/-- Split at the first occurrence of a character. -/
def splitOnce (sep : Char) : List Char → Option (List Char × List Char)
  | [] => none
  | c :: s =>
    if c = sep then some ([], s)
    else (splitOnce sep s).map fun (before, after) => (c :: before, after)

/-- Split at the last occurrence of a pattern that is not empty. -/
def rsplitOnce (pat : List Char) : List Char → Option (List Char × List Char)
  | [] => none
  | c :: s =>
    match rsplitOnce pat s with
    | some (before, after) => some (c :: before, after)
    | none => if pat <+: c :: s then some ([], (c :: s).drop pat.length) else none

section Split
variable {sep : Char} {s t : List Char}

theorem splitOnce_append (h : sep ∉ s) : splitOnce sep (s ++ sep :: t) = some (s, t) := by
  induction s with
  | nil => simp [splitOnce]
  | cons c s ih =>
    rw [List.mem_cons, not_or] at h
    rw [List.cons_append, splitOnce, if_neg (Ne.symm h.1), ih h.2]
    rfl

theorem splitOnce_of_not_mem (h : sep ∉ s) : splitOnce sep s = none := by
  induction s with
  | nil => rfl
  | cons c s ih =>
    rw [List.mem_cons, not_or] at h
    rw [splitOnce, if_neg (Ne.symm h.1), ih h.2]
    rfl

theorem rsplitOnce_of_not_mem (h : sep ∉ s) : rsplitOnce [sep] s = none := by
  induction s with
  | nil => rfl
  | cons c s ih =>
    rw [List.mem_cons, not_or] at h
    rw [rsplitOnce, ih h.2]
    simp [h.1]

theorem rsplitOnce_append (h : sep ∉ t) : rsplitOnce [sep] (s ++ sep :: t) = some (s, t) := by
  induction s with
  | nil =>
    rw [List.nil_append, rsplitOnce, rsplitOnce_of_not_mem h]
    simp
  | cons c s ih => rw [List.cons_append, rsplitOnce, ih]

end Split

/-- The lines of a text. A carriage return belongs to the line feed that follows it. -/
def lines (s : List Char) : List (List Char) :=
  let parts := s.splitOn '\n'
  let ended := parts.dropLast.map fun line =>
    if line.getLast? = some '\r' then line.dropLast else line
  ended ++ (parts.getLast?.filter (· ≠ [])).toList

example : lines "a\r\nb\n\nc\r".toList = ["a".toList, "b".toList, [], "c\r".toList] := by decide

/-- The value of a line that is a field of the given name. -/
def fieldValue (name : String) (line : List Char) : Option (List Char) :=
  ((splitOnce ':' line).filter fun (n, _) => eqIgnoreAsciiCase n name.toList).map Prod.snd

/-- The text before and after the first `n` bytes, if these end with a character. -/
def splitAtByte : ℕ → List Char → Option (List Char × List Char)
  | 0, s => some ([], s)
  | _ + 1, [] => none
  | n + 1, c :: s =>
    if c.utf8Size ≤ n + 1 then
      (splitAtByte (n + 1 - c.utf8Size) s).map fun (before, after) => (c :: before, after)
    else none

/-- The value of a decimal numeral with an optional plus sign, unless it exceeds 16 bits. -/
def parseU16 (s : List Char) : Option UInt16 :=
  let digits := match s with
    | '+' :: rest => rest
    | _ => s
  if digits = [] ∨ !digits.all Char.isDigit then none
  else
    let n := Nat.ofDigits 10 (digits.reverse.map fun c => c.toNat - '0'.toNat)
    if n < 2 ^ 16 then some (UInt16.ofNat n) else none

theorem ofDigits_reverse (digits : List Char) :
    Nat.ofDigits 10 (digits.reverse.map fun c => c.toNat - '0'.toNat) =
      Nat.ofDigitChars 10 digits 0 := by
  rw [Nat.ofDigits_eq_foldr, List.foldr_map, List.foldr_reverse, Nat.ofDigitChars_eq_foldl]
  congr 1
  funext n c
  exact Nat.add_comm _ _

theorem parseU16_toDigits (n : UInt16) : parseU16 (Nat.toDigits 10 n.toNat) = some n := by
  have hdigits : ∀ c ∈ Nat.toDigits 10 n.toNat, c.isDigit = true :=
    fun c hc => Nat.isDigit_of_mem_toDigits (by decide) (by decide) hc
  have hsign : ∀ rest, Nat.toDigits 10 n.toNat ≠ '+' :: rest := by
    intro rest heq
    exact absurd (hdigits '+' (by rw [heq]; exact List.mem_cons_self)) (by decide)
  unfold parseU16
  split
  · rename_i rest heq
    exact absurd heq (hsign rest)
  · rw [if_neg, ofDigits_reverse, Nat.ofDigitChars_ten_toDigits, if_pos n.toNat_lt, UInt16.ofNat_toNat]
    simpa [Nat.toDigits_ne_nil] using hdigits

end EasyConnection.Codec
