import Mathlib.Data.List.Forall2
import EasyConnection.Codec.ByteReader
import EasyConnection.Codec.Bytes
import EasyConnection.Config.Validate

/-! # Packed values

A Smart Config link carries a value in a part of MessagePack, with an extension for integers that
are packed as byte strings. The reader is a function of the number of levels that a value may
still have.
-/
namespace EasyConnection.Config
open Codec

def smartError (message : String) : ConfigError :=
  .importError ("RocketTunnel Smart Config: " ++ message)

def maxDepth : ℕ := 32

inductive Packed where
  | int (value : ℤ)
  | str (value : String)
  | bytes (value : List UInt8)
  | array (values : List Packed)
  | map (entries : List (String × Packed))
  | other

namespace Packed

def get (key : String) : Packed → Except ConfigError Packed
  | .map entries => okOr (smartError "missing Smart Config field") (entries.lookup key)
  | _ => .error (smartError "expected Smart Config object")

def asStr : Packed → Except ConfigError String
  | .str value => .ok value
  | _ => .error (smartError "expected Smart Config string")

def asInt : Packed → Except ConfigError ℤ
  | .int value => .ok value
  | _ => .error (smartError "expected Smart Config integer")

def asArray : Packed → Except ConfigError (List Packed)
  | .array values => .ok values
  | _ => .error (smartError "expected Smart Config array")

end Packed

section Parser

abbrev PackedParser := ByteReader ConfigError

namespace PackedParser

def take (count : ℕ) : PackedParser (List UInt8) :=
  takeBytes (smartError "truncated MessagePack payload") count

def number (count : ℕ) : PackedParser ℕ := ofBeBytes <$> take count

def byte : PackedParser ℕ := number 1

def ofExcept {α : Type} (r : Except ConfigError α) : PackedParser α := fun input =>
  r.map fun a => (a, input)

def string (count : ℕ) : PackedParser Packed := do
  let bytes ← take count
  return .str (← ofExcept (okOr (smartError "invalid MessagePack UTF-8") (fromUtf8 bytes)))

def bytes (count : ℕ) : PackedParser Packed := do
  return .bytes (← take count)

def array (value : PackedParser Packed) (count : ℕ) : PackedParser Packed := do
  if count > 256 then throw (smartError "MessagePack array is too large")
  return .array (← replicateRead value count)

def entry (value : PackedParser Packed) : PackedParser (String × Packed) := do
  match ← value with
  | .str key => return (key, ← value)
  | _ => throw (smartError "invalid MessagePack map key")

def map (value : PackedParser Packed) (count : ℕ) : PackedParser Packed := do
  if count > 256 then throw (smartError "MessagePack object is too large")
  return .map (← replicateRead (entry value) count)

/-- The extension for integers: a kind, a byte that is not looked at, and the bytes of the integer
as a value of their own. -/
def packedInt (value : PackedParser Packed) : PackedParser Packed := do
  let kind ← byte
  let _ ← take 1
  match ← value with
  | .bytes bytes =>
    if kind = 16 ∧ bytes.length = 1 ∨ kind = 17 ∧ bytes.length = 2 then
      return .int (ofBeBytes bytes)
    else throw (smartError "invalid packed integer")
  | _ => throw (smartError "invalid packed integer")

/-- The value that begins with a tag. -/
def tagged (value : PackedParser Packed) (tag : ℕ) : PackedParser Packed :=
  if tag ≤ 0x7f then return .int tag
  else if 0xe0 ≤ tag then return .int (tag - 256)
  else if tag ≤ 0x8f then map value (tag % 16)
  else if tag ≤ 0x9f then array value (tag % 16)
  else if tag ≤ 0xbf then string (tag % 32)
  else match tag with
    | 0xc0 | 0xc2 | 0xc3 => return .other
    | 0xc4 => do bytes (← byte)
    | 0xc5 => do bytes (← number 2)
    | 0xcc | 0xd0 => do return .int (← number 1)
    | 0xcd | 0xd1 => do return .int (← number 2)
    | 0xce | 0xd2 => do return .int (← number 4)
    | 0xd9 => do string (← byte)
    | 0xda => do string (← number 2)
    | 0xdc => do array value (← number 2)
    | 0xde => do map value (← number 2)
    | 0xd4 => packedInt value
    | _ => throw (smartError "unsupported MessagePack tag")

/-- The value at the front of the input, of at most so many levels. -/
def read : ℕ → PackedParser Packed
  | 0 => throw (smartError "MessagePack nesting is too deep")
  | levels + 1 => do
    let tag ← byte
    tagged (read levels) tag

end PackedParser

end Parser

section Encodings

/-- How a byte string is written. -/
inductive BinForm where
  | bin8
  | bin16
  deriving DecidableEq, Repr

def BinForm.Fits (length : ℕ) : BinForm → Prop
  | .bin8 => length < 256
  | .bin16 => length < 65536

def BinForm.bytes (content : List UInt8) : BinForm → List UInt8
  | .bin8 => 0xc4 :: beBytes 1 content.length ++ content
  | .bin16 => 0xc5 :: beBytes 2 content.length ++ content

/-- How an integer that is not negative is written. The byte in the packed forms is free. -/
inductive IntForm where
  | fixint
  | uint8
  | uint16
  | uint32
  | packed8 (free : UInt8) (bin : BinForm)
  | packed16 (free : UInt8) (bin : BinForm)
  deriving DecidableEq, Repr

/-- The integer can be written so, with `below` levels below its own. -/
def IntForm.Fits (below n : ℕ) : IntForm → Prop
  | .fixint => n < 128
  | .uint8 => n < 256
  | .uint16 => n < 65536
  | .uint32 => n < 4294967296
  | .packed8 _ _ => n < 256 ∧ 0 < below
  | .packed16 _ _ => n < 65536 ∧ 0 < below

def IntForm.bytes (n : ℕ) : IntForm → List UInt8
  | .fixint => beBytes 1 n
  | .uint8 => 0xcc :: beBytes 1 n
  | .uint16 => 0xcd :: beBytes 2 n
  | .uint32 => 0xce :: beBytes 4 n
  | .packed8 free bin => [0xd4, 16, free] ++ bin.bytes (beBytes 1 n)
  | .packed16 free bin => [0xd4, 17, free] ++ bin.bytes (beBytes 2 n)

/-- How a text is written. -/
inductive StrForm where
  | fixstr
  | str8
  | str16
  deriving DecidableEq, Repr

def StrForm.Fits (length : ℕ) : StrForm → Prop
  | .fixstr => length < 32
  | .str8 => length < 256
  | .str16 => length < 65536

def textBytes (s : String) : List UInt8 := s.toUTF8.data.toList

def StrForm.header (length : ℕ) : StrForm → List UInt8
  | .fixstr => beBytes 1 (0xa0 + length)
  | .str8 => 0xd9 :: beBytes 1 length
  | .str16 => 0xda :: beBytes 2 length

/-- How an array or an object is written. -/
inductive SeqForm where
  | fix
  | seq16
  deriving DecidableEq, Repr

/-- The reader takes no more than 256 elements. -/
def SeqForm.Fits (count : ℕ) : SeqForm → Prop
  | .fix => count < 16
  | .seq16 => count ≤ 256

def SeqForm.arrayHeader (count : ℕ) : SeqForm → List UInt8
  | .fix => beBytes 1 (0x90 + count)
  | .seq16 => 0xdc :: beBytes 2 count

def SeqForm.mapHeader (count : ℕ) : SeqForm → List UInt8
  | .fix => beBytes 1 (0x80 + count)
  | .seq16 => 0xde :: beBytes 2 count

/-- An entry of an object is its key and its value, one after the other. -/
def EntryEncoded (encoded : Packed → List UInt8 → Prop) (entry : String × Packed)
    (part : List UInt8) : Prop :=
  ∃ key value, encoded (.str entry.1) key ∧ encoded entry.2 value ∧ part = key ++ value

/-- The bytes are an encoding of the value in at most so many levels. -/
def Encodes : ℕ → Packed → List UInt8 → Prop
  | 0, _, _ => False
  | below + 1, .int value, bs =>
    ∃ (n : ℕ) (form : IntForm), value = n ∧ form.Fits below n ∧ bs = form.bytes n
  | _ + 1, .str s, bs => ∃ form : StrForm, form.Fits (textBytes s).length ∧
      bs = form.header (textBytes s).length ++ textBytes s
  | _ + 1, .bytes content, bs => ∃ form : BinForm,
      form.Fits content.length ∧ bs = form.bytes content
  | below + 1, .array values, bs => ∃ (form : SeqForm) (parts : List (List UInt8)),
      form.Fits values.length ∧ List.Forall₂ (Encodes below) values parts ∧
      bs = form.arrayHeader values.length ++ parts.flatten
  | below + 1, .map entries, bs => ∃ (form : SeqForm) (parts : List (List UInt8)),
      form.Fits entries.length ∧ List.Forall₂ (EntryEncoded (Encodes below)) entries parts ∧
      bs = form.mapHeader entries.length ++ parts.flatten
  | _ + 1, .other, bs => bs ∈ [[0xc0], [0xc2], [0xc3]]

end Encodings

section RoundTrip
open PackedParser
variable {value : PackedParser Packed} {v : Packed} {bs : List UInt8} {levels : ℕ}

theorem reads_number (count : ℕ) {n : ℕ} (h : n < 256 ^ count) :
    Reads (number count) n (beBytes count n) := by
  have htake := (reads_takeBytes (smartError "truncated MessagePack payload") (beBytes count n)).map
    ofBeBytes
  rwa [beBytes_length, ofBeBytes_beBytes count n h] at htake

theorem reads_take (content : List UInt8) : Reads (take content.length) content content :=
  reads_takeBytes _ content

theorem read_tag {tag : ℕ} (htag : tag < 256) (h : Reads (tagged (read levels) tag) v bs) :
    Reads (read (levels + 1)) v (beBytes 1 tag ++ bs) :=
  (reads_number 1 htag).bind h

theorem tagged_fixint {tag : ℕ} (h : tag < 128) : tagged value tag = pure (.int tag) :=
  if_pos (by omega)

theorem tagged_fixmap {count : ℕ} (h : count < 16) :
    tagged value (0x80 + count) = map value count := by
  unfold tagged
  rw [if_neg (by omega), if_neg (by omega), if_pos (by omega)]
  congr 1
  omega

theorem tagged_fixarray {count : ℕ} (h : count < 16) :
    tagged value (0x90 + count) = array value count := by
  unfold tagged
  rw [if_neg (by omega), if_neg (by omega), if_neg (by omega), if_pos (by omega)]
  congr 1
  omega

theorem tagged_fixstr {length : ℕ} (h : length < 32) :
    tagged value (0xa0 + length) = string length := by
  unfold tagged
  rw [if_neg (by omega), if_neg (by omega), if_neg (by omega), if_neg (by omega),
    if_pos (by omega)]
  congr 1
  omega

theorem reads_string (s : String) : Reads (string (textBytes s).length) (.str s) (textBytes s) := by
  have hok : Reads (PackedParser.ofExcept (okOr (smartError "invalid MessagePack UTF-8")
      (fromUtf8 (textBytes s)))) s [] := by
    rw [textBytes, fromUtf8_toUTF8]
    exact fun _ => rfl
  have hstring : Reads (string (textBytes s).length) (.str s) (textBytes s ++ []) :=
    (reads_take (textBytes s)).bind (hok.bind_pure Packed.str)
  rwa [List.append_nil] at hstring

theorem reads_bytes (content : List UInt8) :
    Reads (bytes content.length) (.bytes content) content :=
  (reads_take content).bind_pure Packed.bytes

theorem reads_array {values : List Packed} {parts : List (List UInt8)}
    (hcount : values.length ≤ 256) (h : List.Forall₂ (Reads value) values parts) :
    Reads (array value values.length) (.array values) parts.flatten := by
  have harray : array value values.length =
      (do return Packed.array (← replicateRead value values.length)) := by
    rw [array, if_neg (by omega)]
  rw [harray]
  exact (reads_replicateRead h).bind_pure Packed.array

theorem reads_entry {key : String} {kbs vbs : List UInt8} (hkey : Reads value (.str key) kbs)
    (hvalue : Reads value v vbs) : Reads (entry value) (key, v) (kbs ++ vbs) :=
  hkey.bind (hvalue.bind_pure (key, ·))

theorem reads_map {entries : List (String × Packed)} {parts : List (List UInt8)}
    (hcount : entries.length ≤ 256) (h : List.Forall₂ (Reads (entry value)) entries parts) :
    Reads (map value entries.length) (.map entries) parts.flatten := by
  have hmap : map value entries.length =
      (do return Packed.map (← replicateRead (entry value) entries.length)) := by
    rw [map, if_neg (by omega)]
  rw [hmap]
  exact (reads_replicateRead h).bind_pure Packed.map

theorem reads_packedInt {kind : ℕ} (free : UInt8) {content : List UInt8} (hkind : kind < 256)
    (hform : kind = 16 ∧ content.length = 1 ∨ kind = 17 ∧ content.length = 2)
    (h : Reads value (.bytes content) bs) :
    Reads (packedInt value) (.int (ofBeBytes content)) (beBytes 1 kind ++ ([free] ++ bs)) := by
  refine (reads_number 1 hkind).bind ((reads_take [free]).bind ?_)
  have hint : Reads (if kind = 16 ∧ content.length = 1 ∨ kind = 17 ∧ content.length = 2 then
      (pure (Packed.int (ofBeBytes content)) : PackedParser Packed)
      else throw (smartError "invalid packed integer")) (.int (ofBeBytes content)) [] := by
    rw [if_pos hform]
    exact reads_pure _
  rw [← List.append_nil bs]
  exact h.bind hint

theorem reads_bin {content : List UInt8} (form : BinForm) (h : form.Fits content.length) :
    Reads (read (levels + 1)) (.bytes content) (form.bytes content) := by
  cases form with
  | bin8 => exact read_tag (by decide) ((reads_number 1 h).bind (reads_bytes content))
  | bin16 => exact read_tag (by decide) ((reads_number 2 h).bind (reads_bytes content))

theorem reads_packed {kind width n : ℕ} (free : UInt8) (bin : BinForm) (hkind : kind < 256)
    (hform : kind = 16 ∧ width = 1 ∨ kind = 17 ∧ width = 2) (hn : n < 256 ^ width)
    (hlevels : 0 < levels) :
    Reads (packedInt (read levels)) (.int n)
      (beBytes 1 kind ++ ([free] ++ bin.bytes (beBytes width n))) := by
  obtain ⟨levels, rfl⟩ := Nat.exists_eq_succ_of_ne_zero hlevels.ne'
  have hwidth : width < 256 := by omega
  have hbin : bin.Fits (beBytes width n).length := by
    rw [beBytes_length]
    cases bin with
    | bin8 => exact hwidth
    | bin16 => exact hwidth.trans (by decide)
  have hkinds : kind = 16 ∧ (beBytes width n).length = 1 ∨
      kind = 17 ∧ (beBytes width n).length = 2 := by
    rwa [beBytes_length]
  have hcontent : Reads (read (levels + 1)) _ (bin.bytes (beBytes width n)) := reads_bin bin hbin
  have hint := reads_packedInt free hkind hkinds hcontent
  rwa [ofBeBytes_beBytes width n hn] at hint

theorem reads_int {n : ℕ} (form : IntForm) (h : form.Fits levels n) :
    Reads (read (levels + 1)) (.int n) (form.bytes n) := by
  have hint : ∀ {count : ℕ}, n < 256 ^ count →
      Reads (do return Packed.int (← number count)) (.int n) (beBytes count n) :=
    fun hn => (reads_number _ hn).bind_pure fun n : ℕ => Packed.int n
  cases form with
  | fixint =>
    have htag : Reads (tagged (read levels) n) (.int n) [] := by
      rw [tagged_fixint h]
      exact reads_pure _
    have hread := read_tag (h.trans (by decide)) htag
    rwa [List.append_nil] at hread
  | uint8 => exact read_tag (by decide) (hint h)
  | uint16 => exact read_tag (by decide) (hint h)
  | uint32 => exact read_tag (by decide) (hint h)
  | packed8 free bin =>
    exact read_tag (by decide) (reads_packed free bin (by decide) (.inl ⟨rfl, rfl⟩) h.1 h.2)
  | packed16 free bin =>
    exact read_tag (by decide) (reads_packed free bin (by decide) (.inr ⟨rfl, rfl⟩) h.1 h.2)

theorem reads_str {s : String} (form : StrForm) (h : form.Fits (textBytes s).length) :
    Reads (read (levels + 1)) (.str s) (form.header (textBytes s).length ++ textBytes s) := by
  cases form with
  | fixstr =>
    have h : (textBytes s).length < 32 := h
    refine read_tag (by omega) ?_
    rw [tagged_fixstr h]
    exact reads_string s
  | str8 => exact read_tag (by decide) ((reads_number 1 h).bind (reads_string s))
  | str16 => exact read_tag (by decide) ((reads_number 2 h).bind (reads_string s))

theorem SeqForm.Fits.le {count : ℕ} {form : SeqForm} (h : form.Fits count) : count ≤ 256 := by
  cases form with
  | fix => exact Nat.le_trans (Nat.le_of_lt h) (by decide)
  | seq16 => exact h

theorem reads_arrayForm {values : List Packed} {parts : List (List UInt8)} (form : SeqForm)
    (hform : form.Fits values.length) (h : List.Forall₂ (Reads (read levels)) values parts) :
    Reads (read (levels + 1)) (.array values)
      (form.arrayHeader values.length ++ parts.flatten) := by
  have harray := reads_array hform.le h
  cases form with
  | fix =>
    have hform : values.length < 16 := hform
    refine read_tag (by omega) ?_
    rw [tagged_fixarray hform]
    exact harray
  | seq16 =>
    have hform : values.length ≤ 256 := hform
    exact read_tag (by decide) ((reads_number 2 (by omega)).bind harray)

theorem reads_mapForm {entries : List (String × Packed)} {parts : List (List UInt8)}
    (form : SeqForm) (hform : form.Fits entries.length)
    (h : List.Forall₂ (Reads (entry (read levels))) entries parts) :
    Reads (read (levels + 1)) (.map entries) (form.mapHeader entries.length ++ parts.flatten) := by
  have hmap := reads_map hform.le h
  cases form with
  | fix =>
    have hform : entries.length < 16 := hform
    refine read_tag (by omega) ?_
    rw [tagged_fixmap hform]
    exact hmap
  | seq16 =>
    have hform : entries.length ≤ 256 := hform
    exact read_tag (by decide) ((reads_number 2 (by omega)).bind hmap)

theorem reads_other {tag : ℕ} (h : tag = 0xc0 ∨ tag = 0xc2 ∨ tag = 0xc3) :
    Reads (read (levels + 1)) .other (beBytes 1 tag) := by
  have hread : Reads (read (levels + 1)) .other (beBytes 1 tag ++ []) := by
    rcases h with rfl | rfl | rfl <;> exact read_tag (by decide) (reads_pure _)
  rwa [List.append_nil] at hread

/-- A value is read back from each of its encodings. -/
theorem Encodes.reads {levels : ℕ} {v : Packed} {bs : List UInt8} (h : Encodes levels v bs) :
    Reads (read levels) v bs := by
  induction levels generalizing v bs with
  | zero => exact absurd h id
  | succ levels ih =>
    cases v with
    | int value =>
      obtain ⟨n, form, rfl, hfits, rfl⟩ := h
      exact reads_int form hfits
    | str s =>
      obtain ⟨form, hfits, rfl⟩ := h
      exact reads_str form hfits
    | bytes content =>
      obtain ⟨form, hfits, rfl⟩ := h
      exact reads_bin form hfits
    | array values =>
      obtain ⟨form, parts, hfits, hparts, rfl⟩ := h
      exact reads_arrayForm form hfits (hparts.imp fun _ _ hpart => ih hpart)
    | map entries =>
      obtain ⟨form, parts, hfits, hparts, rfl⟩ := h
      refine reads_mapForm form hfits (hparts.imp fun entry part hpart => ?_)
      obtain ⟨key, value, hkey, hvalue, rfl⟩ := hpart
      exact reads_entry (ih hkey) (ih hvalue)
    | other =>
      have h : bs ∈ [[0xc0], [0xc2], [0xc3]] := h
      simp only [List.mem_cons, List.not_mem_nil, or_false] at h
      obtain rfl | rfl | rfl := h
      · exact reads_other (.inl rfl)
      · exact reads_other (.inr (.inl rfl))
      · exact reads_other (.inr (.inr rfl))

end RoundTrip

section Length

/-- No encoding of a value is longer. -/
def maxLength : ℕ → Packed → ℕ
  | 0, _ => 0
  | _ + 1, .int _ => 8
  | _ + 1, .str s => 3 + s.utf8ByteSize
  | _ + 1, .bytes content => 3 + content.length
  | below + 1, .array values => 3 + (values.map (maxLength below)).sum
  | below + 1, .map entries =>
    3 + (entries.map fun entry => maxLength below (.str entry.1) + maxLength below entry.2).sum
  | _ + 1, .other => 1

theorem BinForm.length_le (form : BinForm) (content : List UInt8) :
    (form.bytes content).length ≤ 3 + content.length := by
  cases form <;>
    simp only [BinForm.bytes, List.length_append, List.length_cons, beBytes_length] <;> omega

theorem IntForm.length_le (form : IntForm) (n : ℕ) : (form.bytes n).length ≤ 8 := by
  cases form with
  | fixint | uint8 | uint16 | uint32 => simp [IntForm.bytes]
  | packed8 free bin =>
    have hbin := bin.length_le (beBytes 1 n)
    simp only [IntForm.bytes, List.length_append, List.length_cons, List.length_nil,
      beBytes_length] at hbin ⊢
    omega
  | packed16 free bin =>
    have hbin := bin.length_le (beBytes 2 n)
    simp only [IntForm.bytes, List.length_append, List.length_cons, List.length_nil,
      beBytes_length] at hbin ⊢
    omega

theorem StrForm.header_length_le (form : StrForm) (length : ℕ) :
    (form.header length).length ≤ 3 := by
  cases form <;> simp [StrForm.header]

theorem SeqForm.header_length_le (form : SeqForm) (count : ℕ) :
    (form.arrayHeader count).length ≤ 3 ∧ (form.mapHeader count).length ≤ 3 := by
  cases form <;> simp [SeqForm.arrayHeader, SeqForm.mapHeader]

theorem textBytes_length (s : String) : (textBytes s).length = s.utf8ByteSize := rfl

theorem length_flatten_le {α : Type} {R : α → List UInt8 → Prop} {size : α → ℕ} {as : List α}
    {parts : List (List UInt8)} (h : List.Forall₂ R as parts)
    (hsize : ∀ a part, R a part → part.length ≤ size a) :
    parts.flatten.length ≤ (as.map size).sum := by
  induction h with
  | nil => exact Nat.le_refl 0
  | @cons a part as parts hhead _ ih =>
    rw [List.flatten_cons, List.length_append, List.map_cons, List.sum_cons]
    exact Nat.add_le_add (hsize a part hhead) ih

theorem Encodes.length_le {levels : ℕ} {v : Packed} {bs : List UInt8} (h : Encodes levels v bs) :
    bs.length ≤ maxLength levels v := by
  induction levels generalizing v bs with
  | zero => exact absurd h id
  | succ levels ih =>
    cases v with
    | int value =>
      obtain ⟨n, form, _, _, rfl⟩ := h
      exact form.length_le n
    | str s =>
      obtain ⟨form, _, rfl⟩ := h
      rw [List.length_append, textBytes_length]
      exact Nat.add_le_add_right (form.header_length_le _) _
    | bytes content =>
      obtain ⟨form, _, rfl⟩ := h
      exact form.length_le content
    | array values =>
      obtain ⟨form, parts, _, hparts, rfl⟩ := h
      rw [List.length_append]
      exact Nat.add_le_add (form.header_length_le _).1
        (length_flatten_le hparts fun _ _ hpart => ih hpart)
    | map entries =>
      obtain ⟨form, parts, _, hparts, rfl⟩ := h
      rw [List.length_append]
      refine Nat.add_le_add (form.header_length_le _).2 (length_flatten_le hparts ?_)
      rintro entry part ⟨key, value, hkey, hvalue, rfl⟩
      rw [List.length_append]
      exact Nat.add_le_add (ih hkey) (ih hvalue)
    | other =>
      have h : bs ∈ [[0xc0], [0xc2], [0xc3]] := h
      simp only [List.mem_cons, List.not_mem_nil, or_false] at h
      obtain rfl | rfl | rfl := h <;> exact Nat.le_refl 1

end Length

end EasyConnection.Config
