import EasyConnection.Config.Packed

/-! # The encodings of MessagePack

A written value is a tree that says of each of its parts which tag it is written with. The tree has
a value and bytes, both by the specification, and what the reader makes of the bytes is compared
with the value.
-/
namespace EasyConnection.Config.MessagePack
open Codec PackedParser

section Numbers

inductive Width where
  | w8
  | w16
  | w32
  deriving DecidableEq, Repr

namespace Width

def count : Width → ℕ
  | .w8 => 1
  | .w16 => 2
  | .w32 => 4

def modulus : Width → ℕ
  | .w8 => 256
  | .w16 => 65536
  | .w32 => 4294967296

def uintTag : Width → UInt8
  | .w8 => 0xcc
  | .w16 => 0xcd
  | .w32 => 0xce

def intTag : Width → UInt8
  | .w8 => 0xd0
  | .w16 => 0xd1
  | .w32 => 0xd2

/-- Two's complement. -/
def residue (width : Width) (value : ℤ) : ℕ := (value % width.modulus).toNat

def bytes (width : Width) (value : ℤ) : List UInt8 := beBytes width.count (width.residue value)

end Width

/-- The tags of the integers. The fixed one is the integer itself. -/
inductive IntTag where
  | fixint
  | uint (width : Width)
  | int (width : Width)
  deriving DecidableEq, Repr

namespace IntTag

def Fits (value : ℤ) : IntTag → Prop
  | .fixint => -32 ≤ value ∧ value < 128
  | .uint width => 0 ≤ value ∧ value < width.modulus
  | .int width => -width.modulus ≤ 2 * value ∧ 2 * value < width.modulus

def bytes (value : ℤ) : IntTag → List UInt8
  | .fixint => Width.w8.bytes value
  | .uint width => width.uintTag :: width.bytes value
  | .int width => width.intTag :: width.bytes value

/-- The reader takes no sign after a tag. -/
def readAs (value : ℤ) : IntTag → ℤ
  | .int width => width.residue value
  | _ => value

end IntTag

variable {value : ℤ} {levels : ℕ}

theorem Width.residue_lt (width : Width) : width.residue value < 256 ^ width.count := by
  cases width <;> simp only [residue, modulus, count] <;> omega

theorem Width.residue_eq {width : Width} (hlow : 0 ≤ value) (hhigh : value < width.modulus) :
    (width.residue value : ℤ) = value := by
  rw [residue, Int.emod_eq_of_lt hlow hhigh, Int.toNat_of_nonneg hlow]

theorem IntTag.readAs_eq_iff {tag : IntTag} (h : tag.Fits value) :
    tag.readAs value = value ↔ ∀ width, tag = .int width → 0 ≤ value := by
  cases tag with
  | fixint | uint width => simp [readAs]
  | int width =>
    constructor
    · intro heq _ _
      rw [← heq]
      exact Int.natCast_nonneg _
    · intro hnonneg
      have hlow := hnonneg width rfl
      exact Width.residue_eq hlow (by have := h.2; omega)

theorem reads_width (width : Width) (value : ℤ) :
    Reads (do return Packed.int (← number width.count)) (.int (width.residue value))
      (width.bytes value) :=
  (reads_number _ width.residue_lt).bind_pure fun n : ℕ => Packed.int n

theorem tagged_negative {reader : PackedParser Packed} {tag : ℕ} (h : 0xe0 ≤ tag) :
    tagged reader tag = pure (.int (tag - 256)) := by
  unfold tagged
  rw [if_neg (by omega), if_pos h]

theorem reads_fixint (h : IntTag.fixint.Fits value) :
    Reads (read (levels + 1)) (.int value) (Width.w8.bytes value) := by
  obtain ⟨hlow, hhigh⟩ := h
  have htag : Reads (tagged (read levels) (Width.w8.residue value)) (.int value) [] := by
    by_cases hneg : 0 ≤ value
    · have hres : (Width.w8.residue value : ℤ) = value :=
        Width.residue_eq hneg (hhigh.trans (by decide))
      rw [tagged_fixint (by omega), hres]
      exact reads_pure _
    · have hres : (Width.w8.residue value : ℤ) = value + 256 := by
        simp only [Width.residue, Width.modulus]
        omega
      rw [tagged_negative (by omega), hres, Int.add_sub_cancel]
      exact reads_pure _
  have hread := read_tag Width.w8.residue_lt htag
  rwa [List.append_nil] at hread

theorem reads_intTag {tag : IntTag} (h : tag.Fits value) :
    Reads (read (levels + 1)) (.int (tag.readAs value)) (tag.bytes value) := by
  cases tag with
  | fixint => exact reads_fixint h
  | uint width =>
    have hread := reads_width width value
    rw [Width.residue_eq h.1 h.2] at hread
    cases width <;> exact read_tag (by decide) hread
  | int width =>
    have hread := reads_width width value
    cases width <;> exact read_tag (by decide) hread

end Numbers

section Trees

/-- A text with its form. -/
structure Text where
  value : String
  form : StrForm
  fits : form.Fits (textBytes value).length

def Text.bytes (t : Text) : List UInt8 :=
  t.form.header (textBytes t.value).length ++ textBytes t.value

/-- One level of a written value, over the type of the parts below. -/
inductive Node (α : Type) where
  | int (value : ℤ) (tag : IntTag) (fits : tag.Fits value)
  | nil
  | bool (value : Bool)
  | str (text : Text)
  | bin (content : List UInt8) (form : BinForm) (fits : form.Fits content.length)
  | array (form : SeqForm) (items : List α) (fits : form.Fits items.length)
  | map (form : SeqForm) (entries : List (Text × α)) (fits : form.Fits entries.length)

/-- A written value of at most so many levels. -/
def Written : ℕ → Type
  | 0 => Empty
  | below + 1 => Node (Written below)

namespace Node
variable {α : Type}

/-- The value, given the integer that each tag and integer stand for. -/
def meaning (number : IntTag → ℤ → ℤ) (part : α → Packed) : Node α → Packed
  | .int value tag _ => .int (number tag value)
  | .nil | .bool _ => .other
  | .str text => .str text.value
  | .bin content _ _ => .bytes content
  | .array _ items _ => .array (items.map part)
  | .map _ entries _ => .map (entries.map fun (key, item) => (key.value, part item))

def bytes (part : α → List UInt8) : Node α → List UInt8
  | .int value tag _ => tag.bytes value
  | .nil => [0xc0]
  | .bool false => [0xc2]
  | .bool true => [0xc3]
  | .str text => text.bytes
  | .bin content form _ => form.bytes content
  | .array form items _ => form.arrayHeader items.length ++ (items.map part).flatten
  | .map form entries _ => form.mapHeader entries.length ++
      (entries.map fun (key, item) => key.bytes ++ part item).flatten

/-- No negative integer has one of the tags `int8`, `int16` and `int32`. -/
def SignedNonneg (part : α → Prop) : Node α → Prop
  | .int value tag _ => ∀ width, tag = .int width → 0 ≤ value
  | .nil | .bool _ | .str _ | .bin _ _ _ => True
  | .array _ items _ => ∀ item ∈ items, part item
  | .map _ entries _ => ∀ entry ∈ entries, part entry.2

end Node

namespace Written

def meaning (number : IntTag → ℤ → ℤ) : {levels : ℕ} → Written levels → Packed
  | 0, w => w.elim
  | _ + 1, w => Node.meaning number (meaning number) w

def bytes : {levels : ℕ} → Written levels → List UInt8
  | 0, w => w.elim
  | _ + 1, w => Node.bytes bytes w

def SignedNonneg : {levels : ℕ} → Written levels → Prop
  | 0, w => w.elim
  | _ + 1, w => Node.SignedNonneg SignedNonneg w

/-- The value by the specification. -/
def value {levels : ℕ} (w : Written levels) : Packed := w.meaning fun _ value => value

end Written

end Trees

section Reading
variable {levels : ℕ}

/-- What is read of a written value: its value but for the signs. -/
theorem Written.reads (w : Written levels) :
    Reads (read levels) (w.meaning fun tag value => tag.readAs value) w.bytes := by
  induction levels with
  | zero => exact w.elim
  | succ levels ih =>
    cases w with
    | int value tag fits => exact reads_intTag fits
    | nil => exact reads_other (.inl rfl)
    | bool b =>
      cases b with
      | false => exact reads_other (.inr (.inl rfl))
      | true => exact reads_other (.inr (.inr rfl))
    | str text => exact reads_str text.form text.fits
    | bin content form fits => exact reads_bin form fits
    | array form items fits =>
      have hparts : List.Forall₂ (Reads (read levels))
          (items.map (meaning fun tag value => tag.readAs value)) (items.map bytes) := by
        rw [List.forall₂_map_left_iff, List.forall₂_map_right_iff, List.forall₂_same]
        exact fun item _ => ih item
      have hread := reads_arrayForm form (by rwa [List.length_map]) hparts
      rwa [List.length_map] at hread
    | map form entries fits =>
      have hparts : List.Forall₂ (Reads (entry (read levels)))
          (entries.map fun (key, item) => (key.value, item.meaning fun tag value => tag.readAs value))
          (entries.map fun (key, item) => key.bytes ++ item.bytes) := by
        rw [List.forall₂_map_left_iff, List.forall₂_map_right_iff, List.forall₂_same]
        rintro ⟨key, item⟩ _
        cases levels with
        | zero => exact item.elim
        | succ levels => exact reads_entry (reads_str key.form key.fits) (ih item)
      have hread := reads_mapForm form (by rwa [List.length_map]) hparts
      rwa [List.length_map] at hread

theorem Written.meaning_eq_value_iff (w : Written levels) :
    (w.meaning fun tag value => tag.readAs value) = w.value ↔ w.SignedNonneg := by
  induction levels with
  | zero => exact w.elim
  | succ levels ih =>
    cases w with
    | int value tag fits =>
      have hnumber := IntTag.readAs_eq_iff fits
      exact ⟨fun h => hnumber.1 (Packed.int.inj h), fun h => congrArg Packed.int (hnumber.2 h)⟩
    | nil | bool _ | str _ | bin _ _ _ => exact iff_of_true rfl trivial
    | array form items fits =>
      have hitems : items.map (meaning fun tag value => tag.readAs value) = items.map Written.value ↔
          ∀ item ∈ items, item.SignedNonneg := by
        rw [List.map_inj_left]
        exact forall₂_congr fun item _ => ih item
      exact ⟨fun h => hitems.1 (Packed.array.inj h), fun h => congrArg Packed.array (hitems.2 h)⟩
    | map form entries fits =>
      have hentries : (entries.map fun (key, item) =>
            (key.value, item.meaning fun tag value => tag.readAs value)) =
          (entries.map fun (key, item) => (key.value, item.value)) ↔
          ∀ entry ∈ entries, entry.2.SignedNonneg := by
        rw [List.map_inj_left]
        refine forall₂_congr fun entry _ => ?_
        rw [← ih entry.2, Prod.mk.injEq]
        exact and_iff_right rfl
      exact ⟨fun h => hentries.1 (Packed.map.inj h), fun h => congrArg Packed.map (hentries.2 h)⟩

/-- A written value is read as the specification has it, and nothing is read beyond it, exactly
when no negative integer in it has a signed tag. -/
theorem written_read_iff (w : Written (maxDepth + 1)) (rest : List UInt8) :
    (read (maxDepth + 1)).run (w.bytes ++ rest) = .ok (w.value, rest) ↔ w.SignedNonneg := by
  rw [w.reads rest, ← w.meaning_eq_value_iff, Except.ok.injEq, Prod.mk.injEq]
  exact and_iff_left rfl

/-- `-1` as an `int8` -/
def minusOne : Written (maxDepth + 1) := Node.int (-1) (.int .w8) ⟨by decide, by decide⟩

theorem minus_one_read_as_255 :
    minusOne.value = .int (-1) ∧ minusOne.bytes = [0xd0, 0xff] ∧
      (read (maxDepth + 1)).run minusOne.bytes = .ok (.int 255, []) :=
  ⟨rfl, rfl, minusOne.reads.run_eq⟩

end Reading

end EasyConnection.Config.MessagePack
