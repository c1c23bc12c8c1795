import EasyConnection.Codec.Cursor
import EasyConnection.Config.Packed

/-! # The positions of the packed reader

The reader as it moves its position in the input, with the sums and the indices that could leave
their ranges and with the depth that it passes down. It stops at every input, and it does what the
reader of levels does.
-/
namespace EasyConnection.Config
open Codec Cursor

namespace Positioned

section Model

abbrev Parser := Cursor ConfigError

def take (count : ℕ) : Parser (List UInt8) := fun input position =>
  match addUsize position count with
  | .error _ => .ok (.error (smartError "invalid MessagePack length"), position)
  | .ok stop =>
    match getRange input position stop with
    | none => .ok (.error (smartError "truncated MessagePack payload"), position)
    | some bytes => .ok (.ok bytes, stop)

def byte : Parser ℕ := do
  let bytes ← take 1
  return (← ofMachine (index bytes 0)).toNat

def number (count : ℕ) : Parser ℕ := do
  return ofBeBytes (← take count)

def string (count : ℕ) : Parser Packed := do
  let bytes ← take count
  return .str (← ofExcept (okOr (smartError "invalid MessagePack UTF-8") (fromUtf8 bytes)))

def bytes (count : ℕ) : Parser Packed := do
  return .bytes (← take count)

/-- The functions call each other. `read` stands for the one that they go through. -/
def below (read : ℕ → Parser Packed) (depth : ℕ) : Parser Packed := do
  read (← ofMachine (addUsize depth 1))

def array (read : ℕ → Parser Packed) (count depth : ℕ) : Parser Packed :=
  if count > 256 then fail (smartError "MessagePack array is too large")
  else do return .array (← replicate (below read depth) count)

def entry (read : ℕ → Parser Packed) (depth : ℕ) : Parser (String × Packed) := do
  match ← below read depth with
  | .str key => return (key, ← below read depth)
  | .int _ | .bytes _ | .array _ | .map _ | .other => fail (smartError "invalid MessagePack map key")

def map (read : ℕ → Parser Packed) (count depth : ℕ) : Parser Packed :=
  if count > 256 then fail (smartError "MessagePack object is too large")
  else do return .map (← replicate (entry read depth) count)

def packedInt (read : ℕ → Parser Packed) (depth : ℕ) : Parser Packed := do
  let kind ← byte
  let _ ← take 1
  match ← below read depth with
  | .bytes bytes =>
    if kind = 16 ∧ bytes.length = 1 ∨ kind = 17 ∧ bytes.length = 2 then
      return .int (ofBeBytes bytes)
    else fail (smartError "invalid packed integer")
  | .int _ | .str _ | .array _ | .map _ | .other => fail (smartError "invalid packed integer")

def tagged (read : ℕ → Parser Packed) (depth tag : ℕ) : Parser Packed :=
  if tag ≤ 0x7f then return .int tag
  else if 0xe0 ≤ tag then return .int (tag - 256)
  else if tag ≤ 0x8f then map read (tag % 16) depth
  else if tag ≤ 0x9f then array read (tag % 16) depth
  else if tag ≤ 0xbf then string (tag % 32)
  else if tag = 0xc0 ∨ tag = 0xc2 ∨ tag = 0xc3 then return .other
  else match tag with
    | 0xc4 => do bytes (← byte)
    | 0xc5 => do bytes (← number 2)
    | 0xcc | 0xd0 => do return .int (← number 1)
    | 0xcd | 0xd1 => do return .int (← number 2)
    | 0xce | 0xd2 => do return .int (← number 4)
    | 0xd9 => do string (← byte)
    | 0xda => do string (← number 2)
    | 0xdc => do array read (← number 2) depth
    | 0xde => do map read (← number 2) depth
    | 0xd4 => packedInt read depth
    | _ => fail (smartError "unsupported MessagePack tag")

/-- The fuel is the number of calls of `read` that may be under way at once. -/
def read : ℕ → ℕ → Parser Packed
  | 0, _ => outOfFuel
  | fuel + 1, depth =>
    if depth > maxDepth then fail (smartError "MessagePack nesting is too deep")
    else do
      let tag ← byte
      tagged (read fuel) depth tag

end Model

end Positioned

variable {α : Type} {as : List α}

section Size

theorem Packed.sizeOf_lt_array {values : List Packed} {v : Packed} (h : v ∈ values) :
    sizeOf v < sizeOf (Packed.array values) := by
  have hsize := List.sizeOf_lt_of_mem h
  simp only [Packed.array.sizeOf_spec]
  omega

theorem Packed.sizeOf_lt_map {entries : List (String × Packed)} {entry : String × Packed}
    (h : entry ∈ entries) : sizeOf entry.2 < sizeOf (Packed.map entries) := by
  have hsize := List.sizeOf_lt_of_mem h
  obtain ⟨key, value⟩ := entry
  simp only [Prod.mk.sizeOf_spec, Packed.map.sizeOf_spec] at hsize ⊢
  omega

/-- The number of values around the innermost one. -/
def Packed.depth : Packed → ℕ
  | .array values => (values.map fun v => v.depth + 1).foldr max 0
  | .map entries => (entries.map fun entry => entry.2.depth + 1).foldr max 0
  | _ => 0
decreasing_by
  · exact Packed.sizeOf_lt_array ‹_›
  · exact Packed.sizeOf_lt_map ‹_›

/-- The number of values in it, the keys included. -/
def Packed.nodes : Packed → ℕ
  | .array values => 1 + (values.map fun v => v.nodes).sum
  | .map entries => 1 + (entries.map fun entry => 1 + entry.2.nodes).sum
  | _ => 1
decreasing_by
  · exact Packed.sizeOf_lt_array ‹_›
  · exact Packed.sizeOf_lt_map ‹_›

theorem foldr_max_le {f : α → ℕ} {bound : ℕ} (h : ∀ a ∈ as, f a ≤ bound) :
    (as.map f).foldr max 0 ≤ bound := by
  induction as with
  | nil => exact Nat.zero_le _
  | cons a as ih =>
    rw [List.map_cons, List.foldr_cons, Nat.max_le]
    exact ⟨h a List.mem_cons_self, ih fun a' ha' => h a' (List.mem_cons_of_mem a ha')⟩

end Size

namespace Positioned

section Bounds
variable {room count depth n : ℕ} {v : Packed}

/-- What is read at a depth, for the number of its bytes. -/
def Sized (depth : ℕ) (v : Packed) (n : ℕ) : Prop :=
  0 < n ∧ depth + v.depth ≤ maxDepth ∧ v.nodes ≤ n

/-- What follows a tag. -/
def Contained (depth : ℕ) (v : Packed) (n : ℕ) : Prop :=
  v.depth ≤ maxDepth - depth ∧ v.nodes ≤ 1 + n

theorem Contained.sized (h : Contained depth v n) (hdepth : depth ≤ maxDepth) :
    Sized depth v (1 + n) := by
  obtain ⟨hinside, hnodes⟩ := h
  exact ⟨Nat.lt_of_lt_of_le Nat.zero_lt_one (Nat.le_add_right 1 n), by omega, hnodes⟩

variable {good : α → ℕ → Prop}

/-- More bytes do not harm. -/
theorem follows_after {x : Parser α} {r : ByteReader ConfigError α} {f : α → Parser Packed}
    {g : α → PackedParser Packed} (hx : Follows room x r good)
    (hf : ∀ a n, good a n → Follows room (f a) (g a) (Contained depth)) :
    Follows room (x >>= f) (r >>= g) (Contained depth) := by
  refine hx.bind fun a n ha => (hf a n ha).mono fun v m hv => ⟨hv.1, ?_⟩
  exact Nat.le_trans hv.2 (Nat.add_le_add_left (Nat.le_add_left m n) 1)

theorem contained_int (value : ℤ) : Contained depth (.int value) n := by
  simp [Contained, Packed.depth, Packed.nodes]

theorem contained_str (value : String) : Contained depth (.str value) n := by
  simp [Contained, Packed.depth, Packed.nodes]

theorem contained_bytes (value : List UInt8) : Contained depth (.bytes value) n := by
  simp [Contained, Packed.depth, Packed.nodes]

theorem contained_other : Contained depth .other n := by
  simp [Contained, Packed.depth, Packed.nodes]

variable {ns : List ℕ}

theorem sum_map_le {f : α → ℕ} (h : List.Forall₂ good as ns) (hf : ∀ a n, good a n → f a ≤ n) :
    (as.map f).sum ≤ ns.sum := by
  induction h with
  | nil => exact Nat.le_refl 0
  | @cons a n as ns hhead _ ih =>
    rw [List.map_cons, List.sum_cons, List.sum_cons]
    exact Nat.add_le_add (hf a n hhead) ih

theorem forall_left {p : α → Prop} (h : List.Forall₂ good as ns) (hp : ∀ a n, good a n → p a) :
    ∀ a ∈ as, p a :=
  ((List.forall₂_and_left _ _).1 (h.imp fun a n hgood => ⟨hp a n hgood, hgood⟩)).1

theorem contained_array {values : List Packed} (h : List.Forall₂ (Sized (depth + 1)) values ns) :
    Contained depth (.array values) ns.sum := by
  have hdepths : ∀ v ∈ values, v.depth + 1 ≤ maxDepth - depth :=
    forall_left h fun v n hv => by
      have := hv.2.1
      omega
  have hnodes := sum_map_le h fun v n hv => hv.2.2
  rw [Contained, Packed.depth, Packed.nodes]
  exact ⟨foldr_max_le hdepths, Nat.add_le_add_left hnodes 1⟩

/-- The key of an entry has bytes of its own. -/
def EntrySized (depth : ℕ) (entry : String × Packed) (n : ℕ) : Prop :=
  ∃ key value, 0 < key ∧ Sized depth entry.2 value ∧ n = key + value

theorem contained_map {entries : List (String × Packed)}
    (h : List.Forall₂ (EntrySized (depth + 1)) entries ns) :
    Contained depth (.map entries) ns.sum := by
  have hdepths : ∀ entry ∈ entries, entry.2.depth + 1 ≤ maxDepth - depth :=
    forall_left h fun entry n ⟨key, value, _, hvalue, _⟩ => by
      have := hvalue.2.1
      omega
  have hnodes : (entries.map fun entry => 1 + entry.2.nodes).sum ≤ ns.sum :=
    sum_map_le h fun entry n ⟨key, value, hkey, hvalue, hn⟩ => by
      have := hvalue.2.2
      omega
  rw [Contained, Packed.depth, Packed.nodes]
  exact ⟨foldr_max_le hdepths, Nat.add_le_add_left hnodes 1⟩

theorem follows_take (h : count < room) :
    Follows room (take count) (PackedParser.take count) fun bs n => bs.length = count ∧ n = count := by
  intro input position hposition
  have hrun : (PackedParser.take count).run (input.drop position) =
      if count ≤ input.length - position then
        .ok ((input.drop position).take count, (input.drop position).drop count)
      else .error (smartError "truncated MessagePack payload") := by
    rw [← List.length_drop]
    rfl
  unfold take
  by_cases hfits : position + count < usizeBound
  · rw [addUsize_eq hfits]
    dsimp only
    by_cases hinside : position + count ≤ input.length
    · rw [getRange, if_pos ⟨Nat.le_add_right _ _, hinside⟩]
      refine ⟨_, _, rfl, Nat.le_add_right _ _, hinside, ?_, fun _ => ?_⟩
      · rintro bs ⟨⟩
        rw [List.length_drop, List.length_take]
        omega
      · rw [hrun, if_pos (by omega), List.drop_take, List.drop_drop]
        simp [Except.map]
    · rw [getRange, if_neg fun h => hinside h.2]
      refine ⟨.error _, _, rfl, Nat.le_refl _, hposition, ?_, fun _ => ?_⟩
      · intro bs hbs
        cases hbs
      · rw [hrun, if_neg (by omega)]
        rfl
  · rw [addUsize_overflow (Nat.le_of_not_lt hfits)]
    refine ⟨.error _, _, rfl, Nat.le_refl _, hposition, ?_, fun _ => absurd hfits (by omega)⟩
    intro bs hbs
    cases hbs

theorem follows_number (h : count < room) :
    Follows room (number count) (PackedParser.number count) fun a n =>
      a < 256 ^ count ∧ n = count := by
  refine (follows_take h).map ofBeBytes fun bs n hbs => ⟨?_, hbs.2⟩
  have hlt := ofLeBytes_lt bs.reverse
  rwa [List.length_reverse, hbs.1] at hlt

theorem follows_byte (h : 1 < room) :
    Follows room byte PackedParser.byte fun b n => b < 256 ∧ n = 1 := by
  change Follows room byte (PackedParser.take 1 >>= fun bs => pure (ofBeBytes bs)) _
  refine (follows_take h).bind fun bs n hbs => ?_
  obtain ⟨hlength, rfl⟩ := hbs
  obtain ⟨b, rfl⟩ := List.length_eq_one_iff.1 hlength
  change Follows room (pure b.toNat) (pure b.toNat) _
  exact follows_pure ⟨b.toNat_lt, rfl⟩

theorem follows_string (h : count < room) :
    Follows room (string count) (PackedParser.string count) (Contained depth) := by
  refine (follows_take h).bind fun bs n hbs => ?_
  have hutf8 : Follows room
      (ofExcept (okOr (smartError "invalid MessagePack UTF-8") (fromUtf8 bs)))
      (PackedParser.ofExcept (okOr (smartError "invalid MessagePack UTF-8") (fromUtf8 bs)))
      fun _ _ => True :=
    follows_ofExcept (fun _ => rfl) fun _ _ => trivial
  exact hutf8.map Packed.str fun s n _ => contained_str s

theorem follows_bytes (h : count < room) :
    Follows room (bytes count) (PackedParser.bytes count) (Contained depth) :=
  (follows_take h).map Packed.bytes fun bs _ _ => contained_bytes bs

section Nested
variable {read : ℕ → Parser Packed} {value : PackedParser Packed}

theorem follows_below (hdepth : depth + 1 < usizeBound)
    (h : Follows room (read (depth + 1)) value (Sized (depth + 1))) :
    Follows room (below read depth) value (Sized (depth + 1)) := by
  have hbelow : below read depth = read (depth + 1) := by
    rw [below, addUsize_eq hdepth]
    rfl
  rwa [hbelow]

variable (h : Follows room (below read depth) value (Sized (depth + 1)))
include h

theorem follows_array (count : ℕ) :
    Follows room (array read count depth) (PackedParser.array value count) (Contained depth) := by
  unfold array PackedParser.array
  split_ifs
  · exact follows_fail _
  · refine (h.replicate count).map Packed.array fun values n hvalues => ?_
    obtain ⟨ns, hall, rfl⟩ := hvalues
    exact contained_array hall

theorem follows_entry :
    Follows room (entry read depth) (PackedParser.entry value) (EntrySized (depth + 1)) := by
  refine h.bind fun key n hkey => ?_
  cases key with
  | str key => exact h.map (key, ·) fun v m hv => ⟨n, m, hkey.1, hv, rfl⟩
  | int | bytes | array | map | other => exact follows_fail _

theorem follows_map (count : ℕ) :
    Follows room (map read count depth) (PackedParser.map value count) (Contained depth) := by
  unfold map PackedParser.map
  split_ifs
  · exact follows_fail _
  · refine ((follows_entry h).replicate count).map Packed.map fun entries n hentries => ?_
    obtain ⟨ns, hall, rfl⟩ := hentries
    exact contained_map hall

theorem follows_packedInt (hroom : 1 < room) :
    Follows room (packedInt read depth) (PackedParser.packedInt value) (Contained depth) := by
  refine (follows_byte hroom).bind fun kind _ _ => (follows_take hroom).bind fun _ _ _ =>
    h.bind fun v n _ => ?_
  cases v with
  | bytes content =>
    dsimp only
    split_ifs
    · exact follows_pure (contained_int _)
    · exact follows_fail _
  | int | str | array | map | other => exact follows_fail _

theorem follows_tagged (hroom : 65536 ≤ room) (tag : ℕ) :
    Follows room (tagged read depth tag) (PackedParser.tagged value tag) (Contained depth) := by
  have hshort {count : ℕ} (hcount : count < 65536) : count < room :=
    Nat.lt_of_lt_of_le hcount hroom
  have hbyte : Follows room byte PackedParser.byte _ := follows_byte (hshort (by decide))
  have hnumber {count : ℕ} (hcount : count < 65536) : Follows room (number count) _ _ :=
    follows_number (hshort hcount)
  have hint {count : ℕ} (hcount : count < 65536) :
      Follows room (do return .int (← number count)) (do return .int (← PackedParser.number count))
        (Contained depth) :=
    (hnumber hcount).map (fun a : ℕ => Packed.int a) fun a _ _ => contained_int a
  unfold tagged PackedParser.tagged
  split_ifs with _ _ _ _ _ hother
  · exact follows_pure (contained_int _)
  · exact follows_pure (contained_int _)
  · exact follows_map h _
  · exact follows_array h _
  · exact follows_string (hshort (by omega))
  · rcases hother with rfl | rfl | rfl <;> exact follows_pure contained_other
  · split
    · exact follows_after hbyte fun _ _ hcount =>
        follows_bytes (hshort (Nat.lt_trans hcount.1 (by decide)))
    · exact follows_after (hnumber (by decide)) fun _ _ hcount => follows_bytes (hshort hcount.1)
    · exact hint (by decide)
    · exact hint (by decide)
    · exact hint (by decide)
    · exact hint (by decide)
    · exact hint (by decide)
    · exact hint (by decide)
    · exact follows_after hbyte fun _ _ hcount =>
        follows_string (hshort (Nat.lt_trans hcount.1 (by decide)))
    · exact follows_after (hnumber (by decide)) fun _ _ hcount => follows_string (hshort hcount.1)
    · exact follows_after (hnumber (by decide)) fun count _ _ => follows_array h count
    · exact follows_after (hnumber (by decide)) fun count _ _ => follows_map h count
    · exact follows_packedInt h (hshort (by decide))
    · split <;> first | contradiction | exact follows_fail _

end Nested

theorem below_maxDepth (hdepth : depth ≤ maxDepth) : depth + 1 < usizeBound :=
  Nat.lt_of_le_of_lt (Nat.succ_le_succ hdepth) (by decide)

/-- The reader of positions does what the reader of levels does. -/
theorem follows_read {fuel : ℕ} (hroom : 65536 ≤ room) (hfuel : maxDepth + 1 - depth < fuel) :
    Follows room (read fuel depth) (PackedParser.read (maxDepth + 1 - depth)) (Sized depth) := by
  induction fuel generalizing depth with
  | zero => exact absurd hfuel (Nat.not_lt_zero _)
  | succ fuel ih =>
    rw [read]
    split_ifs with hdeep
    · rw [Nat.sub_eq_zero_of_le hdeep]
      exact follows_fail _
    · have hdepth : depth ≤ maxDepth := Nat.le_of_not_lt hdeep
      have hlevels : maxDepth + 1 - depth = maxDepth + 1 - (depth + 1) + 1 := by omega
      have hbelow := follows_below (below_maxDepth hdepth) (ih (by omega))
      rw [hlevels, PackedParser.read]
      refine (follows_byte (by omega)).bind fun tag n hbyte => ?_
      obtain ⟨-, rfl⟩ := hbyte
      exact (follows_tagged hbelow hroom tag).mono fun v m hv => hv.sized hdepth

end Bounds

/-- Whatever the input, 34 calls of `read` under way at once are enough. The depths that `read`
passes on to `array` and `map` have a successor, as it has checked them. -/
theorem packed_reader_within_bounds :
    (∀ count, Bounded (take count) fun bs n => bs.length = count ∧ n = count) ∧
    (∀ count, Bounded (string count) (Contained maxDepth)) ∧
    (∀ fuel depth count, maxDepth - depth < fuel → depth + 1 < usizeBound →
      Bounded (array (read fuel) count depth) (Contained depth) ∧
      Bounded (map (read fuel) count depth) (Contained depth)) ∧
    ∀ fuel depth, maxDepth + 1 - depth < fuel → Bounded (read fuel depth) (Sized depth) := by
  refine ⟨fun count => ?_, fun count => ?_, fun fuel depth count hfuel hdepth => ?_,
    fun fuel depth hfuel => ?_⟩
  · exact (follows_take (Nat.lt_succ_self count)).bounded
  · exact (follows_string (Nat.lt_succ_self count)).bounded
  · have hread : Follows 65536 (read fuel (depth + 1)) _ _ :=
      follows_read (Nat.le_refl 65536) (by omega)
    have hbelow := follows_below hdepth hread
    exact ⟨(follows_array hbelow count).bounded, (follows_map hbelow count).bounded⟩
  · exact (follows_read (Nat.le_refl 65536) hfuel).bounded

/-- An array at the last depth may have no element. -/
theorem element_below_maxDepth_refused :
    read 3 31 [0x91, 0x91, 0x01] 0 =
      .ok (.error (smartError "MessagePack nesting is too deep"), 2) ∧
    read 3 31 [0x91, 0x90] 0 = .ok (.ok (.array [.array []]), 2) ∧
    Bounded (read 3 31) (Sized 31) :=
  ⟨rfl, rfl, packed_reader_within_bounds.2.2.2 3 31 (by decide)⟩

end Positioned

end EasyConnection.Config
