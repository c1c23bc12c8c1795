import EasyConnection.Net.Parse
import Mathlib.Data.Nat.Digits.Defs
import Mathlib.Tactic.IntervalCases

/-! # Printing and reading addresses

The text that is printed for an address is read back as that address.
-/
namespace EasyConnection.Net
variable {n : ℕ}

section Digits
variable {radix : ℕ}

theorem digitValue_digitChar {d : ℕ} (hradix : radix ≤ 16) (hd : d < radix) :
    digitValue radix d.digitChar = some d := by
  have hlt : d < 16 := by omega
  interval_cases d <;> exact if_pos hd

theorem isSome_of_mem_toDigits (hone : 1 < radix) (hradix : radix ≤ 16) {c : Char}
    (h : c ∈ Nat.toDigits radix n) : (digitValue radix c).isSome := by
  induction n using Nat.strongRecOn with
  | ind n ih =>
    rw [Nat.toDigits_eq_if hone] at h
    split_ifs at h with hlt
    · rw [List.mem_singleton.1 h, digitValue_digitChar hradix hlt]
      rfl
    · rcases List.mem_append.1 h with h | h
      · exact ih (n / radix) (Nat.div_lt_self (by omega) hone) h
      · rw [List.mem_singleton.1 h, digitValue_digitChar hradix (Nat.mod_lt n (by omega))]
        rfl

theorem foldl_toDigits (hone : 1 < radix) (hradix : radix ≤ 16) (n : ℕ) :
    ((Nat.toDigits radix n).filterMap (digitValue radix)).foldl (fun n d => n * radix + d) 0 = n := by
  induction n using Nat.strongRecOn with
  | ind n ih =>
    rw [Nat.toDigits_eq_if hone]
    split_ifs with hlt
    · simp [digitValue_digitChar hradix hlt]
    · have hdigit := digitValue_digitChar hradix (Nat.mod_lt n (by omega : 0 < radix))
      rw [List.filterMap_append, List.foldl_append, ih (n / radix) (Nat.div_lt_self (by omega) hone)]
      simp only [List.filterMap_cons, hdigit, List.filterMap_nil, List.foldl_cons, List.foldl_nil]
      exact Nat.div_add_mod' n radix

/-- No number but zero begins with a zero. -/
theorem head_toDigits (hone : 1 < radix) (hn : n ≠ 0) :
    (Nat.toDigits radix n).head? ≠ some '0' := by
  induction n using Nat.strongRecOn with
  | ind n ih =>
    rw [Nat.toDigits_eq_if hone]
    split_ifs with hlt
    · intro h
      exact hn (Nat.digitChar_eq_zero.1 (Option.some.inj h))
    · have hdiv : n / radix ≠ 0 := (Nat.div_pos (by omega) (by omega)).ne'
      rw [List.head?_append_of_ne_nil _ Nat.toDigits_ne_nil]
      exact ih (n / radix) (Nat.div_lt_self (by omega) hone) hdiv

/-- What follows is no digit. -/
def Bounded (radix : ℕ) (rest : List Char) : Prop := ∀ c ∈ rest.head?, digitValue radix c = none

theorem takeWhile_of_bounded {rest : List Char} (h : Bounded radix rest) :
    rest.takeWhile (fun c => (digitValue radix c).isSome) = [] := by
  cases rest with
  | nil => rfl
  | cons c rest => simp [h c rfl]

theorem readNumber_of_bounded {maxDigits upto : ℕ} {zeroPrefix : Bool} {rest : List Char}
    (h : Bounded radix rest) : readNumber radix maxDigits upto zeroPrefix rest = none := by
  rw [readNumber, takeWhile_of_bounded h]
  exact if_pos (.inl rfl)

theorem readNumber_toDigits {maxDigits upto : ℕ} {zeroPrefix : Bool} {rest : List Char}
    (hone : 1 < radix) (hradix : radix ≤ 16) (hn : n < upto) (hmax : 0 < maxDigits)
    (hlen : n < radix ^ maxDigits) (hrest : Bounded radix rest) :
    readNumber radix maxDigits upto zeroPrefix (Nat.toDigits radix n ++ rest) = some (n, rest) := by
  have hdigits : (Nat.toDigits radix n ++ rest).takeWhile (fun c => (digitValue radix c).isSome) =
      Nat.toDigits radix n := by
    rw [List.takeWhile_append_of_pos fun c hc => isSome_of_mem_toDigits hone hradix hc,
      takeWhile_of_bounded hrest, List.append_nil]
  have hlength := Nat.toDigits_length radix n maxDigits hmax hlen
  rw [readNumber, hdigits, foldl_toDigits hone hradix, if_neg, if_neg, List.drop_left]
  · rintro ⟨-, hhead, hlong⟩
    have hzero : n = 0 := by
      by_contra hne
      exact head_toDigits hone hne hhead
    rw [hzero, Nat.toDigits_zero] at hlong
    exact absurd hlong (by decide)
  · simp only [Nat.toDigits_ne_nil, false_or]
    omega

end Digits

section Fields

/-- The fields of a number, put together again. -/
theorem foldl_fields (w k : ℕ) (a : BitVec n) :
    (fields w k a).foldl (fun n g => n * 2 ^ w + g) 0 = a.toNat % 2 ^ (w * k) := by
  rw [fields]
  generalize a.toNat = x
  induction k generalizing x with
  | zero => simp [Nat.mod_one]
  | succ k ih =>
    have hfront : (List.range k).map (fun i => x / 2 ^ (w * (k + 1 - 1 - i)) % 2 ^ w) =
        (List.range k).map fun i => x / 2 ^ w / 2 ^ (w * (k - 1 - i)) % 2 ^ w := by
      refine List.map_congr_left fun i hi => ?_
      have hlt := List.mem_range.1 hi
      have hexponent : w * (k + 1 - 1 - i) = w + w * (k - 1 - i) := by
        rw [show k + 1 - 1 - i = k - 1 - i + 1 by omega, Nat.mul_succ, Nat.add_comm]
      rw [hexponent, Nat.pow_add, Nat.div_div_eq_div_mul]
    rw [List.range_succ, List.map_append, hfront, List.foldl_append, ih (x / 2 ^ w)]
    simp only [List.map_cons, List.map_nil, List.foldl_cons, List.foldl_nil, Nat.add_sub_cancel,
      Nat.sub_self, Nat.mul_zero, Nat.pow_zero, Nat.div_one]
    rw [Nat.mul_succ, Nat.add_comm (w * k), Nat.pow_add, Nat.mod_mul]
    ac_rfl

theorem fields_lt {w k : ℕ} {a : BitVec n} {g : ℕ} (h : g ∈ fields w k a) : g < 2 ^ w := by
  obtain ⟨i, -, rfl⟩ := List.mem_map.1 h
  exact Nat.mod_lt _ (Nat.two_pow_pos w)

theorem fields_length (w k : ℕ) (a : BitVec n) : (fields w k a).length = k := by
  simp [fields]

theorem ofGroups_fields (a : BitVec 128) : ofGroups (fields 16 8 a) = a := by
  have hvalue := foldl_fields 16 8 a
  rw [Nat.mod_eq_of_lt a.isLt] at hvalue
  rw [ofGroups]
  exact (congrArg (BitVec.ofNat 128) hvalue).trans (BitVec.ofNat_toNat ..)

end Fields

variable {cs : List Char}

section Ipv4

theorem v4Text_toList {a : BitVec 32} {b c d e : ℕ} (h : fields 8 4 a = [b, c, d, e]) :
    (v4Text a).toList = Nat.toDigits 10 b ++ '.' :: (Nat.toDigits 10 c ++ '.' ::
      (Nat.toDigits 10 d ++ '.' :: Nat.toDigits 10 e)) := by
  rw [v4Text, h, String.toList_intercalate]
  simp [List.intercalate_cons_cons]

theorem readOctet_zero {rest : List Char} (hn : n < 256) (hrest : Bounded 10 rest) :
    readOctet 0 (Nat.toDigits 10 n ++ rest) = some (n, rest) :=
  readNumber_toDigits (by decide) (by decide) hn (by decide) (by omega) hrest

theorem readOctet_dot {index : ℕ} {rest : List Char} (hindex : index ≠ 0) (hn : n < 256)
    (hrest : Bounded 10 rest) :
    readOctet index ('.' :: (Nat.toDigits 10 n ++ rest)) = some (n, rest) := by
  rw [readOctet, readSeparator, if_neg hindex, readGiven, if_pos rfl]
  exact readNumber_toDigits (by decide) (by decide) hn (by decide) (by omega) hrest

theorem bounded_cons {radix : ℕ} {c : Char} {rest : List Char} (h : digitValue radix c = none) :
    Bounded radix (c :: rest) := by
  intro d hd
  obtain rfl := Option.some.inj hd
  exact h

theorem readIpv4_v4Text (a : BitVec 32) {rest : List Char} (hrest : Bounded 10 rest) :
    readIpv4 ((v4Text a).toList ++ rest) = some (a, rest) := by
  obtain ⟨b, c, d, e, hfields⟩ : ∃ b c d e, fields 8 4 a = [b, c, d, e] := ⟨_, _, _, _, rfl⟩
  have hlt : ∀ g ∈ fields 8 4 a, g < 256 := fun g hg => fields_lt hg
  have hvalue := foldl_fields 8 4 a
  rw [Nat.mod_eq_of_lt a.isLt, hfields] at hvalue
  rw [hfields] at hlt
  simp only [List.forall_mem_cons] at hlt
  have hdot : ∀ cs, Bounded 10 ('.' :: cs) := fun cs => bounded_cons (by decide)
  rw [v4Text_toList hfields, readIpv4]
  simp only [List.append_assoc, List.cons_append]
  rw [readOctet_zero hlt.1 (hdot _)]
  simp only [Option.bind_eq_bind, Option.bind_some]
  rw [readOctet_dot (by decide) hlt.2.1 (hdot _)]
  simp only [Option.bind_some]
  rw [readOctet_dot (by decide) hlt.2.2.1 (hdot _)]
  simp only [Option.bind_some]
  rw [readOctet_dot (by decide) hlt.2.2.2.1 hrest]
  simp only [List.foldl_cons, List.foldl_nil, Nat.zero_mul, Nat.zero_add, Nat.reducePow] at hvalue
  rw [Option.bind_some, hvalue, BitVec.ofNat_toNat, BitVec.setWidth_eq]
  rfl

/-- What is no digit begins no address. -/
theorem readIpv4_of_bounded {rest : List Char} (h : Bounded 10 rest) :
    readIpv4 rest = none := by
  have hoctet : readOctet 0 rest = none := readNumber_of_bounded h
  rw [readIpv4, hoctet]
  rfl

theorem readIpv4_of_no_dot (h : '.' ∉ cs) : readIpv4 cs = none := by
  cases hread : readIpv4 cs with
  | none => rfl
  | some p =>
    unfold readIpv4 at hread
    simp only [bind, Option.bind_eq_some_iff, Prod.exists] at hread
    obtain ⟨_, rest, ha, _, _, hb, -⟩ := hread
    obtain ⟨used, rfl, -⟩ := readOctet_consumes 0 _ _ _ ha
    rw [readOctet, readSeparator, if_neg (by decide)] at hb
    obtain ⟨rest', hdot, -⟩ := Option.bind_eq_some_iff.1 hb
    rw [readGiven_eq_some hdot] at h
    exact absurd (List.mem_append_right used List.mem_cons_self) h

end Ipv4

section Groups
variable {room index : ℕ} {rest : List Char}

/-- Groups, each behind a colon. -/
def groupChars : List ℕ → List Char
  | [] => []
  | g :: groups => ':' :: (Nat.toDigits 16 g ++ groupChars groups)

theorem hexGroups_cons (g : ℕ) (groups : List ℕ) :
    (hexGroups (g :: groups)).toList = Nat.toDigits 16 g ++ groupChars groups := by
  induction groups generalizing g with
  | nil => simp [hexGroups, groupChars]
  | cons g' groups ih =>
    rw [groupChars, ← ih g', hexGroups, List.map_cons, List.map_cons, String.intercalate_cons_cons]
    simp [hexGroups]

theorem dot_not_mem_toDigits (n : ℕ) : '.' ∉ Nat.toDigits 16 n := fun h =>
  absurd (isSome_of_mem_toDigits (by decide) (by decide) h) (by decide)

theorem dot_not_mem_groupChars (groups : List ℕ) : '.' ∉ groupChars groups := by
  induction groups with
  | nil => exact List.not_mem_nil
  | cons g groups ih =>
    rw [groupChars, List.mem_cons, List.mem_append, not_or, not_or]
    exact ⟨by decide, dot_not_mem_toDigits g, ih⟩

theorem dot_not_mem_hexGroups (groups : List ℕ) : '.' ∉ (hexGroups groups).toList := by
  cases groups with
  | nil => exact List.not_mem_nil
  | cons g groups =>
    rw [hexGroups_cons, List.mem_append, not_or]
    exact ⟨dot_not_mem_toDigits g, dot_not_mem_groupChars groups⟩

/-- No group follows: the end of the text, or the place of the zeros. -/
def Ends (rest : List Char) : Prop := rest = [] ∨ ∃ after, rest = ':' :: ':' :: after

theorem bounded_nil (radix : ℕ) : Bounded radix [] := fun c hc => by cases hc

theorem Ends.bounded (h : Ends rest) : Bounded 16 rest := by
  rcases h with rfl | ⟨after, rfl⟩
  · exact bounded_nil 16
  · exact bounded_cons (by decide)

theorem Ends.bounded_groups (h : Ends rest) (groups : List ℕ) :
    Bounded 16 (groupChars groups ++ rest) := by
  cases groups with
  | nil => exact h.bounded
  | cons g groups => exact bounded_cons (by decide)

theorem readSeparator_ends {α : Type} {inner : List Char → Option (α × List Char)} (h : Ends rest)
    (hnil : inner [] = none) (hcolon : ∀ cs, inner (':' :: cs) = none) :
    readSeparator ':' index inner rest = none := by
  unfold readSeparator
  rcases h with rfl | ⟨after, rfl⟩
  · rw [hnil]
    split_ifs <;> rfl
  · split_ifs
    · exact hcolon _
    · rw [readGiven, if_pos rfl]
      exact hcolon after

theorem readGroups_ends (h : Ends rest) :
    readGroups room index rest = ([], false, rest) := by
  cases room with
  | zero => rfl
  | succ room =>
    have hcolon (radix : ℕ) (hradix : digitValue radix ':' = none) (cs : List Char) :
        Bounded radix (':' :: cs) := bounded_cons hradix
    rw [readGroups, readSeparator_ends h (readIpv4_of_bounded (bounded_nil 10))
      fun cs => readIpv4_of_bounded (hcolon 10 (by decide) cs), ite_self]
    dsimp only
    rw [readSeparator_ends h (readNumber_of_bounded (bounded_nil 16))
      fun cs => readNumber_of_bounded (hcolon 16 (by decide) cs)]

theorem readSeparator_no_dot (h : '.' ∉ cs) :
    readSeparator ':' index readIpv4 cs = none := by
  unfold readSeparator
  split_ifs
  · exact readIpv4_of_no_dot h
  · cases hcolon : readGiven ':' cs with
    | none => rfl
    | some after =>
      rw [readGiven_eq_some hcolon, List.mem_cons, not_or] at h
      exact readIpv4_of_no_dot h.2

theorem readGroups_number {g : ℕ} {after : List Char} (hdot : '.' ∉ cs)
    (hnumber : readSeparator ':' index (readNumber 16 4 65536 true) cs = some (g, after))
    {groups : List ℕ}
    (hafter : readGroups room (index + 1) after = (groups, false, rest)) :
    readGroups (room + 1) index cs = (g :: groups, false, rest) := by
  rw [readGroups, readSeparator_no_dot hdot, ite_self]
  dsimp only
  rw [hnumber]
  dsimp only
  rw [hafter]

theorem readGroups_groupChars (groups : List ℕ) (hindex : index ≠ 0)
    (hlt : ∀ g ∈ groups, g < 65536) (hroom : groups.length ≤ room) (hends : Ends rest)
    (hdot : '.' ∉ rest) :
    readGroups room index (groupChars groups ++ rest) = (groups, false, rest) := by
  induction groups generalizing room index with
  | nil => exact readGroups_ends hends
  | cons g groups ih =>
    obtain ⟨hg, hlt⟩ := List.forall_mem_cons.1 hlt
    rw [List.length_cons] at hroom
    obtain ⟨room, rfl⟩ := Nat.exists_eq_add_of_le' (Nat.le_trans (Nat.le_add_left 1 _) hroom)
    have hafter := ih (Nat.succ_ne_zero index) hlt (by omega : groups.length ≤ room)
    refine readGroups_number ?_ ?_ hafter
    · rw [List.mem_append, not_or]
      exact ⟨dot_not_mem_groupChars _, hdot⟩
    · rw [readSeparator, if_neg hindex, groupChars, List.cons_append, readGiven, if_pos rfl,
        List.append_assoc]
      exact readNumber_toDigits (by decide) (by decide) hg (by decide) (by omega)
        (hends.bounded_groups groups)

theorem readGroups_hexGroups (groups : List ℕ) (hlt : ∀ g ∈ groups, g < 65536)
    (hroom : groups.length ≤ room) (hends : Ends rest) (hdot : '.' ∉ rest) :
    readGroups room 0 ((hexGroups groups).toList ++ rest) = (groups, false, rest) := by
  cases groups with
  | nil => exact readGroups_ends hends
  | cons g groups =>
    obtain ⟨hg, hlt⟩ := List.forall_mem_cons.1 hlt
    rw [List.length_cons] at hroom
    obtain ⟨room, rfl⟩ := Nat.exists_eq_add_of_le' (Nat.le_trans (Nat.le_add_left 1 _) hroom)
    have hafter : readGroups room 1 (groupChars groups ++ rest) = (groups, false, rest) :=
      readGroups_groupChars groups Nat.one_ne_zero hlt (by omega) hends hdot
    refine readGroups_number ?_ ?_ hafter
    · rw [List.mem_append, not_or]
      exact ⟨dot_not_mem_hexGroups _, hdot⟩
    · rw [readSeparator, if_pos rfl, hexGroups_cons, List.append_assoc]
      exact readNumber_toDigits (by decide) (by decide) hg (by decide) (by omega)
        (hends.bounded_groups groups)

end Groups

section Zeros

/-- A run of zeros, by its start and its length. -/
def ZeroRun (segments : List ℕ) (span : ℕ × ℕ) : Prop :=
  ∃ before after, segments = before ++ (List.replicate span.2 0 ++ after) ∧ before.length = span.1

/-- The run that is being read ends at the current position. -/
def CurrentRun (seen : List ℕ) (current : ℕ × ℕ) : Prop :=
  current.2 ≠ 0 → ∃ before, seen = before ++ List.replicate current.2 0 ∧ before.length = current.1

variable {current : ℕ × ℕ} {seen : List ℕ}

theorem CurrentRun.extend (h : CurrentRun seen current) :
    CurrentRun (seen ++ [0])
      (if current.2 = 0 then seen.length else current.1, current.2 + 1) := by
  intro _
  by_cases hzero : current.2 = 0
  · exact ⟨seen, by rw [hzero]; rfl, (if_pos hzero).symm⟩
  · obtain ⟨before, hseen, hlength⟩ := h hzero
    refine ⟨before, ?_, hlength.trans (if_neg hzero).symm⟩
    rw [List.replicate_succ', ← List.append_assoc, ← hseen]

theorem CurrentRun.zeroRun (h : CurrentRun seen current) (hpos : current.2 ≠ 0) (rest : List ℕ) :
    ZeroRun (seen ++ rest) current := by
  obtain ⟨before, hseen, hlength⟩ := h hpos
  exact ⟨before, rest, by rw [hseen, List.append_assoc], hlength⟩

theorem zeroSpan_zeroRun {rest : List ℕ} {longest : ℕ × ℕ} (hcurrent : CurrentRun seen current)
    (hlongest : ZeroRun (seen ++ rest) longest) :
    ZeroRun (seen ++ rest) (zeroSpan rest seen.length current longest) := by
  induction rest generalizing seen current longest with
  | nil => exact hlongest
  | cons g rest ih =>
    have hseen : seen ++ g :: rest = seen ++ [g] ++ rest := by simp
    rw [hseen] at hlongest ⊢
    have hlength : seen.length + 1 = (seen ++ [g]).length := by simp
    rw [zeroSpan, hlength]
    by_cases hg : g = 0
    · subst hg
      rw [if_pos rfl]
      refine ih hcurrent.extend ?_
      rw [apply_ite (ZeroRun _)]
      exact ite_prop_iff_and.2
        ⟨fun _ => hcurrent.extend.zeroRun (Nat.succ_ne_zero _) rest, fun _ => hlongest⟩
    · rw [if_neg hg]
      exact ih (fun h => absurd rfl h) hlongest

end Zeros

section RoundTrip

theorem readIpv6_full {groups : List ℕ} (hlt : ∀ g ∈ groups, g < 65536) (hlength : groups.length = 8) :
    readIpv6 (hexGroups groups).toList = some (ofGroups groups, []) := by
  have hread : readGroups 8 0 ((hexGroups groups).toList ++ []) = (groups, false, []) :=
    readGroups_hexGroups groups hlt hlength.le (.inl rfl) List.not_mem_nil
  rw [List.append_nil] at hread
  rw [readIpv6, hread]
  exact if_pos hlength

theorem readIpv6_compressed {segments : List ℕ} {span : ℕ × ℕ} (hrun : ZeroRun segments span)
    (hlt : ∀ g ∈ segments, g < 65536) (hlength : segments.length = 8) (hspan : 0 < span.2) :
    readIpv6 ((hexGroups (segments.take span.1)).toList ++
      ':' :: ':' :: (hexGroups (segments.drop (span.1 + span.2))).toList) =
        some (ofGroups segments, []) := by
  obtain ⟨before, after, hsegments, hstart⟩ := hrun
  have hdrop : segments.drop (span.1 + span.2) = after := by
    rw [hsegments, ← List.append_assoc]
    exact List.drop_left' (by simp [hstart])
  rw [hdrop, hsegments, List.take_left' hstart]
  rw [hsegments] at hlt hlength
  simp only [List.forall_mem_append] at hlt
  simp only [List.length_append, List.length_replicate] at hlength
  have hhead : readGroups 8 0
      ((hexGroups before).toList ++ ':' :: ':' :: (hexGroups after).toList) =
        (before, false, ':' :: ':' :: (hexGroups after).toList) :=
    readGroups_hexGroups before hlt.1 (by omega) (.inr ⟨_, rfl⟩) (by simp [dot_not_mem_hexGroups])
  have htail : readGroups (7 - before.length) 0 ((hexGroups after).toList ++ []) =
      (after, false, []) :=
    readGroups_hexGroups after hlt.2.2 (by omega) (.inl rfl) List.not_mem_nil
  rw [List.append_nil] at htail
  have hfill : 8 - before.length - after.length = span.2 := by omega
  rw [readIpv6, hhead]
  dsimp only
  rw [if_neg (by omega), if_neg Bool.false_ne_true]
  simp only [readGiven, if_true, Option.bind_eq_bind, Option.bind_some]
  rw [htail, hfill, List.append_assoc]
  rfl

theorem readIpv6_mapped (a : BitVec 32) :
    readIpv6 (':' :: ':' :: ("ffff:".toList ++ (v4Text a).toList)) =
      some (BitVec.ofNat 128 (0xffff * 2 ^ 32 + a.toNat), []) := by
  have hread : readIpv4 ((v4Text a).toList ++ []) = some (a, []) :=
    readIpv4_v4Text a (bounded_nil 10)
  rw [List.append_nil] at hread
  have hlast : readGroups (5 + 1) 1 (':' :: (v4Text a).toList) =
      ([a.toNat / 65536, a.toNat % 65536], true, []) := by
    rw [readGroups, if_pos (by decide), readSeparator, if_neg Nat.one_ne_zero, readGiven, if_pos rfl,
      Option.bind_some, hread]
  have hfirst : readNumber 16 4 65536 true
      (Nat.toDigits 16 0xffff ++ ':' :: (v4Text a).toList) = some (0xffff, ':' :: (v4Text a).toList) :=
    readNumber_toDigits (by decide) (by decide) (by decide) (by decide) (by decide)
      (bounded_cons (by decide))
  have htail : readGroups (6 + 1) 0 ("ffff:".toList ++ (v4Text a).toList) =
      ([0xffff, a.toNat / 65536, a.toNat % 65536], true, []) := by
    have hffff : "ffff:".toList ++ (v4Text a).toList =
        Nat.toDigits 16 0xffff ++ ':' :: (v4Text a).toList := rfl
    have hletter : readIpv4 ("ffff:".toList ++ (v4Text a).toList) = none :=
      readIpv4_of_bounded (bounded_cons (by decide))
    rw [readGroups, readSeparator, if_pos rfl, hletter, ite_self]
    dsimp only
    rw [readSeparator, if_pos rfl, hffff, hfirst]
    dsimp only
    rw [hlast]
  have hhead : readGroups 8 0 (':' :: ':' :: ("ffff:".toList ++ (v4Text a).toList)) =
      ([], false, ':' :: ':' :: ("ffff:".toList ++ (v4Text a).toList)) :=
    readGroups_ends (.inr ⟨_, rfl⟩)
  rw [readIpv6, hhead]
  dsimp only
  rw [if_neg (by decide), if_neg Bool.false_ne_true]
  simp only [readGiven, if_true, Option.bind_eq_bind, Option.bind_some]
  rw [List.length_nil, htail]
  have hgroups : ofGroups ([] ++ List.replicate 5 0 ++ [0xffff, a.toNat / 65536, a.toNat % 65536]) =
      BitVec.ofNat 128 (0xffff * 2 ^ 32 + a.toNat) := by
    refine congrArg (BitVec.ofNat 128) ?_
    simp only [List.replicate, List.nil_append, List.cons_append, List.foldl_cons, List.foldl_nil]
    omega
  exact congrArg (fun v => some (v, [])) hgroups

theorem readIpv6_v6Text (a : BitVec 128) : readIpv6 (v6Text a).toList = some (a, []) := by
  rw [v6Text]
  split_ifs with hmapped
  · have hvalue : 0xffff * 2 ^ 32 + (a.setWidth 32).toNat = a.toNat := by
      rw [BitVec.toNat_setWidth, ← hmapped, Nat.mul_comm]
      exact Nat.div_add_mod ..
    rw [String.toList_append]
    refine (readIpv6_mapped (a.setWidth 32)).trans ?_
    rw [hvalue, BitVec.ofNat_toNat, BitVec.setWidth_eq]
  · dsimp only
    have hlt : ∀ g ∈ fields 16 8 a, g < 65536 := fun g hg => fields_lt hg
    have hrun : ZeroRun ([] ++ fields 16 8 a) (zeroSpan (fields 16 8 a) 0 (0, 0) (0, 0)) :=
      zeroSpan_zeroRun (fun h => absurd rfl h) ⟨[], _, rfl, rfl⟩
    split_ifs with hzeros
    · rw [String.toList_append, String.toList_append, List.append_assoc]
      exact (readIpv6_compressed hrun hlt (fields_length 16 8 a) (Nat.zero_lt_of_lt hzeros)).trans
        (by rw [List.nil_append, ofGroups_fields])
    · rw [readIpv6_full hlt (fields_length 16 8 a), ofGroups_fields]

theorem readIpv4_v6Text (a : BitVec 128) {rest : List Char} (hdot : '.' ∉ rest) :
    readIpv4 ((v6Text a).toList ++ rest) = none := by
  rw [v6Text]
  split_ifs with hmapped
  · rw [String.toList_append]
    exact readIpv4_of_bounded (bounded_cons (by decide))
  · apply readIpv4_of_no_dot
    dsimp only
    split_ifs
    · simp only [String.toList_append, List.mem_append, not_or]
      exact ⟨⟨⟨dot_not_mem_hexGroups _, by decide⟩, dot_not_mem_hexGroups _⟩, hdot⟩
    · rw [List.mem_append, not_or]
      exact ⟨dot_not_mem_hexGroups _, hdot⟩

/-- What is printed for an address is read as that address. -/
theorem parseIpAddr_text (a : IpAddr) : parseIpAddr a.text = some a := by
  cases a with
  | v4 a =>
    have hread : readIpv4 ((v4Text a).toList ++ []) = some (a, []) :=
      readIpv4_v4Text a (bounded_nil 10)
    rw [List.append_nil] at hread
    rw [IpAddr.text, parseIpAddr, hread]
    rfl
  | v6 a =>
    have hread : readIpv4 ((v6Text a).toList ++ []) = none := readIpv4_v6Text a (by decide)
    rw [List.append_nil] at hread
    rw [IpAddr.text, parseIpAddr, hread, readIpv6_v6Text]
    rfl

end RoundTrip

end EasyConnection.Net
