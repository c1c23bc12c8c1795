import Mathlib.Data.List.Infix

/-! # The first occurrence of a pattern

What is found in a list is found at the same place in every longer one, and what is found in the
longer one and ends within the shorter was there already.
-/
namespace EasyConnection.Codec
variable {α : Type} [DecidableEq α]

/-- The first place at which the pattern stands. -/
def position (pat : List α) : List α → Option ℕ
  | [] => if pat = [] then some 0 else none
  | a :: s => if pat <+: a :: s then some 0 else (position pat s).map (· + 1)

variable {pat s t : List α} {i : ℕ}

theorem position_eq_some_iff :
    position pat s = some i ↔
      i ≤ s.length ∧ pat <+: s.drop i ∧ ∀ j < i, ¬ pat <+: s.drop j := by
  induction s generalizing i with
  | nil =>
    rw [position]
    split_ifs with h
    · subst h
      constructor
      · intro hi
        obtain rfl := Option.some.inj hi
        exact ⟨Nat.le_refl 0, List.nil_prefix, fun j hj => absurd hj (Nat.not_lt_zero j)⟩
      · rintro ⟨hle, -⟩
        exact congrArg some (Nat.le_zero.1 hle).symm
    · simp [h]
  | cons a s ih =>
    rw [position]
    split_ifs with h
    · constructor
      · intro hi
        obtain rfl := Option.some.inj hi
        exact ⟨Nat.zero_le _, h, fun j hj => absurd hj (Nat.not_lt_zero j)⟩
      · rintro ⟨-, -, hfirst⟩
        cases i with
        | zero => rfl
        | succ i => exact absurd h (hfirst 0 i.succ_pos)
    · cases i with
      | zero => simp [h]
      | succ i =>
        rw [Option.map_eq_some_iff]
        constructor
        · rintro ⟨j, hj, hsucc⟩
          obtain rfl := Nat.succ.inj hsucc
          obtain ⟨hle, hpat, hfirst⟩ := ih.1 hj
          refine ⟨Nat.succ_le_succ hle, hpat, fun k hk => ?_⟩
          cases k with
          | zero => exact h
          | succ k => exact hfirst k (Nat.lt_of_succ_lt_succ hk)
        · rintro ⟨hle, hpat, hfirst⟩
          refine ⟨i, ih.2 ⟨Nat.le_of_succ_le_succ hle, hpat, fun j hj => ?_⟩, rfl⟩
          exact hfirst (j + 1) (Nat.succ_lt_succ hj)

theorem position_end_le (h : position pat s = some i) : i + pat.length ≤ s.length := by
  obtain ⟨hle, hpat, -⟩ := position_eq_some_iff.1 h
  have hlength := hpat.length_le
  rw [List.length_drop] at hlength
  omega

omit [DecidableEq α] in
/-- What stands in the first part of a list does not depend on the rest. -/
theorem isPrefix_drop_append (h : i + pat.length ≤ s.length) :
    pat <+: (s ++ t).drop i ↔ pat <+: s.drop i := by
  have hdrop : (s ++ t).drop i = s.drop i ++ t := List.drop_append_of_le_length (by omega)
  rw [hdrop]
  constructor
  · intro hpat
    refine List.prefix_of_prefix_length_le hpat (List.prefix_append _ _) ?_
    rw [List.length_drop]
    omega
  · exact fun hpat => hpat.trans (List.prefix_append _ _)

theorem position_append_iff (h : i + pat.length ≤ s.length) :
    position pat (s ++ t) = some i ↔ position pat s = some i := by
  rw [position_eq_some_iff, position_eq_some_iff, isPrefix_drop_append h, List.length_append]
  have hfirst : (∀ j < i, ¬ pat <+: (s ++ t).drop j) ↔ ∀ j < i, ¬ pat <+: s.drop j :=
    forall₂_congr fun j hj => not_congr (isPrefix_drop_append (by omega))
  rw [hfirst]
  exact and_congr_left fun _ => ⟨fun _ => by omega, fun _ => by omega⟩

theorem position_append (h : position pat s = some i) (t : List α) :
    position pat (s ++ t) = some i :=
  (position_append_iff (position_end_le h)).2 h

/-- An occurrence stays where it is found. -/
theorem position_mono (hs : s <+: t) (h : position pat s = some i) : position pat t = some i := by
  obtain ⟨rest, rfl⟩ := hs
  exact position_append h rest

theorem position_of_take (h : position pat s = some i) {n : ℕ} (hn : i + pat.length ≤ n) :
    position pat (s.take n) = some i := by
  have hend := position_end_le h
  have hlength : i + pat.length ≤ (s.take n).length := by
    rw [List.length_take]
    omega
  rwa [← position_append_iff hlength (t := s.drop n), List.take_append_drop]

/-- What is found in a part of the list. -/
theorem position_part (h : position pat t = some i) (hs : s <+: t) :
    position pat s = if i + pat.length ≤ s.length then some i else none := by
  split_ifs with hle
  · rw [List.prefix_iff_eq_take.1 hs]
    exact position_of_take h hle
  · rw [Option.eq_none_iff_forall_ne_some]
    intro j hj
    obtain rfl := Option.some.inj (h.symm.trans (position_mono hs hj))
    exact hle (position_end_le hj)

end EasyConnection.Codec
