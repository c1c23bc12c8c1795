import Mathlib.Data.List.Basic
import Mathlib.Tactic.Ring

/-! # Cutting a list into pieces of bounded length -/

namespace EasyConnection.Codec
variable {α : Type*}

/-- Consecutive pieces of length `n`, the last one possibly shorter. -/
def chunks (n : ℕ) (l : List α) : List (List α) :=
  (List.range ((l.length + n - 1) / n)).map (fun i => (l.drop (i * n)).take n)

theorem chunk_length_le (n : ℕ) (l c : List α) (hc : c ∈ chunks n l) : c.length ≤ n := by
  obtain ⟨i, _, rfl⟩ := List.mem_map.mp hc
  simp

theorem chunk_ne_nil {n : ℕ} (hn : 0 < n) (l c : List α) (hc : c ∈ chunks n l) : c ≠ [] := by
  obtain ⟨i, hi, rfl⟩ := List.mem_map.mp hc
  rw [List.mem_range, Nat.lt_div_iff_mul_lt hn] at hi
  have hlt : i * n < l.length := by omega
  rw [← List.length_pos_iff, List.length_take, List.length_drop]
  omega

theorem chunks_nil {n : ℕ} (hn : 0 < n) : chunks n ([] : List α) = [] := by
  rw [chunks, List.length_nil, Nat.div_eq_of_lt (by omega)]
  rfl

/-- The first piece stands in front of the others. -/
theorem chunks_append {n : ℕ} (hn : 0 < n) {first : List α} (hfirst : first.length = n)
    (rest : List α) : chunks n (first ++ rest) = first :: chunks n rest := by
  have hcount : ((first ++ rest).length + n - 1) / n = (rest.length + n - 1) / n + 1 := by
    rw [← Nat.add_div_right _ hn, List.length_append]
    congr 1
    omega
  rw [chunks, hcount, List.range_succ_eq_map, List.map_cons, List.map_map, Nat.zero_mul,
    List.drop_zero, List.take_left' hfirst, chunks]
  congr 2
  funext i
  rw [Function.comp_apply, Nat.succ_mul, Nat.add_comm, ← List.drop_drop, List.drop_left' hfirst]

/-- What is not longer than a piece is one. -/
theorem chunks_of_length_le {n : ℕ} {l : List α} (hne : l ≠ []) (hle : l.length ≤ n) :
    chunks n l = [l] := by
  have hpos := List.length_pos_iff.2 hne
  have hcount : (l.length + n - 1) / n = 1 :=
    Nat.div_eq_of_lt_le (by omega) (by omega)
  rw [chunks, hcount, List.range_one, List.map_singleton, Nat.zero_mul, List.drop_zero,
    List.take_of_length_le hle]

theorem flatten_map_range (n k : ℕ) (l : List α) :
    ((List.range k).map (fun i => (l.drop (i * n)).take n)).flatten = l.take (k * n) := by
  induction k with
  | zero => simp
  | succ k ih =>
    rw [List.range_succ, List.map_append, List.flatten_append, ih, Nat.succ_mul, List.take_add]
    simp

@[simp] theorem flatten_chunks {n : ℕ} (hn : 0 < n) (l : List α) : (chunks n l).flatten = l := by
  rw [chunks, flatten_map_range]
  refine List.take_of_length_le ?_
  have hdiv := Nat.div_add_mod (l.length + n - 1) n
  have hmod := Nat.mod_lt (l.length + n - 1) hn
  rw [Nat.mul_comm]
  omega

theorem flatten_flatMap_chunks {n : ℕ} (hn : 0 < n) (ls : List (List α)) :
    (ls.flatMap (chunks n)).flatten = ls.flatten := by
  induction ls with
  | nil => rfl
  | cons l ls ih => rw [List.flatMap_cons, List.flatten_append, flatten_chunks hn, ih, List.flatten_cons]

end EasyConnection.Codec
