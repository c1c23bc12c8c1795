import Mathlib.Data.List.Basic

/-! # Reading until there is enough

A loop appends what its reads return to a buffer, and looks at the buffer after each of them. It
ends when there is no room for what was read, when the buffer has all it waits for, when one of its
computations fails, or with the stream.
-/
namespace EasyConnection.Async

inductive Gathered (φ α : Type) where
  | failed (fault : φ)
  | tooLarge
  | closed (buf : List α)
  | stopped (buf : List α) (rest : List (List α))
  deriving DecidableEq

section Gather
variable {φ α : Type} (room : ℕ → ℕ → Except φ Bool) (stop : List α → Except φ Bool)

/-- The pieces are what the reads return, one after another. -/
def gather : List α → List (List α) → Gathered φ α
  | buf, [] => .closed buf
  | buf, piece :: pieces =>
    match room buf.length piece.length with
    | .error fault => .failed fault
    | .ok false => .tooLarge
    | .ok true =>
      match stop (buf ++ piece) with
      | .error fault => .failed fault
      | .ok true => .stopped (buf ++ piece) pieces
      | .ok false => gather (buf ++ piece) pieces

/-- The loop goes on after each of the pieces. -/
def Quiet (buf : List α) (pieces : List (List α)) : Prop :=
  ∀ before piece after, pieces = before ++ piece :: after →
    room (buf ++ before.flatten).length piece.length = .ok true ∧
      stop (buf ++ before.flatten ++ piece) = .ok false

/-- How the loop ends. -/
inductive Ends (buf : List α) (pieces : List (List α)) : Gathered φ α → Prop where
  | closed (quiet : Quiet room stop buf pieces) : Ends buf pieces (.closed (buf ++ pieces.flatten))
  | noRoom {before after : List (List α)} {piece : List α} (split : pieces = before ++ piece :: after)
      (quiet : Quiet room stop buf before)
      (full : room (buf ++ before.flatten).length piece.length = .ok false) :
      Ends buf pieces .tooLarge
  | roomFailed {before after : List (List α)} {piece : List α} {fault : φ}
      (split : pieces = before ++ piece :: after) (quiet : Quiet room stop buf before)
      (failed : room (buf ++ before.flatten).length piece.length = .error fault) :
      Ends buf pieces (.failed fault)
  | stopFailed {before after : List (List α)} {piece : List α} {fault : φ}
      (split : pieces = before ++ piece :: after) (quiet : Quiet room stop buf before)
      (fits : room (buf ++ before.flatten).length piece.length = .ok true)
      (failed : stop (buf ++ before.flatten ++ piece) = .error fault) :
      Ends buf pieces (.failed fault)
  | stopped {before after : List (List α)} {piece : List α}
      (split : pieces = before ++ piece :: after) (quiet : Quiet room stop buf before)
      (fits : room (buf ++ before.flatten).length piece.length = .ok true)
      (enough : stop (buf ++ before.flatten ++ piece) = .ok true) :
      Ends buf pieces (.stopped (buf ++ before.flatten ++ piece) after)

variable {room stop} {buf : List α} {piece : List α} {pieces : List (List α)}

theorem quiet_nil : Quiet room stop buf [] := by
  intro before piece after h
  exact absurd h (by simp)

theorem quiet_cons_iff : Quiet room stop buf (piece :: pieces) ↔
    room buf.length piece.length = .ok true ∧ stop (buf ++ piece) = .ok false ∧
      Quiet room stop (buf ++ piece) pieces := by
  constructor
  · intro h
    obtain ⟨hroom, hstop⟩ := h [] piece pieces rfl
    rw [List.flatten_nil, List.append_nil] at hroom hstop
    refine ⟨hroom, hstop, fun before next after hsplit => ?_⟩
    have hnext := h (piece :: before) next after (by rw [hsplit, List.cons_append])
    rwa [List.flatten_cons, ← List.append_assoc] at hnext
  · rintro ⟨hroom, hstop, hrest⟩ before next after hsplit
    cases before with
    | nil =>
      obtain ⟨rfl, rfl⟩ := List.cons.inj hsplit
      rw [List.flatten_nil, List.append_nil]
      exact ⟨hroom, hstop⟩
    | cons first before =>
      obtain ⟨rfl, rfl⟩ := List.cons.inj hsplit
      rw [List.flatten_cons, ← List.append_assoc]
      exact hrest before next after rfl

theorem Quiet.last (h : Quiet room stop buf pieces) (hne : pieces ≠ []) :
    stop (buf ++ pieces.flatten) = .ok false := by
  obtain ⟨before, piece, rfl⟩ := (List.eq_nil_or_concat pieces).resolve_left hne
  obtain ⟨-, hstop⟩ := h before piece [] (List.concat_eq_append ..)
  rwa [List.concat_eq_append, List.flatten_append, List.flatten_singleton, ← List.append_assoc]

/-- The end of a loop that has gone on after one piece. -/
theorem Ends.cons {r : Gathered φ α} (hroom : room buf.length piece.length = .ok true)
    (hstop : stop (buf ++ piece) = .ok false) (h : Ends room stop (buf ++ piece) pieces r) :
    Ends room stop buf (piece :: pieces) r := by
  have hquiet : ∀ {before : List (List α)}, Quiet room stop (buf ++ piece) before →
      Quiet room stop buf (piece :: before) :=
    fun h => quiet_cons_iff.2 ⟨hroom, hstop, h⟩
  have hflat : ∀ before : List (List α),
      buf ++ (piece :: before).flatten = buf ++ piece ++ before.flatten := by
    intro before
    rw [List.flatten_cons, List.append_assoc]
  cases h with
  | closed quiet =>
    rw [← hflat]
    exact .closed (hquiet quiet)
  | noRoom split quiet full =>
    rw [← hflat] at full
    exact .noRoom (congrArg (piece :: ·) split) (hquiet quiet) full
  | roomFailed split quiet failed =>
    rw [← hflat] at failed
    exact .roomFailed (congrArg (piece :: ·) split) (hquiet quiet) failed
  | stopFailed split quiet fits failed =>
    rw [← hflat] at fits failed
    exact .stopFailed (congrArg (piece :: ·) split) (hquiet quiet) fits failed
  | stopped split quiet fits enough =>
    rw [← hflat] at fits enough ⊢
    exact .stopped (congrArg (piece :: ·) split) (hquiet quiet) fits enough

theorem gather_ends (buf : List α) (pieces : List (List α)) :
    Ends room stop buf pieces (gather room stop buf pieces) := by
  have hnil : ∀ buf : List α, buf ++ ([] : List (List α)).flatten = buf := by simp
  induction pieces generalizing buf with
  | nil =>
    have hend : Ends room stop buf [] _ := .closed quiet_nil
    rwa [hnil] at hend
  | cons piece pieces ih =>
    rw [gather]
    have hsplit : piece :: pieces = [] ++ piece :: pieces := rfl
    split
    · next hroom => exact .roomFailed hsplit quiet_nil (by rwa [hnil])
    · next hroom => exact .noRoom hsplit quiet_nil (by rwa [hnil])
    · next hroom =>
      split
      · next hstop => exact .stopFailed hsplit quiet_nil (by rwa [hnil]) (by rwa [hnil])
      · next hstop =>
        have hend := Ends.stopped hsplit quiet_nil (by rwa [hnil]) (by rwa [hnil])
        rwa [hnil] at hend
      · next hstop => exact (ih _).cons hroom hstop

/-- The pieces after which the loop goes on. -/
theorem gather_append (h : Quiet room stop buf pieces) (rest : List (List α)) :
    gather room stop buf (pieces ++ rest) = gather room stop (buf ++ pieces.flatten) rest := by
  induction pieces generalizing buf with
  | nil => simp
  | cons piece pieces ih =>
    obtain ⟨hroom, hstop, hquiet⟩ := quiet_cons_iff.1 h
    rw [List.cons_append, gather, hroom]
    dsimp only
    rw [hstop]
    dsimp only
    rw [ih hquiet, List.flatten_cons, List.append_assoc]

/-- The loop goes on as long as what it has seen is a part of some list. -/
theorem quiet_of_part {t : List α} (hroom : ∀ m n, m + n ≤ t.length → room m n = .ok true)
    (hstop : ∀ b, b <+: t → stop b = .ok false) (ht : buf ++ pieces.flatten <+: t) :
    Quiet room stop buf pieces := by
  intro before piece after hsplit
  have hpart : buf ++ before.flatten ++ piece <+: t := by
    refine List.IsPrefix.trans ⟨after.flatten, ?_⟩ ht
    rw [hsplit, List.flatten_append, List.flatten_cons, List.append_assoc, List.append_assoc]
  have hlength := hpart.length_le
  rw [List.length_append] at hlength
  exact ⟨hroom _ _ hlength, hstop _ hpart⟩

end Gather

section Segmentation
variable {α : Type} {bound : ℕ} {s : List α} {pieces before after : List (List α)} {piece : List α}

/-- What reads with room for so many elements may return of a stream that ends. -/
structure Segmentation (bound : ℕ) (s : List α) (pieces : List (List α)) : Prop where
  flatten : pieces.flatten = s
  piece : ∀ piece ∈ pieces, piece ≠ [] ∧ piece.length ≤ bound

theorem flatten_split (h : pieces = before ++ piece :: after) :
    pieces.flatten = before.flatten ++ piece ++ after.flatten := by
  rw [h, List.flatten_append, List.flatten_cons, List.append_assoc]

/-- The elements one by one. -/
def singles (s : List α) : List (List α) := s.map fun a => [a]

theorem segmentation_singles (hbound : 0 < bound) (s : List α) :
    Segmentation bound s (singles s) := by
  constructor
  · induction s with
    | nil => rfl
    | cons a s ih =>
      rw [singles, List.map_cons, List.flatten_cons, ← singles, ih, List.singleton_append]
  · intro piece hpiece
    obtain ⟨a, -, rfl⟩ := List.mem_map.1 hpiece
    exact ⟨List.cons_ne_nil a [], hbound⟩

/-- The elements one by one but for one piece. -/
def singlesAround (n m : ℕ) (s : List α) : List (List α) :=
  singles (s.take n) ++ (s.drop n).take m :: singles (s.drop (n + m))

theorem segmentation_singlesAround {n m : ℕ} (hpos : 0 < m) (hbound : m ≤ bound)
    (hlength : n + m ≤ s.length) : Segmentation bound s (singlesAround n m s) := by
  have hone : 0 < bound := by omega
  have hbefore := segmentation_singles hone (s.take n)
  have hafter := segmentation_singles hone (s.drop (n + m))
  constructor
  · rw [singlesAround, flatten_split rfl, hbefore.flatten, hafter.flatten, ← List.take_add,
      List.take_append_drop]
  · intro piece hpiece
    rcases List.mem_append.1 hpiece with hpiece | hpiece
    · exact hbefore.piece piece hpiece
    · rcases List.mem_cons.1 hpiece with rfl | hpiece
      · have hexact : ((s.drop n).take m).length = m := by
          rw [List.length_take, List.length_drop]
          omega
        exact ⟨fun hnil => by rw [hnil, List.length_nil] at hexact; omega, by omega⟩
      · exact hafter.piece piece hpiece

/-- The loop comes to the one longer piece if it goes on before. -/
theorem gather_singlesAround {φ : Type} {room : ℕ → ℕ → Except φ Bool} {stop : List α → Except φ Bool}
    {n : ℕ} (hroom : ∀ a b, a + b ≤ n → room a b = .ok true)
    (hstop : ∀ b, b <+: s.take n → stop b = .ok false) (m : ℕ) :
    gather room stop [] (singlesAround n m s) =
      gather room stop (s.take n) ((s.drop n).take m :: singles (s.drop (n + m))) := by
  have hflat : (singles (s.take n)).flatten = s.take n := (segmentation_singles Nat.one_pos _).flatten
  have hquiet : Quiet room stop [] (singles (s.take n)) := by
    apply quiet_of_part _ hstop
    · rw [hflat]
      exact List.prefix_rfl
    · intro a b hle
      exact hroom a b (Nat.le_trans hle (List.length_take_le ..))
  rw [singlesAround, gather_append hquiet, hflat, List.nil_append]

end Segmentation

end EasyConnection.Async
