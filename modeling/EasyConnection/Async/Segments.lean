import Mathlib.Data.List.Basic

/-! # A stream that arrives in segments

One read returns what has arrived, up to the room in the buffer; an exact read goes on until it
has all it asked for or the stream ends. Elements that were put back in front of the stream are
returned one by one. However the segments are cut, an exact read takes a prefix of the stream.
-/
namespace EasyConnection.Async

structure Segments (α : Type*) where
  putBack : List α
  arriving : List (List α)

namespace Segments
variable {α : Type*}

def ofList (segments : List (List α)) : Segments α := ⟨[], segments⟩

def unread (s : Segments α) (a : α) : Segments α := { s with putBack := a :: s.putBack }

/-- All that is still to be read. -/
def pending (s : Segments α) : List α := s.putBack ++ s.arriving.flatten

/-- An empty segment is one that has not arrived yet. -/
def pollArriving (room : ℕ) : List (List α) → List α × List (List α)
  | [] => ([], [])
  | [] :: rest => pollArriving room rest
  | (a :: seg) :: rest => ((a :: seg).take room, (a :: seg).drop room :: rest)

/-- One read with room for some elements. Nothing is returned only at the end of the stream. -/
def poll (room : ℕ) (s : Segments α) : List α × Segments α :=
  match s.putBack with
  | a :: rest => ([a], { s with putBack := rest })
  | [] => ((pollArriving room s.arriving).1, ⟨[], (pollArriving room s.arriving).2⟩)

/-- Read until there are `n` elements or the stream ends, with at most `fuel` reads. -/
def fill : (fuel n : ℕ) → Segments α → List α × Segments α
  | 0, _, s => ([], s)
  | fuel + 1, n, s =>
    if n = 0 then ([], s)
    else
      let p := s.poll n
      if p.1.isEmpty then p
      else
        let q := fill fuel (n - p.1.length) p.2
        (p.1 ++ q.1, q.2)

theorem pollArriving_append (room : ℕ) (segments : List (List α)) :
    (pollArriving room segments).1 ++ (pollArriving room segments).2.flatten = segments.flatten := by
  induction segments with
  | nil => rfl
  | cons seg rest ih =>
    cases seg with
    | nil => exact ih
    | cons a seg =>
      rw [pollArriving, List.flatten_cons, List.flatten_cons, ← List.append_assoc,
        List.take_append_drop]

theorem pollArriving_length_le (room : ℕ) (segments : List (List α)) :
    (pollArriving room segments).1.length ≤ room := by
  induction segments with
  | nil => exact Nat.zero_le _
  | cons seg rest ih =>
    cases seg with
    | nil => exact ih
    | cons a seg => exact List.length_take_le _ _

theorem pollArriving_eq_nil {room : ℕ} (hroom : 0 < room) {segments : List (List α)}
    (h : (pollArriving room segments).1 = []) : segments.flatten = [] := by
  induction segments with
  | nil => rfl
  | cons seg rest ih =>
    cases seg with
    | nil => exact ih h
    | cons a seg =>
      rw [pollArriving, List.take_eq_nil_iff] at h
      obtain hzero | hnil := h
      · omega
      · cases hnil

/-- A read takes a prefix of the stream. -/
theorem poll_append (room : ℕ) (s : Segments α) :
    (s.poll room).1 ++ (s.poll room).2.pending = s.pending := by
  obtain ⟨putBack, arriving⟩ := s
  cases putBack with
  | nil => exact pollArriving_append room arriving
  | cons a rest => rfl

theorem poll_length_le {room : ℕ} (hroom : 0 < room) (s : Segments α) :
    (s.poll room).1.length ≤ room := by
  obtain ⟨putBack, arriving⟩ := s
  cases putBack with
  | nil => exact pollArriving_length_le room arriving
  | cons a rest => exact hroom

theorem poll_eq_nil {room : ℕ} (hroom : 0 < room) {s : Segments α} (h : (s.poll room).1 = []) :
    s.pending = [] := by
  obtain ⟨putBack, arriving⟩ := s
  cases putBack with
  | nil => exact pollArriving_eq_nil hroom h
  | cons a rest => cases h

/-- An exact read does not depend on how the stream is cut. -/
theorem fill_pending {fuel n : ℕ} (hfuel : n ≤ fuel) (s : Segments α) :
    (s.fill fuel n).1 = s.pending.take n ∧ (s.fill fuel n).2.pending = s.pending.drop n := by
  induction fuel generalizing n s with
  | zero =>
    obtain rfl : n = 0 := by omega
    exact ⟨rfl, rfl⟩
  | succ fuel ih =>
    unfold fill
    dsimp only
    split_ifs with hn hempty
    · subst hn
      exact ⟨rfl, rfl⟩
    · have hroom : 0 < n := Nat.pos_of_ne_zero hn
      have hnil : (s.poll n).1 = [] := List.isEmpty_iff.1 hempty
      have hrest := s.poll_append n
      rw [hnil, List.nil_append] at hrest
      rw [hnil, hrest, poll_eq_nil hroom hnil]
      exact ⟨List.take_nil.symm, List.drop_nil.symm⟩
    · have hroom : 0 < n := Nat.pos_of_ne_zero hn
      have hle := poll_length_le hroom s
      have hpos : 0 < (s.poll n).1.length := List.length_pos_iff.2 fun h => hempty (by simp [h])
      obtain ⟨htake, hdrop⟩ := ih (n := n - (s.poll n).1.length) (by omega) (s.poll n).2
      rw [← s.poll_append n, List.take_append, List.drop_append, List.take_of_length_le hle,
        List.drop_of_length_le hle, List.nil_append]
      exact ⟨by rw [htake], hdrop⟩

end Segments

end EasyConnection.Async
