import Mathlib.Data.List.Basic

/-! # Machine words and slices

Sums of 64 bits and slices of a list, which are no computation at all when they leave their range.
-/
namespace EasyConnection.Codec

inductive Fault where
  | overflow
  | outOfRange
  deriving DecidableEq, Repr

abbrev Machine := Except Fault

/-- The sixty-fourth power of two. -/
def usizeBound : ℕ := 18446744073709551616

def addUsize (a b : ℕ) : Machine ℕ := if a + b < usizeBound then .ok (a + b) else .error .overflow

section Slices
variable {α : Type} {s : List α} {n : ℕ}

def sliceTo (n : ℕ) (s : List α) : Machine (List α) :=
  if n ≤ s.length then .ok (s.take n) else .error .outOfRange

def sliceFrom (n : ℕ) (s : List α) : Machine (List α) :=
  if n ≤ s.length then .ok (s.drop n) else .error .outOfRange

/-- A range, if it lies in the slice. -/
def getRange (s : List α) (start stop : ℕ) : Option (List α) :=
  if start ≤ stop ∧ stop ≤ s.length then some ((s.take stop).drop start) else none

def index (s : List α) (i : ℕ) : Machine α :=
  match s[i]? with
  | some a => .ok a
  | none => .error .outOfRange

theorem sliceTo_eq (h : n ≤ s.length) : sliceTo n s = .ok (s.take n) := if_pos h

theorem sliceFrom_eq (h : n ≤ s.length) : sliceFrom n s = .ok (s.drop n) := if_pos h

end Slices

theorem addUsize_eq {a b : ℕ} (h : a + b < usizeBound) : addUsize a b = .ok (a + b) := if_pos h

theorem addUsize_overflow {a b : ℕ} (h : usizeBound ≤ a + b) : addUsize a b = .error .overflow :=
  if_neg (Nat.not_lt.2 h)

end EasyConnection.Codec
