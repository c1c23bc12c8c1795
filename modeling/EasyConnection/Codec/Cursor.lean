import EasyConnection.Codec.ByteReader
import EasyConnection.Codec.Bytes
import EasyConnection.Codec.Usize

/-! # Readers with a position

A cursor moves a position in a slice, and keeps it when it fails. A sum or an index that leaves its
range is no result at all, and neither is a call that is left without fuel. `Follows` compares a
cursor with a reader of the bytes from its position on.
-/
namespace EasyConnection.Codec

inductive Stop where
  | fault (fault : Fault)
  | outOfFuel
  deriving DecidableEq, Repr

def Cursor (ε α : Type) := List UInt8 → ℕ → Except Stop (Except ε α × ℕ)

namespace Cursor
variable {ε α β : Type}

instance : Monad (Cursor ε) where
  pure a := fun _ position => .ok (.ok a, position)
  bind x f := fun input position =>
    match x input position with
    | .ok (.ok a, position') => f a input position'
    | .ok (.error e, position') => .ok (.error e, position')
    | .error stop => .error stop

def ofExcept (r : Except ε α) : Cursor ε α := fun _ position => .ok (r, position)

def fail (e : ε) : Cursor ε α := ofExcept (.error e)

def ofMachine (m : Machine α) : Cursor ε α := fun _ position =>
  match m with
  | .ok a => .ok (.ok a, position)
  | .error fault => .error (.fault fault)

def outOfFuel : Cursor ε α := fun _ _ => .error .outOfFuel

/-- Read a number of times. -/
def replicate (x : Cursor ε α) : ℕ → Cursor ε (List α)
  | 0 => pure []
  | n + 1 => do
    let a ← x
    let rest ← replicate x n
    return a :: rest

section Rules
variable {x : Cursor ε α} {r : ByteReader ε α} {good : α → ℕ → Prop} {room : ℕ}

/-- From every position of a slice the cursor comes to an end, at a position of the slice that is
not before it. What it returns is good for the number of bytes it has passed. -/
def Bounded (x : Cursor ε α) (good : α → ℕ → Prop) : Prop :=
  ∀ input position, position ≤ input.length → ∃ result position',
    x input position = .ok (result, position') ∧ position ≤ position' ∧
    position' ≤ input.length ∧ ∀ a, result = .ok a → good a (position' - position)

/-- It is bounded, and does what the reader does. There are `room` addresses behind the slice. -/
def Follows (room : ℕ) (x : Cursor ε α) (r : ByteReader ε α) (good : α → ℕ → Prop) : Prop :=
  ∀ input position, position ≤ input.length → ∃ result position',
    x input position = .ok (result, position') ∧ position ≤ position' ∧
    position' ≤ input.length ∧ (∀ a, result = .ok a → good a (position' - position)) ∧
    (input.length + room ≤ usizeBound →
      r.run (input.drop position) = result.map fun a => (a, input.drop position'))

theorem Follows.bounded (h : Follows room x r good) : Bounded x good := by
  intro input position hposition
  obtain ⟨result, position', hx, hlow, hhigh, hgood, -⟩ := h input position hposition
  exact ⟨result, position', hx, hlow, hhigh, hgood⟩

theorem Follows.mono {good' : α → ℕ → Prop} (h : Follows room x r good)
    (hgood : ∀ a n, good a n → good' a n) : Follows room x r good' := by
  intro input position hposition
  obtain ⟨result, position', hx, hlow, hhigh, hok, hr⟩ := h input position hposition
  exact ⟨result, position', hx, hlow, hhigh, fun a ha => hgood a _ (hok a ha), hr⟩

theorem follows_ofExcept {result : Except ε α} (hr : ∀ bs, r.run bs = result.map (·, bs))
    (h : ∀ a, result = .ok a → good a 0) : Follows room (ofExcept result) r good := by
  intro input position hposition
  refine ⟨result, position, rfl, Nat.le_refl _, hposition, ?_, fun _ => hr _⟩
  rw [Nat.sub_self]
  exact h

theorem follows_pure {a : α} (h : good a 0) :
    Follows room (pure a : Cursor ε α) (pure a) good := by
  change Follows room (ofExcept (.ok a)) (pure a) good
  apply follows_ofExcept
  · exact fun _ => rfl
  · rintro a' ⟨⟩
    exact h

theorem follows_fail (e : ε) : Follows room (fail e : Cursor ε α) (throw e) good := by
  apply follows_ofExcept
  · exact fun _ => rfl
  · intro a ha
    cases ha

theorem Follows.bind {f : α → Cursor ε β} {g : α → ByteReader ε β} {good' : β → ℕ → Prop}
    (hx : Follows room x r good)
    (hf : ∀ a n, good a n → Follows room (f a) (g a) fun b m => good' b (n + m)) :
    Follows room (x >>= f) (r >>= g) good' := by
  intro input position hposition
  obtain ⟨result, middle, hrun, hlow, hhigh, hgood, hr⟩ := hx input position hposition
  have hbind : (x >>= f) input position = match x input position with
      | .ok (.ok a, position') => f a input position'
      | .ok (.error e, position') => .ok (.error e, position')
      | .error stop => .error stop := rfl
  rw [hrun] at hbind
  cases result with
  | error e =>
    refine ⟨.error e, middle, hbind, hlow, hhigh, ?_, fun hroom => ?_⟩
    · intro b hb
      cases hb
    · rw [StateT.run_bind, hr hroom]
      rfl
  | ok a =>
    obtain ⟨result, position', hrun', hlow', hhigh', hgood', hr'⟩ :=
      hf a _ (hgood a rfl) input middle hhigh
    refine ⟨result, position', hbind.trans hrun', Nat.le_trans hlow hlow', hhigh', ?_, ?_⟩
    · intro b hb
      have hsum : middle - position + (position' - middle) = position' - position := by omega
      exact hsum ▸ hgood' b hb
    · intro hroom
      rw [StateT.run_bind, hr hroom]
      exact hr' hroom

theorem Follows.map {good' : β → ℕ → Prop} (hx : Follows room x r good) (f : α → β)
    (hf : ∀ a n, good a n → good' (f a) n) :
    Follows room (x >>= fun a => pure (f a)) (r >>= fun a => pure (f a)) good' :=
  hx.bind fun a n h => follows_pure (hf a n h)

/-- The bytes that the parts have passed, part by part. -/
theorem Follows.replicate (hx : Follows room x r good) (count : ℕ) :
    Follows room (replicate x count) (replicateRead r count)
      fun as n => ∃ ns, List.Forall₂ good as ns ∧ n = ns.sum := by
  induction count with
  | zero => exact follows_pure ⟨[], .nil, rfl⟩
  | succ count ih =>
    refine hx.bind fun a n ha => ih.map (a :: ·) fun as m has => ?_
    obtain ⟨ns, hall, rfl⟩ := has
    exact ⟨n :: ns, .cons ha hall, List.sum_cons.symm⟩

end Rules

end Cursor
end EasyConnection.Codec
