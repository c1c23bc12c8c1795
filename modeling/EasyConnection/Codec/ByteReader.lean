import Mathlib.Data.List.Basic

/-! # Readers of a byte sequence

A reader takes bytes off the front of its input, or fails. `Reads x a bs` says that `x` reads `a`
from `bs`, whatever follows; the rules put the bytes of a composed reader together from those of
its parts.
-/
namespace EasyConnection.Codec

abbrev ByteReader (ε : Type) := StateT (List UInt8) (Except ε)

section Readers
variable {ε α : Type}

def takeBytes (e : ε) (count : ℕ) : ByteReader ε (List UInt8) := fun input =>
  if count ≤ input.length then .ok (input.take count, input.drop count) else .error e

/-- Read a number of times. -/
def replicateRead (x : ByteReader ε α) : ℕ → ByteReader ε (List α)
  | 0 => pure []
  | n + 1 => do
    let a ← x
    let rest ← replicateRead x n
    return a :: rest

end Readers

section Reads
variable {ε α β : Type} {x : ByteReader ε α} {a : α} {bs cs : List UInt8}

def Reads (x : ByteReader ε α) (a : α) (bs : List UInt8) : Prop :=
  ∀ rest, x.run (bs ++ rest) = .ok (a, rest)

theorem reads_pure (a : α) : Reads (pure a : ByteReader ε α) a [] := fun _ => rfl

theorem Reads.bind (hx : Reads x a bs) {f : α → ByteReader ε β} {b : β} (hf : Reads (f a) b cs) :
    Reads (x >>= f) b (bs ++ cs) := by
  intro rest
  rw [StateT.run_bind, List.append_assoc, hx]
  exact hf rest

theorem Reads.bind_pure (hx : Reads x a bs) (g : α → β) :
    Reads (x >>= fun a => pure (g a)) (g a) bs := by
  have hbind : Reads (x >>= fun a => pure (g a)) (g a) (bs ++ []) := hx.bind (reads_pure (g a))
  rwa [List.append_nil] at hbind

theorem Reads.map (hx : Reads x a bs) (f : α → β) : Reads (f <$> x) (f a) bs := by
  intro rest
  rw [StateT.run_map, hx]
  rfl

theorem reads_takeBytes (e : ε) (bs : List UInt8) : Reads (takeBytes e bs.length) bs bs := by
  intro rest
  have hlength : bs.length ≤ (bs ++ rest).length := by simp
  change (if bs.length ≤ (bs ++ rest).length then _ else _) = _
  rw [if_pos hlength, List.take_left, List.drop_left]

/-- One part after another. -/
theorem reads_replicateRead {as : List α} {parts : List (List UInt8)}
    (h : List.Forall₂ (Reads x) as parts) :
    Reads (replicateRead x as.length) as parts.flatten := by
  induction h with
  | nil => exact reads_pure []
  | @cons a part as parts hhead _ ih =>
    exact hhead.bind (ih.bind_pure (a :: ·))

/-- The whole of the input is read. -/
theorem Reads.run_eq (h : Reads x a bs) : x.run bs = .ok (a, []) := by
  have hrun := h []
  rwa [List.append_nil] at hrun

end Reads

end EasyConnection.Codec
