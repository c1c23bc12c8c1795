import Mathlib.Data.List.Basic

/-! # Futures that read exact byte counts

A future is the tree of what it still has to do. A suspension point is a `read` that waits
for more bytes or a `write` that waits for the transport; everything else happens at once.
`σ` is the state that the future shares with its creator: it survives when the future is
dropped, while the bytes of an unfinished `read` do not. The label of a `read` names the
suspension point in the program text.
-/
namespace EasyConnection.Async

inductive Reader (τ σ α : Type*) where
  | done (a : α)
  | read (label : τ) (n : ℕ) (eof : Reader τ σ α) (k : List UInt8 → Reader τ σ α)
  | write (out : List UInt8) (k : Bool → Reader τ σ α)
  | get (k : σ → Reader τ σ α)
  | set (s : σ) (next : Reader τ σ α)

namespace Reader
variable {τ σ α : Type*}

/-- Run up to the next suspension point or to the end. -/
def settle : Reader τ σ α → σ → σ × Reader τ σ α
  | .done a, s => (s, .done a)
  | .read _ 0 _ k, s => (k []).settle s
  | .read label (n + 1) eof k, s => (s, .read label (n + 1) eof k)
  | .write [] k, s => (k true).settle s
  | .write (b :: out) k, s => (s, .write (b :: out) k)
  | .get k, s => (k s).settle s
  | .set s next, _ => next.settle s

/-- Run to the end on a stream that holds `w` and then ends. Every write succeeds. -/
def feed : Reader τ σ α → σ → List UInt8 → α × σ × List UInt8
  | .done a, s, w => (a, s, w)
  | .read _ n eof k, s, w => if w.length < n then eof.feed s [] else (k (w.take n)).feed s (w.drop n)
  | .write _ k, s, w => (k true).feed s w
  | .get k, s, w => (k s).feed s w
  | .set s next, _, w => next.feed s w

variable {k : List UInt8 → Reader τ σ α} {w got : List UInt8} {eof : Reader τ σ α} {s : σ} {n : ℕ}

theorem feed_read_append {label : τ} (hn : got.length = n) :
    (Reader.read label n eof k).feed s (got ++ w) = (k got).feed s w := by
  have hlong : ¬ (got ++ w).length < n := by
    rw [List.length_append]
    omega
  rw [feed, if_neg hlong, ← hn, List.take_left, List.drop_left]

/-- As `feed`, with what is written. -/
def exchange : Reader τ σ α → σ → List UInt8 → (α × σ × List UInt8) × List (List UInt8)
  | .done a, s, w => ((a, s, w), [])
  | .read _ n eof k, s, w =>
    if w.length < n then eof.exchange s [] else (k (w.take n)).exchange s (w.drop n)
  | .write out k, s, w => (((k true).exchange s w).1, out :: ((k true).exchange s w).2)
  | .get k, s, w => (k s).exchange s w
  | .set s next, _, w => next.exchange s w

theorem exchange_read_append {label : τ} (hn : got.length = n) :
    (Reader.read label n eof k).exchange s (got ++ w) = (k got).exchange s w := by
  have hlong : ¬ (got ++ w).length < n := by
    rw [List.length_append]
    omega
  rw [exchange, if_neg hlong, ← hn, List.take_left, List.drop_left]

/-- The future is at a suspension point, where it has come to `got`. -/
def Waits (got : List UInt8) : Reader τ σ α → Prop
  | .read _ n _ _ => got.length < n
  | .write out _ => out ≠ []
  | _ => False

/-- The bytes of the stream that it holds there. -/
def held (got : List UInt8) : Reader τ σ α → List UInt8
  | .read _ _ _ _ => got
  | _ => []

theorem held_nil (r : Reader τ σ α) : r.held [] = [] := by
  cases r <;> rfl

theorem settle_waits (r : Reader τ σ α) (s : σ) :
    (∃ a, (r.settle s).2 = .done a) ∨ (r.settle s).2.Waits [] := by
  induction r generalizing s with
  | done a => exact .inl ⟨a, rfl⟩
  | read label n eof k _ ih =>
    cases n with
    | zero => exact ih [] s
    | succ n => exact .inr n.succ_pos
  | write out k ih =>
    cases out with
    | nil => exact ih true s
    | cons b out => exact .inr nofun
  | get k ih => exact ih s s
  | set s' next ih => exact ih s'

/-- The remaining bytes `w` of the stream let the future end in `post`. `rest` holds of the
shared state and of the bytes not yet taken at every `write` and at every `read` whose label
is in `safe`; `short` holds of what is left when a `read` asks for more; a stream that ends
early ends the future with a value in `cut`. -/
def Expect (safe : τ → Prop) (rest : σ → List UInt8 → Prop) (short : List UInt8 → Prop)
    (cut : α → Prop) (post : σ → α → List UInt8 → Prop) : Reader τ σ α → σ → List UInt8 → Prop
  | .done a, s, w => post s a w
  | .read label n eof k, s, w => (safe label → rest s w) ∧ (∃ a, eof = .done a ∧ cut a) ∧
      (w.length < n → short w) ∧
      (n ≤ w.length → (k (w.take n)).Expect safe rest short cut post s (w.drop n))
  | .write _ k, s, w => rest s w ∧ ∀ ok, (k ok).Expect safe rest short cut post s w
  | .get k, s, w => (k s).Expect safe rest short cut post s w
  | .set s next, _, w => next.Expect safe rest short cut post s w

variable {safe : τ → Prop} {rest : σ → List UInt8 → Prop} {short : List UInt8 → Prop}
  {cut : α → Prop} {post : σ → α → List UInt8 → Prop}

/-- What a future is expected to do does not change while it runs without suspending. -/
theorem Expect.settle {r : Reader τ σ α} (h : r.Expect safe rest short cut post s w) :
    (r.settle s).2.Expect safe rest short cut post (r.settle s).1 w := by
  induction r generalizing s with
  | done a => exact h
  | read label n eof k _ ih =>
    cases n with
    | zero =>
      obtain ⟨_, _, _, hk⟩ := h
      exact ih [] (by simpa using hk (Nat.zero_le _))
    | succ n => exact h
  | write out k ih =>
    cases out with
    | nil => exact ih true (h.2 true)
    | cons b out => exact h
  | get k ih => exact ih s h
  | set s' next ih => exact ih h

/-- Bytes taken from the front of the stream into a finished `read`. -/
theorem Expect.read_append {label : τ} (hn : got.length = n)
    (h : (Reader.read label n eof k).Expect safe rest short cut post s (got ++ w)) :
    (k got).Expect safe rest short cut post s w := by
  obtain ⟨_, _, _, hk⟩ := h
  have hlen : n ≤ (got ++ w).length := by simp [hn]
  simpa [← hn] using hk hlen

/-- A `read` whose label is not safe, and whose bytes stand at the front of the stream. -/
theorem Expect.of_append {label : τ} {a : α} (hn : got.length = n) (hlabel : ¬ safe label)
    (ha : cut a) (h : (k got).Expect safe rest short cut post s w) :
    (Reader.read label n (.done a) k).Expect safe rest short cut post s (got ++ w) := by
  refine ⟨fun hs => absurd hs hlabel, ⟨a, rfl, ha⟩, fun hshort => ?_, fun _ => ?_⟩
  · rw [List.length_append] at hshort
    omega
  · simpa [← hn] using h

end Reader

end EasyConnection.Async
