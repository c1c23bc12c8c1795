import EasyConnection.Codec.Chunks

/-! # A buffered reader over a byte stream

The reader asks the stream for as much as its buffer holds and gets what has arrived. What it
was given and nobody has asked it for stays in its buffer, and is gone when the reader is
turned back into the stream.
-/
namespace EasyConnection.Async
open Codec

section Delimiter
variable {α : Type*} [DecidableEq α]

/-- Cut a list after the first `d`. -/
def cutAfter (d : α) : List α → Option (List α × List α)
  | [] => none
  | b :: l => if b = d then some ([b], l) else (cutAfter d l).map fun p => (b :: p.1, p.2)

variable {l : List α} {d : α}

theorem cutAfter_some {line rest : List α} (h : cutAfter d l = some (line, rest)) :
    l = line ++ rest ∧ line ≠ [] := by
  induction l generalizing line with
  | nil => cases h
  | cons b l ih =>
    rw [cutAfter] at h
    split_ifs at h with hb
    · cases h
      exact ⟨rfl, by simp⟩
    · obtain ⟨p, hp, heq⟩ := Option.map_eq_some_iff.1 h
      cases heq
      exact ⟨congrArg (b :: ·) (ih hp).1, by simp⟩

theorem cutAfter_append {line rest : List α} (h : cutAfter d l = some (line, rest)) (m : List α) :
    cutAfter d (l ++ m) = some (line, rest ++ m) := by
  induction l generalizing line with
  | nil => cases h
  | cons b l ih =>
    rw [cutAfter] at h
    rw [List.cons_append, cutAfter]
    split_ifs at h ⊢ with hb
    · cases h
      rfl
    · obtain ⟨p, hp, heq⟩ := Option.map_eq_some_iff.1 h
      cases heq
      rw [ih hp, Option.map_some]

theorem cutAfter_append_of_none (h : cutAfter d l = none) (m : List α) :
    cutAfter d (l ++ m) = (cutAfter d m).map fun p => (l ++ p.1, p.2) := by
  induction l with
  | nil => simp
  | cons b l ih =>
    rw [cutAfter] at h
    rw [List.cons_append, cutAfter]
    split_ifs at h ⊢ with hb
    rw [ih (Option.map_eq_none_iff.1 h), Option.map_map]
    rfl

theorem cutAfter_line {body : List α} (hbody : d ∉ body) (rest : List α) :
    cutAfter d (body ++ [d] ++ rest) = some (body ++ [d], rest) := by
  induction body with
  | nil => simp [cutAfter]
  | cons b body ih =>
    rw [List.mem_cons, not_or] at hbody
    simp only [List.cons_append, cutAfter, if_neg (Ne.symm hbody.1)]
    rw [ih hbody.2, Option.map_some]

end Delimiter

/-- What the reader holds, and what the reads to come return until the end of the stream. -/
structure BufReader where
  buf : List UInt8
  reads : List (List UInt8)

namespace BufReader

/-- A new reader with room for `cap` bytes. The bytes arrive in segments; a read returns no more
than one of them. -/
def ofSegments (cap : ℕ) (segments : List (List UInt8)) : BufReader :=
  ⟨[], segments.flatMap (chunks cap)⟩

/-- The bytes that the reader has still to return. -/
def pending (r : BufReader) : List UInt8 := r.buf ++ r.reads.flatten

/-- Give up the reader and what it holds. -/
def intoInner (r : BufReader) : List (List UInt8) := r.reads

/-- Fill an empty buffer and take from it, up to the delimiter or the end of the stream. -/
def readUntilFrom (d : UInt8) (buf : List UInt8) (reads : List (List UInt8)) :
    List UInt8 × BufReader :=
  match cutAfter d buf, reads with
  | some (line, rest), reads => (line, ⟨rest, reads⟩)
  | none, [] => (buf, ⟨[], []⟩)
  | none, r :: rs =>
    let p := readUntilFrom d r rs
    (buf ++ p.1, p.2)

def readUntil (d : UInt8) (r : BufReader) : List UInt8 × BufReader := readUntilFrom d r.buf r.reads

theorem readUntilFrom_eq (d : UInt8) (buf : List UInt8) (reads : List (List UInt8)) :
    ((readUntilFrom d buf reads).1, (readUntilFrom d buf reads).2.pending) =
      (cutAfter d (buf ++ reads.flatten)).getD (buf ++ reads.flatten, []) := by
  fun_induction readUntilFrom d buf reads with
  | case1 buf line rest reads hcut =>
    rw [cutAfter_append hcut]
    rfl
  | case2 buf hcut => simp [hcut, pending]
  | case3 buf r rs hcut p ih =>
    rw [List.flatten_cons, cutAfter_append_of_none hcut]
    cases hnext : cutAfter d (r ++ rs.flatten) with
    | none =>
      rw [hnext, Option.getD_none] at ih
      simp [p, (Prod.mk.inj ih).1, (Prod.mk.inj ih).2]
    | some q =>
      rw [hnext, Option.getD_some] at ih
      simp [p, (Prod.mk.inj ih).1, (Prod.mk.inj ih).2]

/-- What is read depends on the bytes only, not on how they arrive. -/
theorem readUntil_eq (d : UInt8) (r : BufReader) :
    ((r.readUntil d).1, (r.readUntil d).2.pending) =
      (cutAfter d r.pending).getD (r.pending, []) := readUntilFrom_eq d r.buf r.reads

variable {r : BufReader}

theorem readUntil_line {d : UInt8} {body rest : List UInt8} (hbody : d ∉ body)
    (hr : r.pending = body ++ [d] ++ rest) :
    (r.readUntil d).1 = body ++ [d] ∧ (r.readUntil d).2.pending = rest := by
  have heq := readUntil_eq d r
  rw [hr, cutAfter_line hbody, Option.getD_some] at heq
  exact Prod.mk.inj heq

theorem readUntil_append (d : UInt8) (r : BufReader) :
    (r.readUntil d).1 ++ (r.readUntil d).2.pending = r.pending := by
  have heq := readUntil_eq d r
  cases hcut : cutAfter d r.pending with
  | none =>
    rw [hcut, Option.getD_none] at heq
    rw [(Prod.mk.inj heq).1, (Prod.mk.inj heq).2, List.append_nil]
  | some p =>
    rw [hcut, Option.getD_some] at heq
    rw [(Prod.mk.inj heq).1, (Prod.mk.inj heq).2]
    exact (cutAfter_some hcut).1.symm

/-- The reader has taken the reads before, and has returned some bytes of the last of them when it
holds the others. -/
def Fed (all : List (List UInt8)) (r : BufReader) : Prop :=
  ∃ past, all = past ++ r.reads ∧
    (r.buf = [] ∨ ∃ earlier taken, past = earlier ++ [taken ++ r.buf] ∧ taken ≠ [])

variable {all : List (List UInt8)}

theorem readUntilFrom_fed (d : UInt8) (buf : List UInt8) (reads : List (List UInt8)) :
    ∀ past taken, all = past ++ [taken ++ buf] ++ reads →
      Fed all (readUntilFrom d buf reads).2 := by
  fun_induction readUntilFrom d buf reads with
  | case1 buf line rest reads hcut =>
    intro past taken hall
    obtain ⟨rfl, hline⟩ := cutAfter_some hcut
    refine ⟨_, hall, .inr ⟨past, taken ++ line, ?_, by simp [hline]⟩⟩
    rw [List.append_assoc taken]
  | case2 buf hcut =>
    intro past taken hall
    exact ⟨past ++ [taken ++ buf], hall, .inl rfl⟩
  | case3 buf r rs hcut p ih =>
    intro past taken hall
    exact ih (past ++ [taken ++ buf]) [] (by simpa using hall)

theorem Fed.readUntil (h : Fed all r) (d : UInt8) : Fed all (r.readUntil d).2 := by
  obtain ⟨past, hall, hbuf | ⟨earlier, taken, hpast, _⟩⟩ := h
  · rw [BufReader.readUntil, hbuf, readUntilFrom.eq_def]
    cases hreads : r.reads with
    | nil =>
      refine ⟨past, ?_, .inl rfl⟩
      rw [hall, hreads]
      rfl
    | cons s ss => exact readUntilFrom_fed d s ss past [] (by simpa [hreads] using hall)
  · rw [hpast] at hall
    exact readUntilFrom_fed d r.buf r.reads earlier taken hall

theorem fed_ofSegments (cap : ℕ) (segments : List (List UInt8)) :
    Fed (ofSegments cap segments).reads (ofSegments cap segments) := ⟨[], rfl, .inl rfl⟩

theorem pending_ofSegments (cap : ℕ) (hcap : 0 < cap) (segments : List (List UInt8)) :
    (ofSegments cap segments).pending = segments.flatten := by
  induction segments with
  | nil => rfl
  | cons s ss ih =>
    simp only [pending, ofSegments, List.flatMap_cons, List.flatten_append, flatten_chunks hcap,
      List.nil_append, List.flatten_cons] at ih ⊢
    rw [ih]

theorem flatten_take_le (all : List (List UInt8)) {k m : ℕ} (h : k ≤ m) :
    (all.take k).flatten.length ≤ (all.take m).flatten.length := by
  obtain ⟨i, rfl⟩ := Nat.exists_eq_add_of_le h
  rw [List.take_add, List.flatten_append, List.length_append]
  exact Nat.le_add_right _ _

/-- No read ends inside another. -/
theorem flatten_take_ne (earlier reads : List (List UInt8)) {taken held : List UInt8}
    (htaken : taken ≠ []) (hheld : held ≠ []) (k : ℕ) :
    ((earlier ++ [taken ++ held] ++ reads).take k).flatten ≠ earlier.flatten ++ taken := by
  intro heq
  have hlen := congrArg List.length heq
  have hpos := List.length_pos_of_ne_nil htaken
  have hpos' := List.length_pos_of_ne_nil hheld
  rw [List.length_append] at hlen
  rcases Nat.lt_or_ge earlier.length k with hlt | hge
  · have hle := flatten_take_le (earlier ++ [taken ++ held] ++ reads) (Nat.succ_le_of_lt hlt)
    have hlong : ((earlier ++ [taken ++ held] ++ reads).take (earlier.length + 1)).flatten.length =
        earlier.flatten.length + (taken.length + held.length) := by
      simp [List.take_append, List.take_of_length_le]
    rw [hlong] at hle
    omega
  · have hle := flatten_take_le (earlier ++ [taken ++ held] ++ reads) hge
    have hshort : ((earlier ++ [taken ++ held] ++ reads).take earlier.length).flatten.length =
        earlier.flatten.length := by simp
    omega

/-- The stream has all that the reader has not returned if and only if what it has returned ends
where one of its reads does. -/
theorem Fed.intoInner_eq_iff (h : Fed all r) {returned : List UInt8}
    (hall : all.flatten = returned ++ r.pending) :
    r.intoInner.flatten = r.pending ↔ ∃ k, (all.take k).flatten = returned := by
  obtain ⟨past, rfl, hbuf⟩ := h
  constructor
  · intro heq
    refine ⟨past.length, ?_⟩
    rw [List.take_left, ← List.append_left_inj r.pending, ← hall, ← heq, List.flatten_append]
    rfl
  · rintro ⟨k, hk⟩
    have hnil : r.buf = [] := by
      rcases hbuf with hbuf | ⟨earlier, taken, rfl, htaken⟩
      · exact hbuf
      · by_contra hheld
        refine flatten_take_ne earlier r.reads htaken hheld k (hk.trans ?_)
        rw [← List.append_left_inj r.pending, ← hall, pending]
        simp
    rw [pending, hnil]
    rfl

end BufReader

end EasyConnection.Async
