import Mathlib.Data.List.Basic

/-! # A stream that writers share under a lock

A writer waits for the lock, writes its message some elements at a time, and gives the lock back
when all of it has been accepted. As long as no write fails, the stream is at every moment the
messages in the order in which the lock was taken, up to what is still to be written of the last.
-/
namespace EasyConnection.Async

variable {ι μ β : Type}

inductive Writer (μ β : Type) where
  | idle
  | waiting (message : μ)
  | writing (left : List β)

structure SharedStream (ι μ β : Type) where
  writers : ι → Writer μ β
  holder : Option ι
  sent : List β
  /-- The messages for which the lock has been taken, in this order. -/
  begun : List μ

namespace SharedStream

def initial : SharedStream ι μ β := ⟨fun _ => .idle, none, [], []⟩

section Operations
variable [DecidableEq ι] (encode : μ → List β) (s : SharedStream ι μ β)

def setWriter (i : ι) (w : Writer μ β) : SharedStream ι μ β :=
  { s with writers := Function.update s.writers i w }

def submit (i : ι) (message : μ) : Option (SharedStream ι μ β) :=
  match s.writers i with
  | .idle => some (s.setWriter i (.waiting message))
  | _ => none

def lock (i : ι) : Option (SharedStream ι μ β) :=
  match s.holder, s.writers i with
  | none, .waiting message => some { s.setWriter i (.writing (encode message)) with
      holder := some i, begun := s.begun ++ [message] }
  | _, _ => none

/-- The stream accepts `n` more elements. -/
def accept (i : ι) (n : ℕ) : Option (SharedStream ι μ β) :=
  match s.writers i with
  | .writing left =>
    if 0 < n ∧ n ≤ left.length then
      some { s.setWriter i (.writing (left.drop n)) with sent := s.sent ++ left.take n }
    else none
  | _ => none

def release (i : ι) : SharedStream ι μ β := { s.setWriter i .idle with holder := none }

/-- Everything has been accepted. -/
def finish (i : ι) : Option (SharedStream ι μ β) :=
  match s.writers i with
  | .writing [] => some (s.release i)
  | _ => none

/-- The rest of the message is given up. -/
def fail (i : ι) : Option (SharedStream ι μ β) :=
  match s.writers i with
  | .writing _ => some (s.release i)
  | _ => none

variable {s} {i : ι} {w : Writer μ β}

@[simp] theorem setWriter_self : (s.setWriter i w).writers i = w := Function.update_self _ _ _

theorem setWriter_of_ne {j : ι} (h : j ≠ i) : (s.setWriter i w).writers j = s.writers j :=
  Function.update_of_ne h _ _

end Operations

section Whole
variable {encode : μ → List β} {s s' : SharedStream ι μ β} {i : ι}

variable (encode) in
/-- The stream is whole messages, up to what the holder has still to write. -/
structure Whole (s : SharedStream ι μ β) : Prop where
  alone : ∀ i left, s.writers i = .writing left → s.holder = some i
  free : s.holder = none → s.sent = s.begun.flatMap encode
  held : ∀ i, s.holder = some i → ∃ earlier message written left, s.begun = earlier ++ [message] ∧
    s.writers i = .writing left ∧ written ++ left = encode message ∧
      s.sent = earlier.flatMap encode ++ written

theorem whole_initial : Whole encode (initial : SharedStream ι μ β) :=
  ⟨fun _ _ h => (by cases h), fun _ => rfl, fun _ h => (by cases h)⟩

/-- A stream with something still to be written, or without. -/
theorem Whole.cut (h : Whole encode s) :
    (∃ earlier message written left, s.begun = earlier ++ [message] ∧ left ≠ [] ∧
      written ++ left = encode message ∧ s.sent = earlier.flatMap encode ++ written) ∨
    s.sent = s.begun.flatMap encode := by
  cases hholder : s.holder with
  | none => exact .inr (h.free hholder)
  | some i =>
    obtain ⟨earlier, message, written, left, hbegun, -, hencode, hsent⟩ := h.held i hholder
    by_cases hleft : left = []
    · right
      rw [hleft, List.append_nil] at hencode
      rw [hsent, hbegun, hencode, List.flatMap_append, List.flatMap_singleton]
    · exact .inl ⟨earlier, message, written, left, hbegun, hleft, hencode, hsent⟩

variable [DecidableEq ι]

/-- A writer that does not hold the lock goes on to something other than writing. -/
theorem Whole.setWriter (h : Whole encode s) {w : Writer μ β} (hold : ∀ left, s.writers i ≠ .writing left)
    (hnew : ∀ left, w ≠ .writing left) : Whole encode (s.setWriter i w) := by
  refine ⟨fun j left hj => ?_, h.free, fun j hj => ?_⟩
  · by_cases hji : j = i
    · subst hji
      rw [setWriter_self] at hj
      exact absurd hj (hnew left)
    · rw [setWriter_of_ne hji] at hj
      exact h.alone j left hj
  · obtain ⟨earlier, message, written, left, hbegun, hwriter, hrest⟩ := h.held j hj
    have hji : j ≠ i := by
      rintro rfl
      exact hold left hwriter
    refine ⟨earlier, message, written, left, hbegun, ?_, hrest⟩
    rw [setWriter_of_ne hji]
    exact hwriter

theorem Whole.submit (h : Whole encode s) {message : μ} (hs : s.submit i message = some s') :
    Whole encode s' := by
  unfold SharedStream.submit at hs
  split at hs
  · next hidle =>
    obtain rfl := Option.some.inj hs
    refine h.setWriter (fun left => ?_) (fun left hw => by cases hw)
    rw [hidle]
    rintro ⟨⟩
  · cases hs

/-- The writer that takes the lock, or goes on with it, is the only one that writes. -/
theorem Whole.alone_update (h : Whole encode s) (hholder : s.holder = none ∨ s.holder = some i)
    {w : Writer μ β} {j : ι} {left : List β} (hj : Function.update s.writers i w j = .writing left) :
    j = i := by
  by_contra hji
  rw [Function.update_of_ne hji] at hj
  rcases hholder with hnone | hsome
  · exact Option.some_ne_none j ((h.alone j left hj).symm.trans hnone)
  · exact hji (Option.some.inj ((h.alone j left hj).symm.trans hsome))

theorem Whole.lock (h : Whole encode s) (hs : s.lock encode i = some s') : Whole encode s' := by
  unfold SharedStream.lock at hs
  split at hs
  · next message hholder hwaiting =>
    obtain rfl := Option.some.inj hs
    refine ⟨fun j left hj => ?_, fun hnone => (by cases hnone), fun j hj => ?_⟩
    · rw [h.alone_update (.inl hholder) hj]
    · obtain rfl := Option.some.inj hj
      exact ⟨s.begun, message, [], encode message, rfl, Function.update_self _ _ _, rfl,
        by rw [List.append_nil, ← h.free hholder]; rfl⟩
  · cases hs

theorem Whole.accept {n : ℕ} (h : Whole encode s) (hs : s.accept i n = some s') :
    Whole encode s' := by
  unfold SharedStream.accept at hs
  split at hs
  · next left hwriter =>
    split_ifs at hs with hn
    obtain rfl := Option.some.inj hs
    have hholder := h.alone i left hwriter
    obtain ⟨earlier, message, written, left', hbegun, hwriter', hencode, hsent⟩ := h.held i hholder
    obtain rfl : left' = left := Writer.writing.inj (hwriter'.symm.trans hwriter)
    refine ⟨fun j rest hj => ?_, fun hnone => ?_, fun j hj => ?_⟩
    · rw [h.alone_update (.inr hholder) hj]
      exact hholder
    · exact absurd (hholder.symm.trans hnone) (Option.some_ne_none i)
    · obtain rfl : i = j := Option.some.inj (hholder.symm.trans hj)
      refine ⟨earlier, message, written ++ left'.take n, left'.drop n, hbegun,
        Function.update_self _ _ _, ?_, ?_⟩
      · rw [List.append_assoc, List.take_append_drop, hencode]
      · rw [← List.append_assoc, ← hsent]
  · cases hs

theorem Whole.finish (h : Whole encode s) (hs : s.finish i = some s') : Whole encode s' := by
  unfold SharedStream.finish at hs
  split at hs
  · next hwriter =>
    obtain rfl := Option.some.inj hs
    have hholder := h.alone i [] hwriter
    obtain ⟨earlier, message, written, left, hbegun, hwriter', hencode, hsent⟩ := h.held i hholder
    obtain rfl : left = [] := Writer.writing.inj (hwriter'.symm.trans hwriter)
    refine ⟨fun j left hj => ?_, fun _ => ?_, fun j hj => by cases hj⟩
    · obtain rfl := h.alone_update (.inr hholder) hj
      change (s.setWriter j .idle).writers j = .writing left at hj
      rw [setWriter_self] at hj
      cases hj
    · rw [List.append_nil] at hencode
      change s.sent = s.begun.flatMap encode
      rw [hsent, hbegun, hencode, List.flatMap_append, List.flatMap_singleton]
  · cases hs

end Whole

section Every
variable [DecidableEq ι] {encode : μ → List β} {P Q : μ → Prop} {s s' : SharedStream ι μ β} {i : ι}

/-- All messages that wait, are written or have been written are in `P`. -/
structure Every (P : μ → Prop) (s : SharedStream ι μ β) : Prop where
  waiting : ∀ i message, s.writers i = .waiting message → P message
  begun : ∀ message ∈ s.begun, P message

omit [DecidableEq ι] in
theorem every_initial : Every P (initial : SharedStream ι μ β) :=
  ⟨fun _ _ h => (by cases h), fun _ h => (by cases h)⟩

omit [DecidableEq ι] in
theorem Every.mono (h : Every P s) (hPQ : ∀ message, P message → Q message) : Every Q s :=
  ⟨fun i message hi => hPQ message (h.waiting i message hi),
    fun message hm => hPQ message (h.begun message hm)⟩

theorem Every.setWriter (h : Every P s) {w : Writer μ β} (hw : ∀ message, w = .waiting message → P message) :
    Every P (s.setWriter i w) := by
  refine ⟨fun j message hj => ?_, h.begun⟩
  by_cases hji : j = i
  · subst hji
    rw [setWriter_self] at hj
    exact hw message hj
  · rw [setWriter_of_ne hji] at hj
    exact h.waiting j message hj

theorem Every.submit (h : Every P s) {message : μ} (hP : P message)
    (hs : s.submit i message = some s') : Every P s' := by
  unfold SharedStream.submit at hs
  split at hs
  · obtain rfl := Option.some.inj hs
    refine h.setWriter fun m hm => ?_
    obtain rfl := Writer.waiting.inj hm
    exact hP
  · cases hs

theorem Every.lock (h : Every P s) (hs : s.lock encode i = some s') : Every P s' := by
  unfold SharedStream.lock at hs
  split at hs
  · next message _ hwaiting =>
    obtain rfl := Option.some.inj hs
    have hset := h.setWriter (i := i) (w := .writing (encode message)) (fun _ hm => by cases hm)
    refine ⟨hset.waiting, fun m hm => ?_⟩
    rcases List.mem_append.1 hm with hm | hm
    · exact h.begun m hm
    · rw [List.mem_singleton.1 hm]
      exact h.waiting i message hwaiting
  · cases hs

theorem Every.accept {n : ℕ} (h : Every P s) (hs : s.accept i n = some s') : Every P s' := by
  unfold SharedStream.accept at hs
  split at hs
  · next left _ =>
    split_ifs at hs
    obtain rfl := Option.some.inj hs
    have hset := h.setWriter (i := i) (w := .writing (left.drop n)) (fun _ hm => by cases hm)
    exact ⟨hset.waiting, h.begun⟩
  · cases hs

theorem Every.finish (h : Every P s) (hs : s.finish i = some s') : Every P s' := by
  unfold SharedStream.finish at hs
  split at hs
  · obtain rfl := Option.some.inj hs
    have hset := h.setWriter (i := i) (w := .idle) (fun _ hm => by cases hm)
    exact ⟨hset.waiting, h.begun⟩
  · cases hs

end Every

section Sent
variable [DecidableEq ι] {encode : μ → List β} {s s' : SharedStream ι μ β} {i : ι}

theorem submit_sent {message : μ} (h : s.submit i message = some s') : s.sent <+: s'.sent := by
  unfold submit at h
  split at h
  · rw [← Option.some.inj h]
    exact List.prefix_refl _
  · cases h

theorem lock_sent (h : s.lock encode i = some s') : s.sent <+: s'.sent := by
  unfold lock at h
  split at h
  · rw [← Option.some.inj h]
    exact List.prefix_refl _
  · cases h

theorem accept_sent {n : ℕ} (h : s.accept i n = some s') : s.sent <+: s'.sent := by
  unfold accept at h
  split at h
  · split_ifs at h
    rw [← Option.some.inj h]
    exact List.prefix_append _ _
  · cases h

theorem finish_sent (h : s.finish i = some s') : s.sent <+: s'.sent := by
  unfold finish at h
  split at h
  · rw [← Option.some.inj h]
    exact List.prefix_refl _
  · cases h

end Sent

end SharedStream
end EasyConnection.Async
