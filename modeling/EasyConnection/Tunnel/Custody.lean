import EasyConnection.Tunnel.Protocol

/-! # Who looks after a session

Everything that runs belongs to a session, and every session is looked after by the call that
opens it, by the slot, by the call that closes it, or by nobody, and then nothing of it runs.
Each access to the shared state moves one session from one keeper to another.
-/
namespace EasyConnection.Tunnel
open Async Config Function

inductive Custody (ι : Type) where
  | nobody
  | opener (live : Live)
  | slot (s : ActiveSession ι)
  | closer (d : ι) (live : Live)

def Custody.live {ι : Type} : Custody ι → Live
  | .nobody => .off
  | .opener live => live
  | .slot s => s.live
  | .closer _ live => live

variable {ι : Type}

/-- The session that a call looks after in its stage, and how. -/
def Stage.held (me : ι) : Stage ι → Option (ι × Custody ι)
  | .opening live _ => some (me, .opener live)
  | .releasing (some (j, live)) _ => some (j, .closer me live)
  | _ => none

/-- The custody names the call. -/
theorem Stage.held_eq {me j : ι} {stage : Stage ι} {c : Custody ι}
    (h : stage.held me = some (j, c)) :
    (∃ live, c = .opener live ∧ j = me) ∨ ∃ live, c = .closer me live := by
  cases stage with
  | opening live ready =>
    cases h
    exact .inl ⟨live, rfl, rfl⟩
  | releasing held cleared =>
    cases held with
    | none => cases h
    | some p =>
      cases h
      exact .inr ⟨p.2, rfl⟩
  | checking => cases h
  | stored => cases h
  | closing => cases h

/-- The keepers are as the stages of the calls and the world tell. -/
structure Kept (custody : ι → Custody ι) (stages : ι → Stage ι) (w : World ι) : Prop where
  live : ∀ j, w.live j = (custody j).live
  slot : ∀ j s, custody j = .slot s ↔ w.active = some s ∧ s.id = j
  held : ∀ i j c, (stages i).held i = some (j, c) → custody j = c
  known : ∀ j, custody j = .nobody ∨ (∃ s, custody j = .slot s) ∨
    ∃ i, (stages i).held i = some (j, custody j)

namespace Kept
variable {custody : ι → Custody ι} {stages : ι → Stage ι} {w w' : World ι} {i j : ι}

theorem congr (h : Kept custody stages w) (hlive : w'.live = w.live)
    (hactive : w'.active = w.active) : Kept custody stages w' where
  live j := by rw [hlive, h.live]
  slot j s := by rw [hactive, h.slot]
  held := h.held
  known := h.known

/-- A session has one keeper. -/
theorem unique (h : Kept custody stages w) {i' : ι} {c c' : Custody ι}
    (hi : (stages i).held i = some (j, c)) (hi' : (stages i').held i' = some (j, c')) : i' = i := by
  have hc : c' = c := (h.held i' j c' hi').symm.trans (h.held i j c hi)
  subst hc
  rcases Stage.held_eq hi with ⟨live, rfl, rfl⟩ | ⟨live, rfl⟩
  · rcases Stage.held_eq hi' with ⟨live', _, hj⟩ | ⟨live', hc⟩
    · exact hj.symm
    · cases hc
  · rcases Stage.held_eq hi' with ⟨live', hc, _⟩ | ⟨live', hc⟩
    · cases hc
    · cases hc
      rfl

/-- Nobody else looks after a session that is in the slot or free. -/
theorem not_held (h : Kept custody stages w) {c : Custody ι}
    (hj : custody j = .nobody ∨ ∃ s, custody j = .slot s) : (stages i).held i ≠ some (j, c) := by
  intro hi
  have hc := h.held i j c hi
  rcases Stage.held_eq hi with ⟨live, rfl, rfl⟩ | ⟨live, rfl⟩ <;>
    rcases hj with hj | ⟨s, hj⟩ <;> rw [hc] at hj <;> cases hj

section Move
variable [DecidableEq ι] {c : Custody ι} {stage : Stage ι}

/-- One call changes its stage, and one session its keeper. -/
theorem move (h : Kept custody stages w)
    (hlive : w'.live = update w.live j c.live)
    (hslot : ∀ s, c = .slot s ↔ w'.active = some s ∧ s.id = j)
    (hslots : ∀ s, s.id ≠ j → (w'.active = some s ↔ w.active = some s))
    (hold : ∀ k c', (stages i).held i = some (k, c') → k = j)
    (hnew : ∀ k c', stage.held i = some (k, c') → k = j ∧ c' = c)
    (hkeeper : c = .nobody ∨ (∃ s, c = .slot s) ∨ stage.held i = some (j, c))
    (hothers : ∀ i' c', i' ≠ i → (stages i').held i' ≠ some (j, c')) :
    Kept (update custody j c) (update stages i stage) w' where
  live k := by
    rw [hlive]
    by_cases hk : k = j
    · subst hk
      rw [update_self, update_self]
    · rw [update_of_ne hk, update_of_ne hk, h.live]
  slot k s := by
    by_cases hk : k = j
    · subst hk
      rw [update_self, hslot]
    · rw [update_of_ne hk, h.slot]
      constructor
      · rintro ⟨hs, rfl⟩
        exact ⟨(hslots s hk).2 hs, rfl⟩
      · rintro ⟨hs, rfl⟩
        exact ⟨(hslots s hk).1 hs, rfl⟩
  held i' k c' hi' := by
    by_cases hi : i' = i
    · subst hi
      rw [update_self] at hi'
      obtain ⟨rfl, rfl⟩ := hnew k c' hi'
      rw [update_self]
    · rw [update_of_ne hi] at hi'
      have hk : k ≠ j := by
        rintro rfl
        exact hothers i' c' hi hi'
      rw [update_of_ne hk]
      exact h.held i' k c' hi'
  known k := by
    by_cases hk : k = j
    · subst hk
      rw [update_self]
      refine hkeeper.imp_right (Or.imp_right fun hi => ⟨i, ?_⟩)
      rw [update_self]
      exact hi
    · rw [update_of_ne hk]
      refine (h.known k).imp_right (Or.imp_right ?_)
      rintro ⟨i', hi'⟩
      have hi : i' ≠ i := by
        rintro rfl
        exact hk (hold k _ hi')
      exact ⟨i', by rwa [update_of_ne hi]⟩

/-- A call looks after the same session in its new stage. -/
theorem same (h : Kept custody stages w) (hsame : stage.held i = (stages i).held i) :
    Kept custody (update stages i stage) w := by
  have hheld (i' : ι) : (update stages i stage i').held i' = (stages i').held i' := by
    by_cases hi : i' = i
    · subst hi
      rw [update_self, hsame]
    · rw [update_of_ne hi]
  refine ⟨h.live, h.slot, fun i' k c' hi' => ?_, fun k => ?_⟩
  · rw [hheld] at hi'
    exact h.held i' k c' hi'
  · simp only [hheld]
    exact h.known k

/-- A call starts or stops a part of the session that it looks after. -/
theorem touch (h : Kept custody stages w) {c' : Custody ι} (hold : (stages i).held i = some (j, c'))
    (hnew : stage.held i = some (j, c)) (hlive : w'.live = update w.live j c.live)
    (hactive : w'.active = w.active) :
    Kept (update custody j c) (update stages i stage) w' := by
  have hslot (s : ActiveSession ι) : custody j ≠ .slot s := fun hs =>
    h.not_held (.inr ⟨s, hs⟩) hold
  refine h.move hlive (fun s => ?_) (fun s _ => by rw [hactive]) (fun k c' hk => ?_)
    (fun k c' hk => ?_) (.inr (.inr hnew)) fun i' c' hi hi' => hi (h.unique hold hi')
  · rw [hactive, ← h.slot]
    constructor
    · rintro rfl
      rcases Stage.held_eq hnew with ⟨live, hc, _⟩ | ⟨live, hc⟩ <;> cases hc
    · exact fun hs => absurd hs (hslot s)
  · rw [hold] at hk
    cases hk
    rfl
  · rw [hnew] at hk
    cases hk
    exact ⟨rfl, rfl⟩

/-- A call takes charge of a session that no other call looks after. -/
theorem acquire (h : Kept custody stages w) (hfree : custody j = .nobody ∨ ∃ s, custody j = .slot s)
    (hold : (stages i).held i = none) (hnew : stage.held i = some (j, c))
    (hlive : w'.live = update w.live j c.live)
    (hslot : ∀ s, w'.active = some s ↔ w.active = some s ∧ s.id ≠ j) :
    Kept (update custody j c) (update stages i stage) w' := by
  refine h.move hlive (fun s => ?_) (fun s hs => ?_) (fun k c' hk => ?_) (fun k c' hk => ?_)
    (.inr (.inr hnew)) fun i' c' _ => h.not_held hfree
  · constructor
    · rintro rfl
      rcases Stage.held_eq hnew with ⟨live, hc, _⟩ | ⟨live, hc⟩ <;> cases hc
    · rintro ⟨hs, hid⟩
      exact absurd hid ((hslot s).1 hs).2
  · rw [hslot]
    exact and_iff_left hs
  · rw [hold] at hk
    cases hk
  · rw [hnew] at hk
    cases hk
    exact ⟨rfl, rfl⟩

/-- A call hands its session to the slot, or leaves it with nothing running. -/
theorem hand (h : Kept custody stages w) {c' : Custody ι} (hold : (stages i).held i = some (j, c'))
    (hnew : stage.held i = none) (hlive : w'.live = update w.live j c.live)
    (hkeeper : c = .nobody ∨ ∃ s, c = .slot s)
    (hslot : ∀ s, c = .slot s ↔ w'.active = some s ∧ s.id = j)
    (hslots : ∀ s, s.id ≠ j → (w'.active = some s ↔ w.active = some s)) :
    Kept (update custody j c) (update stages i stage) w' := by
  refine h.move hlive hslot hslots (fun k c' hk => ?_) (fun k c' hk => ?_)
    (hkeeper.imp_right .inl) fun i' c' hi hi' => hi (h.unique hold hi')
  · rw [hold] at hk
    cases hk
    rfl
  · rw [hnew] at hk
    cases hk

end Move

end Kept
end EasyConnection.Tunnel
