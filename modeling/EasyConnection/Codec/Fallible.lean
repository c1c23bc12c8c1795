import Mathlib.Data.List.Basic

/-! # Fallible steps

A sequence of steps, each of which may end the whole with an error.
-/
namespace EasyConnection.Codec
variable {ε α β : Type}

def okOr (e : ε) : Option α → Except ε α
  | some a => .ok a
  | none => .error e

variable {a : α}

@[simp] theorem okOr_eq_ok {e : ε} {o : Option α} : okOr e o = .ok a ↔ o = some a := by
  cases o with
  | none => exact ⟨fun h => (nomatch h), fun h => (nomatch h)⟩
  | some b => exact ⟨fun h => congrArg some (Except.ok.inj h), fun h => congrArg _ (Option.some.inj h)⟩

variable {x : Except ε α}

theorem toOption_eq_some : x.toOption = some a ↔ x = .ok a := by
  cases x with
  | error e => exact iff_of_false (fun h => by cases h) fun h => by cases h
  | ok b => exact ⟨fun h => congrArg _ (Option.some.inj h), fun h => congrArg _ (Except.ok.inj h)⟩

theorem toOption_eq_none : x.toOption = none ↔ ∃ e, x = .error e := by
  cases x with
  | error e => exact iff_of_true rfl ⟨e, rfl⟩
  | ok b => exact iff_of_false (fun h => by cases h) fun ⟨_, h⟩ => by cases h

variable {f : α → Except ε β}

theorem except_ok_bind : (Except.ok a >>= f) = f a := rfl

variable {b : β}

theorem except_bind_eq_ok : (x >>= f) = .ok b ↔ ∃ a, x = .ok a ∧ f a = .ok b := by
  cases x with
  | error e => exact ⟨fun h => (nomatch h), fun ⟨_, h, _⟩ => (nomatch h)⟩
  | ok a => exact ⟨fun h => ⟨a, rfl, h⟩, fun ⟨_, h, hf⟩ => Except.ok.inj h ▸ hf⟩

/-- A check and what follows it. -/
theorem except_then_eq_ok {x : Except ε Unit} {y : Except ε β} :
    (x >>= fun _ => y) = .ok b ↔ x = .ok () ∧ y = .ok b := by
  rw [except_bind_eq_ok]
  exact ⟨fun ⟨_, hx, hy⟩ => ⟨hx, hy⟩, fun ⟨hx, hy⟩ => ⟨(), hx, hy⟩⟩

variable {l : List α}

theorem forM_eq_ok {f : α → Except ε Unit} : l.forM f = .ok () ↔ ∀ a ∈ l, f a = .ok () := by
  induction l with
  | nil => exact ⟨fun _ _ h => (nomatch h), fun _ => rfl⟩
  | cons a l ih =>
    rw [List.forM, except_bind_eq_ok, List.forall_mem_cons, ← ih]
    exact ⟨fun ⟨_, ha, hl⟩ => ⟨ha, hl⟩, fun ⟨ha, hl⟩ => ⟨(), ha, hl⟩⟩

theorem mem_of_mapM_eq_ok {bs : List β} (h : l.mapM f = .ok bs) (hb : b ∈ bs) :
    ∃ a ∈ l, f a = .ok b := by
  induction l generalizing bs with
  | nil =>
    obtain rfl := Except.ok.inj h
    cases hb
  | cons a l ih =>
    rw [List.mapM_cons] at h
    obtain ⟨c, hc, h⟩ := except_bind_eq_ok.1 h
    obtain ⟨cs, hcs, h⟩ := except_bind_eq_ok.1 h
    obtain rfl := Except.ok.inj h
    rcases List.mem_cons.1 hb with rfl | hb
    · exact ⟨a, List.mem_cons_self, hc⟩
    · obtain ⟨x, hx, hfx⟩ := ih hcs hb
      exact ⟨x, List.mem_cons_of_mem _ hx, hfx⟩

/-- What was written by one function is read by another, element by element. -/
theorem mapM_map_eq_ok {f : β → α} {g : α → Except ε β} {l : List β}
    (h : ∀ b ∈ l, g (f b) = .ok b) : (l.map f).mapM g = .ok l := by
  induction l with
  | nil => rfl
  | cons b l ih =>
    rw [List.forall_mem_cons] at h
    rw [List.map_cons, List.mapM_cons, h.1, ih h.2]
    rfl

/-- The first answer is also the first good one, exactly if no good one follows a bad one. -/
theorem findSome?_bind_eq_iff {γ : Type} {f : α → Option β} {g : β → Option γ} :
    (l.findSome? f).bind g = l.findSome? (fun a => (f a).bind g) ↔
      ∀ before a after b, l = before ++ a :: after → (∀ x ∈ before, f x = none) → f a = some b →
        (g b).isSome ∨ ∀ x ∈ after, (f x).bind g = none := by
  induction l with
  | nil => exact iff_of_true rfl fun before a after _ h => absurd h (by simp)
  | cons a l ih =>
    rw [List.findSome?_cons, List.findSome?_cons]
    cases ha : f a with
    | none =>
      dsimp only [Option.bind_none]
      rw [ih]
      constructor
      · intro h before x after b hsplit hbefore hx
        cases before with
        | nil =>
          obtain ⟨rfl, -⟩ := List.cons.inj hsplit
          rw [ha] at hx
          cases hx
        | cons first before =>
          exact h before x after b (List.cons.inj hsplit).2
            (fun y hy => hbefore y (List.mem_cons_of_mem _ hy)) hx
      · intro h before x after b hsplit hbefore hx
        exact h (a :: before) x after b (congrArg (a :: ·) hsplit) (List.forall_mem_cons.2 ⟨ha, hbefore⟩) hx
    | some b =>
      dsimp only [Option.bind_some]
      constructor
      · intro h before x after c hsplit hbefore hx
        cases before with
        | nil =>
          obtain ⟨rfl, rfl⟩ := List.cons.inj hsplit
          obtain rfl := Option.some.inj (ha.symm.trans hx)
          cases hb : g b with
          | some c => exact .inl rfl
          | none =>
            rw [hb] at h
            exact .inr (List.findSome?_eq_none_iff.1 h.symm)
        | cons first before =>
          obtain ⟨rfl, -⟩ := List.cons.inj hsplit
          rw [hbefore _ List.mem_cons_self] at ha
          cases ha
      · intro h
        cases hb : g b with
        | some c => rfl
        | none =>
          have hafter := (h [] a l b rfl (by simp) ha).resolve_left (by simp [hb])
          exact (List.findSome?_eq_none_iff.2 hafter).symm

end EasyConnection.Codec
