import EasyConnection.Async.Prog

/-! # Programs that are followed by their past

A program may make a call for a reason that lies in the calls it has made before. The view that
remembers everything says this of a program for all answers, and it carries over to every point
that the program comes to, whatever other programs do in between.
-/
namespace EasyConnection.Async.Prog

variable {Op : Type} {Ans : Op → Type} {α β ε ε' : Type}

/-- Everything is remembered. -/
def remember (o : Op) (x : Ans o) (past : List ((o : Op) × Ans o)) : List ((o : Op) × Ans o) :=
  past ++ [⟨o, x⟩]

theorem mem_remember {o : Op} {x : Ans o} {past : List ((o : Op) × Ans o)} {c : (o : Op) × Ans o} :
    c ∈ remember o x past ↔ c ∈ past ∨ c = ⟨o, x⟩ := by
  rw [remember, List.mem_append, List.mem_singleton]

theorem subset_remember {o : Op} {x : Ans o} {past : List ((o : Op) × Ans o)} :
    past ⊆ remember o x past :=
  List.subset_append_left _ _

theorem mem_remember_self {o : Op} {x : Ans o} {past : List ((o : Op) × Ans o)} :
    ⟨o, x⟩ ∈ remember o x past :=
  mem_remember.2 (.inr rfl)

/-- Each call was allowed after the ones before it. -/
def Warranted (pre : Op → List ((o : Op) × Ans o) → Prop) (calls : List ((o : Op) × Ans o)) : Prop :=
  ∀ past c rest, calls = past ++ c :: rest → pre c.1 past

variable {pre : Op → List ((o : Op) × Ans o) → Prop} {post : α → List ((o : Op) × Ans o) → Prop}
  {past : List ((o : Op) × Ans o)}

theorem warranted_nil : Warranted pre ([] : List ((o : Op) × Ans o)) := by
  intro past c rest heq
  cases past <;> cases heq

theorem Warranted.append {c : (o : Op) × Ans o} (h : Warranted pre past) (hc : pre c.1 past) :
    Warranted pre (past ++ [c]) := by
  intro past' c' rest heq
  rcases List.eq_nil_or_concat rest with rfl | ⟨rest, d, rfl⟩
  · obtain ⟨rfl, hc'⟩ := List.append_inj' heq rfl
    obtain rfl := List.singleton_inj.1 hc'
    exact hc
  · rw [List.concat_eq_append, ← List.cons_append, ← List.append_assoc] at heq
    exact h past' c' rest (List.append_inj' heq rfl).1

/-- The calls of the past were allowed, and so are those that are left to make. -/
def Followed (pre : Op → List ((o : Op) × Ans o) → Prop)
    (post : α → List ((o : Op) × Ans o) → Prop) (past : List ((o : Op) × Ans o))
    (p : Prog Op Ans α) : Prop :=
  Warranted pre past ∧ p.Obeys pre remember post past

theorem Followed.step {o : Op} {k : Ans o → Prog Op Ans α} (h : Followed pre post past (.call o k))
    (x : Ans o) : Followed pre post (past ++ [⟨o, x⟩]) (k x) :=
  ⟨h.1.append h.2.1, h.2.2 x⟩

/-- A call whose failure ends the program, with the error that is reported. -/
def orFail (p : Prog Op Ans (Except ε α)) (g : ε → ε') : ExceptT ε' (Prog Op Ans) α :=
  ExceptT.mk (do return (← p).mapError g)

section Heeds
variable (pre) in
/-- The calls of a program that may fail are allowed after `past`, and it ends in `post`. -/
def Heeds (post : Except ε α → List ((o : Op) × Ans o) → Prop) (x : ExceptT ε (Prog Op Ans) α)
    (past : List ((o : Op) × Ans o)) : Prop :=
  Obeys pre remember post x.run past

variable {post : Except ε α → List ((o : Op) × Ans o) → Prop}

theorem heeds_pure {a : α} (h : post (.ok a) past) : Heeds pre post (pure a) past :=
  h

theorem heeds_throw {e : ε} (h : post (.error e) past) : Heeds pre post (throw e) past :=
  h

theorem heeds_orFail {p : Prog Op Ans (Except ε' α)} {g : ε' → ε} :
    Heeds pre post (orFail p g) past ↔
      p.Obeys pre remember (fun x past' => post (x.mapError g) past') past :=
  obeys_bind p _

/-- The program is where it was as far as `I` goes, with something to go on. -/
def Kept (I : List ((o : Op) × Ans o) → Prop) (past : List ((o : Op) × Ans o))
    (good : α → List ((o : Op) × Ans o) → Prop) (r : Except ε α)
    (past' : List ((o : Op) × Ans o)) : Prop :=
  I past' ∧ past ⊆ past' ∧ ∀ a, r = .ok a → good a past'

variable {I : List ((o : Op) × Ans o) → Prop} {past' : List ((o : Op) × Ans o)}
  {good : α → List ((o : Op) × Ans o) → Prop}

theorem kept_error (h : I past') (hpast : past ⊆ past') (e : ε) :
    Kept I past good (.error e) past' :=
  ⟨h, hpast, fun _ ha => by cases ha⟩

theorem kept_ok (h : I past') (hpast : past ⊆ past') {a : α} (ha : good a past') :
    Kept I past good (.ok a : Except ε α) past' :=
  ⟨h, hpast, fun _ hr => Except.ok.inj hr ▸ ha⟩

/-- The rule for a single call. -/
theorem heeds_call {p : Prog Op Ans (Except ε' α)} {g : ε' → ε}
    (hp : p.Obeys pre remember (Kept I past good) past') :
    Heeds pre (Kept I past good) (orFail p g) past' := by
  refine heeds_orFail.2 (hp.mono ?_)
  rintro (e | a) past'' ⟨hI, hpast, hgood⟩
  · exact kept_error hI hpast (g e)
  · exact kept_ok hI hpast (hgood a rfl)

/-- The rule for sequencing. -/
theorem Heeds.bind {x : ExceptT ε (Prog Op Ans) α} {f : α → ExceptT ε (Prog Op Ans) β}
    {post : Except ε β → List ((o : Op) × Ans o) → Prop} (hx : Heeds pre (Kept I past good) x past)
    (hok : ∀ a past', I past' → past ⊆ past' → good a past' → Heeds pre post (f a) past')
    (herror : ∀ e past', I past' → past ⊆ past' → post (.error e) past') :
    Heeds pre post (x >>= f) past := by
  refine (obeys_except_bind x f).2 (Obeys.mono hx ?_)
  rintro r past' ⟨hI, hpast, hgood⟩
  cases r with
  | ok a => exact hok a past' hI hpast (hgood a rfl)
  | error e => exact herror e past' hI hpast

end Heeds

end EasyConnection.Async.Prog
