import Mathlib.Data.List.Basic

/-! # Sequential programs over an environment

A program is the tree of the calls it makes: each call waits for an answer of the environment
and continues with it. A call is one atomic step, so several programs over one world are
interleaved between their calls. `exec` says what a call does to the world and what it
answers, given a choice that the environment makes. Where several programs share the world, a
program is followed through a view of its own, and its calls answer anything.
-/
namespace EasyConnection.Async

inductive Prog (Op : Type) (Ans : Op → Type) (α : Type) where
  | ret (a : α)
  | call (o : Op) (k : Ans o → Prog Op Ans α)

namespace Prog
variable {Op : Type} {Ans : Op → Type} {α β ε W C : Type}

protected def bind : Prog Op Ans α → (α → Prog Op Ans β) → Prog Op Ans β
  | .ret a, f => f a
  | .call o k, f => .call o fun x => (k x).bind f

instance : Monad (Prog Op Ans) where
  pure := .ret
  bind := Prog.bind

def perform (o : Op) : Prog Op Ans (Ans o) := .call o .ret

variable {x : ExceptT ε (Prog Op Ans) α} {f : α → ExceptT ε (Prog Op Ans) β} {post' : α → W → Prop}

section Ensures
variable (exec : (o : Op) → C → W → W × Ans o) (ok : Op → C → W → Prop)

/-- Run alone from `w`, the program ends in `post` whatever the environment chooses. -/
def Ensures (post : α → W → Prop) : Prog Op Ans α → W → Prop
  | .ret a, w => post a w
  | .call o k, w => ∀ c, ok o c w → (k (exec o c w).2).Ensures post (exec o c w).1

variable {exec ok} {post : α → W → Prop} {w : W}

@[simp] theorem ensures_ret (a : α) : (ret a : Prog Op Ans α).Ensures exec ok post w ↔ post a w :=
  Iff.rfl

/-- The rule for sequencing. -/
@[simp] theorem ensures_bind (p : Prog Op Ans α) (f : α → Prog Op Ans β) {post : β → W → Prop} :
    (p >>= f).Ensures exec ok post w ↔
      p.Ensures exec ok (fun a w' => (f a).Ensures exec ok post w') w := by
  induction p generalizing w with
  | ret a => exact Iff.rfl
  | call o k ih => exact forall_congr' fun c => imp_congr_right fun _ => ih _

@[simp] theorem ensures_map (p : Prog Op Ans α) (f : α → β) {post : β → W → Prop} :
    (f <$> p).Ensures exec ok post w ↔ p.Ensures exec ok (fun a w' => post (f a) w') w :=
  ensures_bind p (fun a => pure (f a))

variable {p : Prog Op Ans α}

theorem Ensures.mono {post : α → W → Prop} (h : p.Ensures exec ok post w)
    (himp : ∀ a w', post a w' → post' a w') : p.Ensures exec ok post' w := by
  induction p generalizing w with
  | ret a => exact himp a w h
  | call o k ih => exact fun c hc => ih _ (h c hc)

theorem Ensures.weaken {ok' : Op → C → W → Prop} (h : p.Ensures exec ok post w)
    (himp : ∀ o c w, ok' o c w → ok o c w) : p.Ensures exec ok' post w := by
  induction p generalizing w with
  | ret a => exact h
  | call o k ih => exact fun c hc => ih _ (h c (himp o c _ hc))

theorem Ensures.and (h : p.Ensures exec ok post w) (h' : p.Ensures exec ok post' w) :
    p.Ensures exec ok (fun a w' => post a w' ∧ post' a w') w := by
  induction p generalizing w with
  | ret a => exact ⟨h, h'⟩
  | call o k ih => exact fun c hc => ih _ (h c hc) (h' c hc)

/-- A world that is looked at through `view`, and whose calls act and answer as those of the view
do, ensures what the view ensures. -/
theorem Ensures.of_view {V : Type} {exec' : (o : Op) → C → V → V × Ans o} (view : V → W)
    (hview : ∀ o c v, (view (exec' o c v).1, (exec' o c v).2) = exec o c (view v)) {v : V}
    (h : p.Ensures exec ok post (view v)) :
    p.Ensures exec' (fun o c v => ok o c (view v)) (fun a v' => post a (view v')) v := by
  induction p generalizing v with
  | ret a => exact h
  | call o k ih =>
    intro c hc
    have hnext := h c hc
    rw [← hview] at hnext
    exact ih _ hnext

variable (exec) in
/-- The calls that are made, with the choices made for them, are kept beside the world. -/
def logged (o : Op) (c : C) (v : W × List (Op × C)) : (W × List (Op × C)) × Ans o :=
  (((exec o c v.1).1, v.2 ++ [(o, c)]), (exec o c v.1).2)

theorem Ensures.logged (h : p.Ensures exec ok post w) (log : List (Op × C)) :
    p.Ensures (Prog.logged exec) (fun o c v => ok o c v.1) (fun a v => post a v.1) (w, log) :=
  Ensures.of_view Prod.fst (fun _ _ _ => rfl) h

/-- A program that may fail stops at its first failure. -/
@[simp] theorem ensures_except_bind (x : ExceptT ε (Prog Op Ans) α)
    (f : α → ExceptT ε (Prog Op Ans) β) {post : Except ε β → W → Prop} :
    Ensures exec ok post (x >>= f).run w ↔
      Ensures exec ok (fun r w' => match r with
        | .ok a => Ensures exec ok post (f a).run w'
        | .error e => post (.error e) w') x.run w := by
  rw [ExceptT.run_bind, ensures_bind]
  constructor
  · intro h
    refine h.mono fun r w' hr => ?_
    cases r <;> exact hr
  · intro h
    refine h.mono fun r w' hr => ?_
    cases r <;> exact hr

variable (exec ok) in
/-- What has to hold after the first part of a sequence that may fail. -/
def Then (post : Except ε β → W → Prop) (f : α → ExceptT ε (Prog Op Ans) β) (r : Except ε α)
    (w : W) : Prop :=
  match r with
  | .ok a => Ensures exec ok post (f a).run w
  | .error e => post (.error e) w

theorem ensures_of_then {post : Except ε β → W → Prop}
    (h : Ensures exec ok (Then exec ok post f) x.run w) : Ensures exec ok post (x >>= f).run w := by
  refine (ensures_except_bind x f).2 (h.mono fun r w' hr => ?_)
  cases r <;> exact hr

@[simp] theorem ensures_lift (p : Prog Op Ans α) {post : Except ε α → W → Prop} :
    Ensures exec ok post (liftM p : ExceptT ε (Prog Op Ans) α).run w ↔
      p.Ensures exec ok (fun a w' => post (.ok a) w') w :=
  ensures_map p Except.ok

/-- Run alone, with the choice that `env` makes at each call. -/
def runAlone (exec : (o : Op) → C → W → W × Ans o) (env : Op → C) : Prog Op Ans α → W → α × W
  | .ret a, w => (a, w)
  | .call o k, w => (k (exec o (env o) w).2).runAlone exec env (exec o (env o) w).1

theorem Ensures.runAlone (h : p.Ensures exec ok post w) (env : Op → C)
    (henv : ∀ o w, ok o (env o) w) : post (p.runAlone exec env w).1 (p.runAlone exec env w).2 := by
  induction p generalizing w with
  | ret a => exact h
  | call o k ih => exact ih _ (h (env o) (henv o _))

end Ensures

variable {a : α}

section Advance
variable (exec : (o : Op) → C → W → W × Ans o) (ok : Op → C → W → Prop)
variable [∀ o c w, Decidable (ok o c w)]

/-- Make the first calls of a program, with the given choices. -/
def advance : List C → Prog Op Ans α → W → Option (Prog Op Ans α × W)
  | [], p, w => some (p, w)
  | _ :: _, .ret _, _ => none
  | c :: cs, .call o k, w =>
    if ok o c w then advance cs (k (exec o c w).2) (exec o c w).1 else none

/-- Make all calls of a program, with the given choices. -/
def runWith (cs : List C) (p : Prog Op Ans α) (w : W) : Option (α × W) :=
  match advance exec ok cs p w with
  | some (.ret a, w') => some (a, w')
  | _ => none

variable {exec ok} {p : Prog Op Ans α} {w w' : W} {cs : List C}

theorem runWith_eq_some :
    p.runWith exec ok cs w = some (a, w') ↔ p.advance exec ok cs w = some (.ret a, w') := by
  unfold runWith
  constructor
  · intro h
    split at h
    · next ha =>
      cases h
      exact ha
    · cases h
  · intro h
    rw [h]

theorem advance_append {c : C} {o : Op} {k : Ans o → Prog Op Ans α}
    (h : p.advance exec ok cs w = some (.call o k, w')) (hc : ok o c w') :
    p.advance exec ok (cs ++ [c]) w = some (k (exec o c w').2, (exec o c w').1) := by
  induction cs generalizing p w with
  | nil =>
    obtain ⟨rfl, rfl⟩ := Prod.mk.inj (Option.some.inj h)
    exact if_pos hc
  | cons c' cs ih =>
    cases p with
    | ret a => cases h
    | call o' k' =>
      simp only [List.cons_append, advance] at h ⊢
      split at h
      · next hok =>
        rw [if_pos hok]
        exact ih h
      · cases h

@[simp] theorem runWith_ret_eq_some {b : α} :
    (ret a : Prog Op Ans α).runWith exec ok cs w = some (b, w') ↔ cs = [] ∧ a = b ∧ w = w' := by
  cases cs with
  | nil => simp [runWith, advance]
  | cons c cs => simp [runWith, advance]

theorem runWith_call_eq_some {o : Op} {k : Ans o → Prog Op Ans α} :
    (call o k).runWith exec ok cs w = some (a, w') ↔
      ∃ c cs', cs = c :: cs' ∧ ok o c w ∧
        (k (exec o c w).2).runWith exec ok cs' (exec o c w).1 = some (a, w') := by
  cases cs with
  | nil => simp [runWith, advance]
  | cons c cs =>
    simp only [runWith_eq_some, advance, List.cons.injEq]
    constructor
    · intro h
      split at h
      · next hok => exact ⟨c, cs, ⟨rfl, rfl⟩, hok, h⟩
      · cases h
    · rintro ⟨_, _, ⟨rfl, rfl⟩, hok, h⟩
      rw [if_pos hok]
      exact h

/-- A run of a sequence is a run of its first part, followed by one of the second. -/
theorem runWith_bind_eq_some {f : α → Prog Op Ans β} {b : β} :
    (p >>= f).runWith exec ok cs w = some (b, w') ↔
      ∃ cs₁ cs₂ a w₁, cs = cs₁ ++ cs₂ ∧ p.runWith exec ok cs₁ w = some (a, w₁) ∧
        (f a).runWith exec ok cs₂ w₁ = some (b, w') := by
  induction p generalizing cs w with
  | ret a =>
    constructor
    · intro h
      exact ⟨[], cs, a, w, rfl, runWith_ret_eq_some.2 ⟨rfl, rfl, rfl⟩, h⟩
    · rintro ⟨cs₁, cs₂, a', w₁, rfl, hp, hf⟩
      obtain ⟨rfl, rfl, rfl⟩ := runWith_ret_eq_some.1 hp
      exact hf
  | call o k ih =>
    refine runWith_call_eq_some.trans ⟨?_, ?_⟩
    · rintro ⟨c, cs', rfl, hok, h⟩
      obtain ⟨cs₁, cs₂, a, w₁, rfl, hp, hf⟩ := (ih _).1 h
      exact ⟨c :: cs₁, cs₂, a, w₁, rfl, runWith_call_eq_some.2 ⟨c, cs₁, rfl, hok, hp⟩, hf⟩
    · rintro ⟨cs₁, cs₂, a, w₁, rfl, hp, hf⟩
      obtain ⟨c, cs', rfl, hok, hp⟩ := runWith_call_eq_some.1 hp
      exact ⟨c, cs' ++ cs₂, rfl, hok, (ih _).2 ⟨cs', cs₂, a, w₁, rfl, hp, hf⟩⟩

/-- A run of a sequence that may fail stops at its first failure. -/
theorem runWith_except_bind {r : Except ε β}
    (h : runWith exec ok cs (x >>= f).run w = some (r, w')) :
    (∃ cs₁ cs₂ a w₁, cs = cs₁ ++ cs₂ ∧ runWith exec ok cs₁ x.run w = some (.ok a, w₁) ∧
      runWith exec ok cs₂ (f a).run w₁ = some (r, w')) ∨
    ∃ e, r = .error e ∧ runWith exec ok cs x.run w = some (.error e, w') := by
  rw [ExceptT.run_bind, runWith_bind_eq_some] at h
  obtain ⟨cs₁, cs₂, r₁, w₁, rfl, hx, hf⟩ := h
  cases r₁ with
  | ok a => exact .inl ⟨cs₁, cs₂, a, w₁, rfl, hx, hf⟩
  | error e =>
    obtain ⟨rfl, rfl, rfl⟩ := runWith_ret_eq_some.1 hf
    rw [List.append_nil]
    exact .inr ⟨e, rfl, hx⟩

theorem runWith_mapError {ε' : Type} {p : Prog Op Ans (Except ε α)} {g : ε → ε'} {r : Except ε' α}
    (h : runWith exec ok cs (do return (← p).mapError g) w = some (r, w')) :
    ∃ r₀, r = r₀.mapError g ∧ p.runWith exec ok cs w = some (r₀, w') := by
  obtain ⟨cs₁, cs₂, r₀, w₁, rfl, hp, hret⟩ := runWith_bind_eq_some.1 h
  obtain ⟨rfl, rfl, rfl⟩ := runWith_ret_eq_some.1 hret
  rw [List.append_nil]
  exact ⟨r₀, rfl, hp⟩

theorem runWith_map_error {f : α → β} {e : ε}
    (h : runWith exec ok cs (f <$> x).run w = some (.error e, w')) :
    runWith exec ok cs x.run w = some (.error e, w') := by
  obtain ⟨cs₁, cs₂, r, w₁, rfl, hx, hret⟩ := runWith_bind_eq_some.1 h
  cases r with
  | ok a =>
    obtain ⟨-, he, -⟩ := runWith_ret_eq_some.1 hret
    cases he
  | error e' =>
    obtain ⟨rfl, he, rfl⟩ := runWith_ret_eq_some.1 hret
    obtain rfl := Except.error.inj he
    rw [List.append_nil]
    exact hx

/-- Each call that is made with these choices meets `good`. -/
def Along (exec : (o : Op) → C → W → W × Ans o) (good : Op → C → Prop) :
    List C → Prog Op Ans α → W → Prop
  | [], _, _ => True
  | _ :: _, .ret _, _ => True
  | c :: cs, .call o k, w => good o c ∧ Along exec good cs (k (exec o c w).2) (exec o c w).1

theorem along_of_forall {good : Op → C → Prop} (h : ∀ c ∈ cs, ∀ o, good o c) :
    p.Along exec good cs w := by
  induction cs generalizing p w with
  | nil => trivial
  | cons c cs ih =>
    cases p with
    | ret a => trivial
    | call o k =>
      exact ⟨h c List.mem_cons_self o, ih fun c' hc' => h c' (List.mem_cons_of_mem c hc')⟩

/-- A run whose calls all meet `good` ends in what such calls ensure. -/
theorem Ensures.runWith_of_along {good : Op → C → Prop} {post : α → W → Prop}
    (h : p.Ensures exec (fun o c w => ok o c w ∧ good o c) post w) (hgood : p.Along exec good cs w)
    (hrun : p.runWith exec ok cs w = some (a, w')) : post a w' := by
  rw [runWith_eq_some] at hrun
  induction cs generalizing p w with
  | nil =>
    obtain ⟨rfl, rfl⟩ := Prod.mk.inj (Option.some.inj hrun)
    exact h
  | cons c cs ih =>
    cases p with
    | ret b => cases hrun
    | call o k =>
      simp only [advance] at hrun
      split at hrun
      · next hok => exact ih (h c ⟨hok, hgood.1⟩) hgood.2 hrun
      · cases hrun

theorem Ensures.runWith {post : α → W → Prop} (h : p.Ensures exec ok post w)
    (hrun : p.runWith exec ok cs w = some (a, w')) : post a w' :=
  Ensures.runWith_of_along (h.weaken fun _ _ _ hok => hok.1) (along_of_forall fun _ _ _ => trivial)
    hrun

end Advance

section Obeys
variable (pre : Op → W → Prop) (upd : (o : Op) → Ans o → W → W)

/-- Each call is made where `pre` allows it, and the program ends in `post`, whatever the
answers are. The view `w` follows the calls by `upd`. -/
def Obeys (post : α → W → Prop) : Prog Op Ans α → W → Prop
  | .ret a, w => post a w
  | .call o k, w => pre o w ∧ ∀ x, (k x).Obeys post (upd o x w)

variable {pre upd} {w : W} {post : α → W → Prop}

@[simp] theorem obeys_ret (a : α) : (ret a : Prog Op Ans α).Obeys pre upd post w ↔ post a w :=
  Iff.rfl

@[simp] theorem obeys_pure (a : α) : (pure a : Prog Op Ans α).Obeys pre upd post w ↔ post a w :=
  Iff.rfl

@[simp] theorem obeys_bind (p : Prog Op Ans α) (f : α → Prog Op Ans β) {post : β → W → Prop} :
    (p >>= f).Obeys pre upd post w ↔
      p.Obeys pre upd (fun a w' => (f a).Obeys pre upd post w') w := by
  induction p generalizing w with
  | ret a => exact Iff.rfl
  | call o k ih => exact and_congr_right fun _ => forall_congr' fun x => ih x

theorem Obeys.mono {p : Prog Op Ans α} (h : p.Obeys pre upd post w)
    (himp : ∀ a w', post a w' → post' a w') : p.Obeys pre upd post' w := by
  induction p generalizing w with
  | ret a => exact himp a w h
  | call o k ih => exact ⟨h.1, fun x => ih x (h.2 x)⟩

@[simp] theorem obeys_except_bind (x : ExceptT ε (Prog Op Ans) α)
    (f : α → ExceptT ε (Prog Op Ans) β) {post : Except ε β → W → Prop} :
    Obeys pre upd post (x >>= f).run w ↔
      Obeys pre upd (fun r w' => match r with
        | .ok a => Obeys pre upd post (f a).run w'
        | .error e => post (.error e) w') x.run w := by
  rw [ExceptT.run_bind, obeys_bind]
  constructor
  · intro h
    refine h.mono fun r w' hr => ?_
    cases r <;> exact hr
  · intro h
    refine h.mono fun r w' hr => ?_
    cases r <;> exact hr

@[simp] theorem obeys_lift (p : Prog Op Ans α) {post : Except ε α → W → Prop} :
    Obeys pre upd post (liftM p : ExceptT ε (Prog Op Ans) α).run w ↔
      p.Obeys pre upd (fun a w' => post (.ok a) w') w :=
  obeys_bind p (fun a => pure (Except.ok a))

end Obeys

section Paths

/-- On every path the program makes a call in `P`. -/
def Must (P : Op → Prop) : Prog Op Ans α → Prop
  | .ret _ => False
  | .call o k => P o ∨ ∀ x, (k x).Must P

/-- The program makes no call outside `P`. -/
def Only (P : Op → Prop) : Prog Op Ans α → Prop
  | .ret _ => True
  | .call o k => P o ∧ ∀ x, (k x).Only P

/-- Whatever the calls answer, the program returns something in `Q`. -/
def Returns (Q : α → Prop) : Prog Op Ans α → Prop
  | .ret a => Q a
  | .call _ k => ∀ x, (k x).Returns Q

theorem returns_bind (p : Prog Op Ans α) {Q : β → Prop} {f : α → Prog Op Ans β}
    (h : ∀ a, (f a).Returns Q) : (p >>= f).Returns Q := by
  induction p with
  | ret a => exact h a
  | call o k ih => exact ih

variable {P : Op → Prop} {p : Prog Op Ans α}

theorem Must.bind (h : p.Must P) (f : α → Prog Op Ans β) : (p >>= f).Must P := by
  induction p with
  | ret a => exact absurd h id
  | call o k ih =>
    rcases h with ho | hk
    · exact .inl ho
    · exact .inr fun x => ih x (hk x)

theorem must_bind_right (p : Prog Op Ans α) {f : α → Prog Op Ans β} (h : ∀ a, (f a).Must P) :
    (p >>= f).Must P := by
  induction p with
  | ret a => exact h a
  | call o k ih => exact .inr ih

theorem only_perform {o : Op} (h : P o) : (perform o : Prog Op Ans (Ans o)).Only P :=
  ⟨h, fun _ => trivial⟩

theorem Only.bind (h : p.Only P) {f : α → Prog Op Ans β} (hf : ∀ a, (f a).Only P) :
    (p >>= f).Only P := by
  induction p with
  | ret a => exact hf a
  | call o k ih => exact ⟨h.1, fun x => ih x (h.2 x)⟩

theorem Only.mono {Q : Op → Prop} (h : p.Only P) (hPQ : ∀ o, P o → Q o) : p.Only Q := by
  induction p with
  | ret a => trivial
  | call o k ih => exact ⟨hPQ o h.1, fun x => ih x (h.2 x)⟩

theorem Only.except_bind (h : Only P x.run) (hf : ∀ a, Only P (f a).run) :
    Only P (x >>= f).run := by
  rw [ExceptT.run_bind]
  refine h.bind fun r => ?_
  cases r with
  | ok a => exact hf a
  | error e => trivial

theorem Only.lift (h : p.Only P) : Only P (liftM p : ExceptT ε (Prog Op Ans) α).run :=
  h.bind fun _ => trivial

/-- The frame rule: what every call of the program preserves, the program preserves. -/
theorem Only.ensures {exec : (o : Op) → C → W → W × Ans o} {ok : Op → C → W → Prop} {I : W → Prop}
    {w : W} (h : p.Only P) (hI : ∀ o c w, P o → I w → I (exec o c w).1) (hw : I w) :
    p.Ensures exec ok (fun _ w' => I w') w := by
  induction p generalizing w with
  | ret a => exact hw
  | call o k ih => exact fun c _ => ih _ (h.2 _) (hI o c w h.1 hw)

/-- A program whose calls are all allowed in one view and leave it. -/
theorem Only.obeys {pre : Op → W → Prop} {upd : (o : Op) → Ans o → W → W} {w : W} (h : p.Only P)
    (hP : ∀ o, P o → pre o w ∧ ∀ x, upd o x w = w) : p.Obeys pre upd (fun _ w' => w' = w) w := by
  induction p with
  | ret a => rfl
  | call o k ih =>
    obtain ⟨hpre, hupd⟩ := hP o h.1
    refine ⟨hpre, fun x => ?_⟩
    rw [hupd x]
    exact ih x (h.2 x)

end Paths

section Maintains
variable {exec : (o : Op) → C → W → W × Ans o} {ok : Op → C → W → Prop} {I : W → Prop}

variable (exec ok I) in
/-- The program keeps `I` up, whether it fails or returns, and returns only what is in `good`. -/
def Maintains (good : α → Prop) (x : ExceptT ε (Prog Op Ans) α) : Prop :=
  ∀ w, I w → Ensures exec ok (fun r w' => I w' ∧ ∀ a, r = .ok a → good a) x.run w

variable {good : α → Prop}

theorem maintains_ret {r : Except ε α} (h : ∀ a, r = .ok a → good a) :
    Maintains exec ok I good (ExceptT.mk (pure r)) :=
  fun _ hw => ⟨hw, h⟩

theorem maintains_pure (h : good a) :
    Maintains exec ok I good (pure a : ExceptT ε (Prog Op Ans) α) :=
  maintains_ret fun _ hr => Except.ok.inj hr ▸ h

theorem maintains_throw (e : ε) : Maintains exec ok I good (throw e : ExceptT ε (Prog Op Ans) α) :=
  maintains_ret fun _ hr => nomatch hr

theorem Maintains.bind {good' : β → Prop} (hx : Maintains exec ok I good x)
    (hf : ∀ a, good a → Maintains exec ok I good' (f a)) : Maintains exec ok I good' (x >>= f) := by
  intro w hw
  refine ensures_of_then ((hx w hw).mono ?_)
  rintro (e | a) w' ⟨hw', hgood⟩
  · exact ⟨hw', fun _ hr => nomatch hr⟩
  · exact hf a (hgood a rfl) w' hw'

theorem Maintains.mono {good' : α → Prop} (hx : Maintains exec ok I good x)
    (h : ∀ a, good a → good' a) : Maintains exec ok I good' x :=
  fun w hw => (hx w hw).mono fun _ _ hr => ⟨hr.1, fun a ha => h a (hr.2 a ha)⟩

/-- How an error is reported does not matter. -/
theorem Maintains.mapError {ε' : Type} (hx : Maintains exec ok I good x) (f : ε → ε') :
    Maintains exec ok I good (ExceptT.mk do return (← x.run).mapError f) := by
  intro w hw
  refine (ensures_bind x.run _).2 ((hx w hw).mono ?_)
  rintro (e | a) w' ⟨hw', hgood⟩
  · exact ⟨hw', fun _ hr => nomatch hr⟩
  · exact ⟨hw', fun _ hr => hgood _ (Except.ok.inj hr ▸ rfl)⟩

theorem Only.maintains {P : Op → Prop} (h : Only P x.run)
    (hI : ∀ o c w, P o → I w → I (exec o c w).1) : Maintains exec ok I (fun _ => True) x :=
  fun _ hw => (h.ensures hI hw).mono fun _ _ hw' => ⟨hw', fun _ _ => trivial⟩

end Maintains

end Prog
end EasyConnection.Async
