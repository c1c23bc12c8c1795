import Mathlib.Data.List.Basic

/-! # Runs of an executable labelled system

A label that is not enabled in a state has no successor there. A run is the list of its
labels; every state it passes through is the end of one of its prefixes, so a statement
about the end of all runs is a statement about every state reached.
-/
namespace EasyConnection.Async
variable {S E : Type*} (step : S → E → Option S)

/-- Take the labels in order, stopping with `none` at the first one that is not enabled. -/
def run : S → List E → Option S
  | s, [] => some s
  | s, e :: es => (step s e).bind (fun s' => run s' es)

@[simp] theorem run_nil (s : S) : run step s [] = some s := rfl

@[simp] theorem run_cons (s : S) (e : E) (es : List E) :
    run step s (e :: es) = (step s e).bind (fun s' => run step s' es) := rfl

theorem run_append (s : S) (es fs : List E) :
    run step s (es ++ fs) = (run step s es).bind (fun s' => run step s' fs) := by
  induction es generalizing s with
  | nil => rfl
  | cons e es ih =>
    simp only [List.cons_append, run_cons, Option.bind_assoc]
    congr 1
    funext s'
    exact ih s'

/-- The condition holds of the state before each step of the run and of the step's label. -/
def Meets (ok : S → E → Prop) : S → List E → Prop
  | _, [] => True
  | s, e :: es => ok s e ∧ match step s e with
    | none => True
    | some s' => Meets ok s' es

instance Meets.decidable (ok : S → E → Prop) [∀ s e, Decidable (ok s e)] :
    (s : S) → (es : List E) → Decidable (Meets step ok s es)
  | _, [] => inferInstanceAs (Decidable True)
  | s, e :: es =>
    haveI : Decidable (match step s e with
        | none => True
        | some s' => Meets step ok s' es) :=
      match step s e with
      | none => inferInstanceAs (Decidable True)
      | some s' => Meets.decidable ok s' es
    inferInstanceAs (Decidable (_ ∧ _))

variable {step} {ok : S → E → Prop}

theorem Meets.of_forall (hok : ∀ s e, ok s e) (s : S) (es : List E) : Meets step ok s es := by
  induction es generalizing s with
  | nil => trivial
  | cons e es ih =>
    refine ⟨hok s e, ?_⟩
    cases step s e with
    | none => trivial
    | some s' => exact ih s'

variable {es : List E} {s : S}

theorem Meets.mono {ok' : S → E → Prop} (h : ∀ s e, ok s e → ok' s e) (hok : Meets step ok s es) :
    Meets step ok' s es := by
  induction es generalizing s with
  | nil => trivial
  | cons e es ih =>
    obtain ⟨hhead, htail⟩ := hok
    refine ⟨h s e hhead, ?_⟩
    cases hs : step s e with
    | none => trivial
    | some s' =>
      rw [hs] at htail
      exact ih htail

theorem Meets.and {ok' : S → E → Prop} (h : Meets step ok s es) (h' : Meets step ok' s es) :
    Meets step (fun s e => ok s e ∧ ok' s e) s es := by
  induction es generalizing s with
  | nil => trivial
  | cons e es ih =>
    obtain ⟨hhead, htail⟩ := h
    obtain ⟨hhead', htail'⟩ := h'
    refine ⟨⟨hhead, hhead'⟩, ?_⟩
    cases hs : step s e with
    | none => trivial
    | some s' =>
      rw [hs] at htail htail'
      exact ih htail htail'

theorem Meets.of_labels {q : E → Prop} (hq : ∀ e ∈ es, q e) :
    Meets step (fun _ e => q e) s es := by
  induction es generalizing s with
  | nil => trivial
  | cons e es ih =>
    refine ⟨hq e List.mem_cons_self, ?_⟩
    cases step s e with
    | none => trivial
    | some s' => exact ih fun e' he' => hq e' (List.mem_cons_of_mem e he')

theorem Meets.and_labels {q : E → Prop} (hok : Meets step ok s es) (hq : ∀ e ∈ es, q e) :
    Meets step (fun s e => ok s e ∧ q e) s es :=
  hok.and (.of_labels hq)

variable {t : S}

/-- An invariant that also speaks of the labels taken so far. -/
theorem run_history {I : List E → S → Prop}
    (hstep : ∀ es s e s', I es s → ok s e → step s e = some s' → I (es ++ [e]) s') (hs : I [] s)
    (hok : Meets step ok s es) (hrun : run step s es = some t) : I es t := by
  -- the labels of `past` lead to `s`
  suffices ∀ past, I past s → I (past ++ es) t from this [] hs
  clear hs
  induction es generalizing s with
  | nil =>
    intro past hs
    rw [run_nil, Option.some.injEq] at hrun
    rw [List.append_nil]
    exact hrun ▸ hs
  | cons e es ih =>
    intro past hs
    obtain ⟨hhead, htail⟩ := hok
    rw [run_cons, Option.bind_eq_some_iff] at hrun
    obtain ⟨s', hs', hrun⟩ := hrun
    rw [hs'] at htail
    rw [List.append_cons]
    exact ih htail hrun _ (hstep past s e s' hs hhead hs')

/-- The same, where the step may also use the run so far. -/
theorem run_reached {I : List E → S → Prop}
    (hstep : ∀ es u e u', run step s es = some u → I es u → ok u e → step u e = some u' →
      I (es ++ [e]) u') (hs : I [] s) (hok : Meets step ok s es) (hrun : run step s es = some t) :
    I es t := by
  refine (run_history (I := fun es u => run step s es = some u ∧ I es u) ?_ ⟨rfl, hs⟩ hok hrun).2
  intro es u e u' ⟨hu, hI⟩ he hu'
  refine ⟨?_, hstep es u e u' hu hI he hu'⟩
  rw [run_append, hu, Option.bind_some, run_cons, hu', Option.bind_some, run_nil]

/-- What the steps under a condition preserve, the runs under that condition preserve. -/
theorem run_invariant {I : S → Prop} (hstep : ∀ s e s', I s → ok s e → step s e = some s' → I s')
    (hs : I s) (hok : Meets step ok s es) (hrun : run step s es = some t) : I t :=
  run_history (I := fun _ s => I s) (fun _ s e s' => hstep s e s') hs hok hrun

end EasyConnection.Async
