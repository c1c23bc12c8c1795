import EasyConnection.Async.Prog

/-! # Calls that are tried in turn

A program that makes the calls of a list, one after another, until the answer of one is
accepted. A trace of a program is the list of its calls with their answers.
-/
namespace EasyConnection.Async.Prog

variable {Op : Type} {Ans : Op → Type} {α β : Type}

/-- The calls that a program has made, with their answers, when it has returned. -/
inductive Trace : Prog Op Ans α → List ((o : Op) × Ans o) → α → Prop where
  | ret (a : α) : Trace (.ret a) [] a
  | call {o : Op} {k : Ans o → Prog Op Ans α} {x : Ans o} {calls : List ((o : Op) × Ans o)} {a : α}
      (h : Trace (k x) calls a) : Trace (.call o k) (⟨o, x⟩ :: calls) a

section FirstSome
variable (accept : (o : Op) → Ans o → Option β)

/-- What follows a call: its answer is taken, or the rest is tried. -/
def orNext (o : Op) (rest : Prog Op Ans (Option β)) (x : Ans o) : Prog Op Ans (Option β) :=
  match accept o x with
  | some b => .ret (some b)
  | none => rest

def firstSome : List Op → Prog Op Ans (Option β)
  | [] => .ret none
  | o :: os => .call o (orNext accept o (firstSome os))

theorem orNext_cases (o : Op) (rest : Prog Op Ans (Option β)) (x : Ans o) :
    (∃ b, accept o x = some b ∧ orNext accept o rest x = .ret (some b)) ∨
      orNext accept o rest x = rest := by
  unfold orNext
  cases accept o x with
  | some b => exact .inl ⟨b, rfl, rfl⟩
  | none => exact .inr rfl

theorem firstSome_eq_call {os : List Op} {o : Op} {k : Ans o → Prog Op Ans (Option β)}
    (h : firstSome accept os = .call o k) :
    ∃ rest, os = o :: rest ∧ k = orNext accept o (firstSome accept rest) := by
  cases os with
  | nil => cases h
  | cons o os =>
    cases h
    exact ⟨os, rfl, rfl⟩

theorem firstSome_ne_ret {os : List Op} (b : β) : firstSome accept os ≠ .ret (some b) := by
  intro h
  cases os with
  | nil => cases h
  | cons o os => cases h

/-- Two lists are tried one after the other. -/
theorem firstSome_append (os os' : List Op) :
    firstSome accept (os ++ os') = firstSome accept os >>= fun r =>
      match r with
      | some b => .ret (some b)
      | none => firstSome accept os' := by
  induction os with
  | nil => rfl
  | cons o os ih =>
    change Prog.call o _ = Prog.call o _
    congr 1
    funext x
    change orNext accept o (firstSome accept (os ++ os')) x =
      (orNext accept o (firstSome accept os) x) >>= _
    unfold orNext
    cases accept o x with
    | some b => rfl
    | none => exact ih

/-- The result of the calls that were made: the last has been accepted, or all of the list have
been refused. -/
def Tried (os : List Op) (calls : List ((o : Op) × Ans o)) : Option β → Prop
  | some b => ∃ refused last, calls = refused ++ [last] ∧ accept last.1 last.2 = some b ∧
      ∀ c ∈ refused, accept c.1 c.2 = none
  | none => calls.map Sigma.fst = os ∧ ∀ c ∈ calls, accept c.1 c.2 = none

variable {accept} {os : List Op} {calls : List ((o : Op) × Ans o)} {r : Option β}

/-- The calls of a trace are the first of the list, in its order. -/
theorem Trace.firstSome (h : Trace (firstSome accept os) calls r) :
    calls.map Sigma.fst <+: os ∧ Tried accept os calls r := by
  induction os generalizing calls with
  | nil =>
    cases h with
    | ret => exact ⟨List.nil_prefix, rfl, fun _ hc => by cases hc⟩
  | cons o os ih =>
    cases h with
    | @call _ _ x calls _ h =>
      unfold orNext at h
      cases hx : accept o x with
      | some b =>
        simp only [hx] at h
        cases h with
        | ret =>
          refine ⟨List.prefix_append [o] os, [], ⟨o, x⟩, rfl, hx, fun _ hc => by cases hc⟩
      | none =>
        simp only [hx] at h
        obtain ⟨hfirst, hrest⟩ := ih h
        refine ⟨(List.prefix_cons_inj o).2 hfirst, ?_⟩
        cases r with
        | some b =>
          obtain ⟨refused, last, rfl, hlast, hrefused⟩ := hrest
          exact ⟨⟨o, x⟩ :: refused, last, rfl, hlast, List.forall_mem_cons.2 ⟨hx, hrefused⟩⟩
        | none => exact ⟨congrArg (o :: ·) hrest.1, List.forall_mem_cons.2 ⟨hx, hrest.2⟩⟩

end FirstSome

end EasyConnection.Async.Prog
