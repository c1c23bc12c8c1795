import EasyConnection.Tunnel.Protocol

/-! # The calls that one program makes among the others

What a call of the manager does is read off the accesses that it makes in a run, whatever other
calls do between them. A property of the program that holds for all answers holds of them.
-/
namespace EasyConnection.Tunnel
open Async Config Function

/-- An access with its answer. -/
abbrev Access (ι : Type) := (o : Op ι) × Ans o

variable {ι : Type}

/-- What is known of a call from the accesses that it has made. -/
def view {V : Type} (upd : (o : Op ι) → Ans o → V → V) (v : V) (accesses : List (Access ι)) : V :=
  accesses.foldl (fun v x => upd x.1 x.2 v) v

theorem view_append {V : Type} (upd : (o : Op ι) → Ans o → V → V) (v : V)
    (accesses accesses' : List (Access ι)) :
    view upd v (accesses ++ accesses') = view upd (view upd v accesses) accesses' :=
  List.foldl_append

/-- A flag that one kind of access sets is set exactly if there has been such an access. -/
theorem view_flag {V : Type} {upd : (o : Op ι) → Ans o → V → V} (flag : V → Bool)
    (sets : Access ι → Bool) (h : ∀ o a v, flag (upd o a v) = (sets ⟨o, a⟩ || flag v)) (v : V)
    (accesses : List (Access ι)) :
    flag (view upd v accesses) = (accesses.any sets || flag v) := by
  induction accesses generalizing v with
  | nil => rfl
  | cons x xs ih =>
    refine (ih (upd x.1 x.2 v)).trans ?_
    rw [h, List.any_cons, ← Bool.or_assoc, Bool.or_comm (xs.any sets)]

variable [DecidableEq ι]

/-- The access of `i` in a step. -/
def made (i : ι) (st : State ι) : Event ι → Option (Access ι)
  | .step j env =>
    match st.calls j with
    | .busy _ (.call o _) => if j = i then some ⟨o, answer st.world env o⟩ else none
    | _ => none
  | _ => none

/-- The accesses of `i` in a run. -/
def trace [Texts] (i : ι) : State ι → List (Event ι) → List (Access ι)
  | _, [] => []
  | st, e :: es =>
    (made i st e).toList ++ match step st e with
      | none => []
      | some st' => trace i st' es

theorem trace_concat [Texts] {i : ι} {s t : State ι} {es : List (Event ι)} (e : Event ι)
    (hrun : run step s es = some t) :
    trace i s (es ++ [e]) = trace i s es ++ (made i t e).toList := by
  induction es generalizing s with
  | nil =>
    obtain rfl := Option.some.inj hrun
    simp only [List.nil_append, trace]
    cases step s e <;> rw [List.append_nil]
  | cons e' es ih =>
    rw [run_cons, Option.bind_eq_some_iff] at hrun
    obtain ⟨s', hs', hrun⟩ := hrun
    simp only [List.cons_append, trace, hs', ih hrun, List.append_assoc]

section Follow
variable {V : Type} {pre : Op ι → V → Prop} {upd : (o : Op ι) → Ans o → V → V}
  {post : Except TunnelError ConnectionSnapshot → V → Prop} {v : V} {req : Request}

variable (pre upd post v req) in
/-- A call that answers `req` is where its accesses have brought it. -/
def Followed : Phase ι → List (Access ι) → Prop
  | .idle, accesses => accesses = []
  | .busy req' p, accesses => req' = req → p.Obeys pre upd post (view upd v accesses)
  | .returned req' r, accesses => req' = req → post r (view upd v accesses)

theorem Followed.step [Texts] {i : ι} {st st' : State ι} {e : Event ι} {accesses : List (Access ι)}
    (hprogram : (program i req).Obeys pre upd post v)
    (h : Followed pre upd post v req (st.calls i) accesses) (hmoves : Moves st e st') :
    Followed pre upd post v req (st'.calls i) (accesses ++ (made i st e).toList) := by
  cases hmoves with
  | @call j req' hidle =>
    simp only [made, Option.toList_none, List.append_nil]
    by_cases hji : j = i
    · subst hji
      rw [hidle] at h
      simp only [State.setCall, update_self]
      rintro rfl
      rw [h]
      exact hprogram
    · simp only [State.setCall, update_of_ne (Ne.symm hji)]
      exact h
  | @work j env req' o k hbusy =>
    by_cases hji : j = i
    · subst hji
      rw [hbusy] at h
      simp only [made, hbusy, if_true, State.setCall, update_self]
      intro hreq
      rw [view_append]
      exact (h hreq).2 _
    · simp only [made, hbusy, if_neg hji, Option.toList_none, List.append_nil, State.setCall,
        update_of_ne (Ne.symm hji)]
      exact h
  | @finish j req' r hret =>
    simp only [made, Option.toList_none, List.append_nil]
    by_cases hji : j = i
    · subst hji
      rw [hret] at h
      simp only [State.setCall, update_self]
      exact h
    · simp only [State.setCall, update_of_ne (Ne.symm hji)]
      exact h
  | wake _ => exact (List.append_nil accesses).symm ▸ h
  | @pollRead j aborted stats _ =>
    obtain ⟨w, hw, -⟩ := st.pollRead_world j aborted stats
    rw [hw]
    exact (List.append_nil accesses).symm ▸ h
  | pollWrite _ => exact (List.append_nil accesses).symm ▸ h

/-- What the program ensures for all answers holds when its call has returned. -/
theorem returned_of_obeys [Texts] {i : ι} {st₀ st : State ι} {es : List (Event ι)}
    {r : Except TunnelError ConnectionSnapshot}
    (hprogram : (program i req).Obeys pre upd post v) (hidle : st₀.calls i = .idle)
    (hrun : run step st₀ es = some st) (hret : st.calls i = .returned req r) :
    post r (view upd v (trace i st₀ es)) := by
  have hfollowed : Followed pre upd post v req (st.calls i) (trace i st₀ es) := by
    refine run_reached (I := fun es st => Followed pre upd post v req (st.calls i) (trace i st₀ es))
      ?_ ?_ (Meets.of_forall (fun _ _ => trivial) st₀ es) hrun
    · intro es u e u' hu h _ hstep
      rw [trace_concat e hu]
      exact h.step hprogram (step_moves hstep)
    · rw [hidle]
      rfl
  rw [hret] at hfollowed
  exact hfollowed rfl

end Follow

end EasyConnection.Tunnel
