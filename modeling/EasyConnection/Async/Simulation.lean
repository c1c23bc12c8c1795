import EasyConnection.Async.Serial

/-! # Two levels of one service

The same programs over two worlds, of which one stands for the other. If every access keeps the
worlds related and gets the same answer from both, then whatever calls do over the one world,
interleaved in any way and with restarts in between, they do over the other.
-/
namespace EasyConnection.Async.Service

variable {ι Q Op R C V W X : Type} {Ans : Op → Type}

/-- The accesses of `T` are those of `S`, seen through `rel`. -/
structure Simulates (T : Service Q Op Ans R C V) (S : Service Q Op Ans R C W) (rel : V → W → Prop) :
    Prop where
  program : T.program = S.program
  effect : T.effect = S.effect
  ok : ∀ o c v w, rel v w → T.ok o c v → S.ok o c w
  exec : ∀ o c v w, rel v w → T.ok o c v →
    rel (T.exec o c v).1 (S.exec o c w).1 ∧ (T.exec o c v).2 = (S.exec o c w).2

variable [DecidableEq ι] {T : Service Q Op Ans R C V} {S : Service Q Op Ans R C W}
  {rel : V → W → Prop}

theorem Simulates.step (h : T.Simulates S rel) {v : V} {w : W} (hrel : rel v w) {n : ℕ}
    {calls : ι → Call Q Op Ans R} {e : SharedEvent ι Q C} {st : Shared ι Q Op Ans R V}
    (hstep : T.step ⟨v, n, calls⟩ e = some st) :
    ∃ w', S.step ⟨w, n, calls⟩ e = some ⟨w', st.version, st.calls⟩ ∧ rel st.world w' := by
  cases e with
  | call i req =>
    simp only [Service.step] at hstep ⊢
    cases hi : calls i with
    | idle =>
      simp only [hi, Option.some.injEq] at hstep ⊢
      subst hstep
      exact ⟨w, by rw [h.program], hrel⟩
    | _ =>
      simp only [hi] at hstep
      cases hstep
  | access i c =>
    simp only [Service.step] at hstep ⊢
    cases hi : calls i with
    | running req seen wrote o k =>
      simp only [hi, Option.ite_none_right_eq_some, Option.some.injEq] at hstep ⊢
      obtain ⟨hok, rfl⟩ := hstep
      obtain ⟨hrel', hans⟩ := h.exec o c v w hrel hok
      exact ⟨_, ⟨h.ok o c v w hrel hok, by rw [h.effect, hans]⟩, hrel'⟩
    | _ =>
      simp only [hi] at hstep
      cases hstep

theorem Simulates.run (h : T.Simulates S rel) {v : V} {w : W} (hrel : rel v w) {n : ℕ}
    {calls : ι → Call Q Op Ans R} {es : List (SharedEvent ι Q C)} {st : Shared ι Q Op Ans R V}
    (hrun : run T.step ⟨v, n, calls⟩ es = some st) :
    ∃ w', Async.run S.step ⟨w, n, calls⟩ es = some ⟨w', st.version, st.calls⟩ ∧
      rel st.world w' := by
  induction es generalizing v w n calls with
  | nil =>
    obtain rfl := Option.some.inj hrun
    exact ⟨w, rfl, hrel⟩
  | cons e es ih =>
    rw [run_cons, Option.bind_eq_some_iff] at hrun
    obtain ⟨st₁, hstep, hrun⟩ := hrun
    obtain ⟨w₁, hstep', hrel₁⟩ := h.step hrel hstep
    obtain ⟨w', hrun', hrel'⟩ := ih hrel₁ hrun
    exact ⟨w', by rw [run_cons, hstep', Option.bind_some, hrun'], hrel'⟩

/-- Lives of the process that serves, one after another: each begins by `start` in the world that
the one before has left, and may end at any point of its calls. The calls of each are returned as
they stood at its end. -/
def lives (S : Service Q Op Ans R C W) (start : X → W → W) :
    W → List (X × List (SharedEvent ι Q C)) → Option (List (ι → Call Q Op Ans R) × W)
  | w, [] => some ([], w)
  | w, (x, es) :: rest => do
    let st ← run S.step (initial (start x w)) es
    let (calls, w') ← lives S start st.world rest
    return (st.calls :: calls, w')

theorem Simulates.lives (h : T.Simulates S rel) {start : X → V → V} {start' : X → W → W}
    (hstart : ∀ x v w, rel v w → rel (start x v) (start' x w)) {v v' : V} {w : W} (hrel : rel v w)
    {ls : List (X × List (SharedEvent ι Q C))} {calls : List (ι → Call Q Op Ans R)}
    (hlives : T.lives start v ls = some (calls, v')) :
    ∃ w', S.lives start' w ls = some (calls, w') ∧ rel v' w' := by
  induction ls generalizing v w calls with
  | nil =>
    obtain ⟨rfl, rfl⟩ := Prod.mk.inj (Option.some.inj hlives)
    exact ⟨w, rfl, hrel⟩
  | cons l rest ih =>
    obtain ⟨x, es⟩ := l
    simp only [Service.lives, Option.bind_eq_bind, Option.bind_eq_some_iff, Option.pure_def,
      Option.some.injEq, Prod.mk.injEq] at hlives
    obtain ⟨st, hrun, ⟨calls', v₁⟩, hrest, rfl, rfl⟩ := hlives
    obtain ⟨w₁, hrun', hrel₁⟩ := h.run (hstart x v w hrel) hrun
    obtain ⟨w', hrest', hrel'⟩ := ih hrel₁ hrest
    refine ⟨w', ?_, hrel'⟩
    simp only [Service.lives, initial, hrun', hrest', Option.bind_eq_bind, Option.bind_some,
      Option.pure_def]

end EasyConnection.Async.Service
