import EasyConnection.Async.Pump

/-! # What a selecting task writes

A task writes in bursts: one for each local read, and those of its reading future. As long as no
future is dropped in the middle of a burst, the stream is at every moment a sequence of whole
bursts, up to what is still to be written of the last one. A predicate says which bursts have
been written, and for which local reads, when the shared state is what it is.
-/
namespace EasyConnection.Async

namespace Reader
variable {τ σ α : Type*} (P : List (List UInt8) → σ → Prop) (writes : Prop)

/-- The future keeps to `P` from the bursts `bs` on. It writes only if `writes` holds. -/
def Logs : Reader τ σ α → List (List UInt8) → Prop
  | .done _, _ => True
  | .read _ n eof k, bs => eof.Logs bs ∧ ∀ got, got.length = n → (k got).Logs bs
  | .write out k, bs => writes ∧ (∀ s, P bs s → P (bs ++ [out]) s) ∧
      (k true).Logs (bs ++ [out]) ∧ (k false).Logs bs
  | .get k, bs => ∀ s, P bs s → (k s).Logs bs
  | .set s next, bs => P bs s ∧ next.Logs bs

/-- What is still to be written of a burst. -/
def unwritten : Reader τ σ α → List UInt8
  | .write out _ => out
  | _ => []

variable {P writes}

theorem Logs.settle {r : Reader τ σ α} {s : σ} {bs : List (List UInt8)} (h : r.Logs P writes bs)
    (hs : P bs s) :
    ∃ bs', P bs' (r.settle s).1 ∧ (r.settle s).2.Logs P writes bs' ∧ bs'.flatten = bs.flatten := by
  induction r generalizing s bs with
  | done a => exact ⟨bs, hs, h, rfl⟩
  | read label n eof k _ ih =>
    cases n with
    | zero => exact ih [] (h.2 [] rfl) hs
    | succ n => exact ⟨bs, hs, h, rfl⟩
  | write out k ih =>
    cases out with
    | nil =>
      obtain ⟨bs', hs', hlogs, hflat⟩ := ih true h.2.2.1 (h.2.1 s hs)
      rw [List.flatten_append, List.flatten_singleton, List.append_nil] at hflat
      exact ⟨bs', hs', hlogs, hflat⟩
    | cons b out => exact ⟨bs, hs, h, rfl⟩
  | get k ih => exact ih s (h s hs) hs
  | set s' next ih => exact ih h.2 h.1

end Reader

namespace Pump
variable {τ σ α ε : Type*} (M : Pump τ σ α ε)
  (P : List (List UInt8) → List (List UInt8) → σ → Prop) (writes : Prop)

/-- `P ds bs s` says that, with `s` for the shared state, `ds` has been read from the local side
and `bs` has been written. -/
structure Logged : Prop where
  start : ∀ ds bs, M.start.Logs (P ds) writes bs
  onLocal : ∀ {ds bs : List (List UInt8)} {s : σ} {data : List UInt8}, data ≠ [] →
    data.length ≤ M.bufLen → P ds bs s →
    ∃ p, M.onLocal s data = .ok p ∧ P (ds ++ [data]) (bs ++ [p.2]) p.1

/-- Of the bursts `bs`, all is written but `rest`, which belongs to the last one. -/
def Wrote (bs : List (List UInt8)) (rest : List UInt8) (st : State τ σ α ε) : Prop :=
  st.outbound ++ rest = bs.flatten ∧ (rest = [] ∨ ∃ last, bs.getLast? = some last ∧ rest <:+ last)

/-- What is still to be written of the burst that is being written. -/
def Phase.unwritten : Phase τ σ α ε → List UInt8
  | .selecting r _ => r.unwritten
  | .sending out => out
  | _ => []

/-- The reading future writes, and a part has been accepted. -/
def Phase.midway : Phase τ σ α ε → Bool
  | .selecting (.write _ _) got => !got.isEmpty
  | _ => false

/-- When a part of what the reading future writes has been accepted, it is not dropped for a local
read, and its write does not fail. -/
def Steady (st : State τ σ α ε) : Event → Bool
  | .localRead _ => !st.phase.midway
  | .refuse => !st.phase.midway
  | _ => true

def Event.localBytes : Event → List (List UInt8)
  | .localRead data => [data]
  | _ => []

/-- The bursts `bs` are written up to what the phase still has to write. A burst of the reading
future counts from its first byte on. -/
def Written (ds bs : List (List UInt8)) (st : State τ σ α ε) : Prop :=
  match st.phase with
  | .selecting r _ => if st.phase.midway then
      ∃ out k, r = .write out k ∧ writes ∧ (k true).Logs (P ds) writes bs ∧ Wrote bs out st
    else r.Logs (P ds) writes bs ∧ Wrote bs [] st
  | .sending out => Wrote bs out st
  | .delivering _ => Wrote bs [] st
  | .ended _ => ∃ rest, Wrote bs rest st

def OutInv (ds : List (List UInt8)) (st : State τ σ α ε) : Prop :=
  ∃ bs, P ds bs st.shared ∧ Written P writes ds bs st

variable {M P writes} {ds bs : List (List UInt8)} {st st' : State τ σ α ε}

theorem Wrote.done (h : Wrote bs [] st) : st.outbound = bs.flatten := by
  simpa using h.1

theorem wrote_nil (h : st.outbound = bs.flatten) : Wrote bs [] st :=
  ⟨by simpa using h, .inl rfl⟩

/-- Some of the rest is accepted. -/
theorem Wrote.accept {out : List UInt8} (h : Wrote bs out st) (n : ℕ) :
    Wrote bs (out.drop n) { st with outbound := st.outbound ++ out.take n } := by
  obtain ⟨hflat, hlast⟩ := h
  refine ⟨by simpa using hflat, ?_⟩
  obtain rfl | ⟨last, hbs, hsuffix⟩ := hlast
  · exact .inl (by simp)
  · exact .inr ⟨last, hbs, (List.drop_suffix n out).trans hsuffix⟩

/-- A future that has had nothing accepted. -/
theorem OutInv.selecting {r : Reader τ σ α} (hs : P ds bs st.shared)
    (hphase : st.phase = .selecting r []) (hlogs : r.Logs (P ds) writes bs)
    (hout : st.outbound = bs.flatten) : OutInv P writes ds st := by
  have hmidway : st.phase.midway = false := by
    rw [hphase]
    cases r <;> rfl
  refine ⟨bs, hs, ?_⟩
  simp only [Written, hphase] at hmidway ⊢
  rw [if_neg (by rw [hmidway]; decide)]
  exact ⟨hlogs, wrote_nil hout⟩

section Turn
variable (hM : M.Logged P writes)
include hM

theorem outInv_fresh (hs : P ds bs st.shared) (hout : st.outbound = bs.flatten) :
    OutInv P writes ds (st.fresh M) := by
  obtain ⟨bs', hs', hlogs, hflat⟩ := (hM.start ds bs).settle hs
  exact .selecting hs' rfl hlogs (hout.trans hflat.symm)

theorem outInv_hand (data : List UInt8) (hs : P ds bs st.shared) (hout : st.outbound = bs.flatten) :
    OutInv P writes ds (st.hand M data) := by
  unfold State.hand
  split_ifs with hdata
  · exact outInv_fresh hM hs hout
  · exact ⟨bs, hs, wrote_nil hout⟩

theorem outInv_send {out : List UInt8} (hs : P ds bs st.shared) (hwrote : Wrote bs out st) :
    OutInv P writes ds (st.send M out) := by
  unfold State.send
  split_ifs with hnil
  · subst hnil
    exact outInv_fresh hM hs hwrote.done
  · exact ⟨bs, hs, hwrote⟩

theorem outInv_judge (a : α) (hs : P ds bs st.shared) (hout : st.outbound = bs.flatten) :
    OutInv P writes ds (st.judge M a) := by
  unfold State.judge
  cases M.verdict a with
  | again => exact outInv_fresh hM hs hout
  | deliver data => exact outInv_hand hM data hs hout
  | stop why => exact ⟨bs, hs, [], wrote_nil hout⟩

theorem outInv_proceed {r : Reader τ σ α} (hr : r.Logs (P ds) writes bs) (hs : P ds bs st.shared)
    (hout : st.outbound = bs.flatten) : OutInv P writes ds (st.proceed M r) := by
  obtain ⟨bs', hs', hlogs, hflat⟩ := hr.settle hs
  unfold State.proceed
  dsimp only
  split
  · exact outInv_judge hM _ hs' (hout.trans hflat.symm)
  · exact .selecting hs' rfl hlogs (hout.trans hflat.symm)

theorem outInv_localRead {data : List UInt8} (hne : data ≠ []) (hle : data.length ≤ M.bufLen)
    (hs : P ds bs st.shared) (hout : st.outbound = bs.flatten) :
    OutInv P writes (ds ++ [data]) (st.localRead M data) := by
  obtain ⟨p, hp, hs'⟩ := hM.onLocal hne hle hs
  simp only [State.localRead, hp]
  refine outInv_send hM hs' ⟨by simp [hout], .inr ⟨p.2, by simp, List.suffix_refl _⟩⟩

end Turn

/-- A future of which nothing has been accepted leaves whole bursts. -/
theorem OutInv.settled {r : Reader τ σ α} {got : List UInt8} (h : OutInv P writes ds st)
    (hphase : st.phase = .selecting r got) (hsteady : writes → st.phase.midway = false) :
    ∃ bs, P ds bs st.shared ∧ r.Logs (P ds) writes bs ∧ st.outbound = bs.flatten := by
  obtain ⟨bs, hs, hwritten⟩ := h
  simp only [Written, hphase] at hwritten hsteady
  split_ifs at hwritten with hmidway
  · obtain ⟨_, _, _, hwrites, _⟩ := hwritten
    exact absurd hmidway (by rw [hsteady hwrites]; decide)
  · exact ⟨bs, hs, hwritten.1, hwritten.2.done⟩

/-- While the future writes, its burst counts. -/
theorem OutInv.writing {out : List UInt8} {k : Bool → Reader τ σ α} {got : List UInt8}
    (h : OutInv P writes ds st) (hphase : st.phase = .selecting (.write out k) got) :
    ∃ bs, P ds bs st.shared ∧ writes ∧ (k true).Logs (P ds) writes bs ∧ Wrote bs out st := by
  obtain ⟨bs, hs, hwritten⟩ := h
  simp only [Written, hphase] at hwritten
  split_ifs at hwritten
  · obtain ⟨out', k', heq, hrest⟩ := hwritten
    cases heq
    exact ⟨bs, hs, hrest⟩
  · obtain ⟨⟨hwrites, hout, htrue, _⟩, hwrote⟩ := hwritten
    refine ⟨bs ++ [out], hout _ hs, hwrites, htrue, ?_, .inr ⟨out, by simp, List.suffix_refl out⟩⟩
    simp [hwrote.done]

/-- At every moment the stream holds the bursts up to a rest of the last one, which is what the
task is still writing. Only a task that has ended may have left a rest behind. -/
theorem OutInv.wrote (h : OutInv P writes ds st) :
    ∃ bs rest, P ds bs st.shared ∧ Wrote bs rest st ∧
      ((∀ why, st.phase ≠ .ended why) → rest = st.phase.unwritten) := by
  cases hp : st.phase with
  | selecting r got =>
    cases r with
    | write out k =>
      obtain ⟨bs, hs, _, _, hwrote⟩ := h.writing hp
      exact ⟨bs, out, hs, hwrote, fun _ => rfl⟩
    | _ =>
      obtain ⟨bs, hs, _, hout⟩ := h.settled hp fun _ => by rw [hp]; rfl
      exact ⟨bs, [], hs, wrote_nil hout, fun _ => rfl⟩
  | sending out =>
    obtain ⟨bs, hs, hwritten⟩ := h
    simp only [Written, hp] at hwritten
    exact ⟨bs, out, hs, hwritten, fun _ => rfl⟩
  | delivering data =>
    obtain ⟨bs, hs, hwritten⟩ := h
    simp only [Written, hp] at hwritten
    exact ⟨bs, [], hs, hwritten, fun _ => rfl⟩
  | ended why =>
    obtain ⟨bs, hs, hwritten⟩ := h
    simp only [Written, hp] at hwritten
    obtain ⟨rest, hwrote⟩ := hwritten
    exact ⟨bs, rest, hs, hwrote, fun hnot => absurd rfl (hnot why)⟩

/-- Every such step keeps the invariant, with the local read of the step added. -/
theorem outInv_step (hM : M.Logged P writes) {e : Event} (h : OutInv P writes ds st)
    (hsteady : writes → Steady st e = true) (hstep : M.step st e = some st') :
    OutInv P writes (ds ++ e.localBytes) st' := by
  cases M.stepped_of_step hstep with
  | localRead hp hne hle =>
    obtain ⟨bs, hs, _, hout⟩ := h.settled hp
      (by simpa only [Steady, Bool.not_eq_true'] using hsteady)
    exact outInv_localRead hM hne hle hs hout
  | arrive | close =>
    simp only [Event.localBytes, List.append_nil]
    exact h
  | take hp hn hle =>
    simp only [Event.localBytes, List.append_nil]
    obtain ⟨bs, hs, hlogs, hout⟩ := h.settled hp (by simp [hp, Phase.midway])
    unfold State.takeInto
    split_ifs with hfull
    · exact outInv_proceed hM (hlogs.2 _ hfull) hs hout
    · refine ⟨bs, hs, ?_⟩
      simp only [Written, Phase.midway, Bool.false_eq_true, if_false]
      exact ⟨hlogs, wrote_nil hout⟩
  | eof hp hclosed hempty =>
    simp only [Event.localBytes, List.append_nil]
    obtain ⟨bs, hs, hlogs, hout⟩ := h.settled hp (by simp [hp, Phase.midway])
    exact outInv_proceed hM hlogs.1 hs hout
  | @acceptAll out k got hp =>
    simp only [Event.localBytes, List.append_nil]
    obtain ⟨bs, hs, _, hlogs, hwrote⟩ := h.writing hp
    have hwrote' := hwrote.accept out.length
    rw [List.drop_length] at hwrote'
    exact outInv_proceed hM hlogs hs hwrote'.done
  | @acceptSome n out k got hp hpos hlt =>
    simp only [Event.localBytes, List.append_nil]
    obtain ⟨bs, hs, hwrites, hlogs, hwrote⟩ := h.writing hp
    have hmidway : (!(got ++ out.take n).isEmpty) = true := by
      rw [Bool.not_eq_true', List.isEmpty_eq_false_iff, ne_eq, List.append_eq_nil_iff,
        List.take_eq_nil_iff]
      rintro ⟨-, rfl | rfl⟩
      · exact absurd hpos (Nat.lt_irrefl 0)
      · exact absurd hlt (Nat.not_lt_zero n)
    refine ⟨bs, hs, ?_⟩
    simp only [Written, Phase.midway, hmidway, if_true]
    exact ⟨_, k, rfl, hwrites, hlogs, hwrote.accept n⟩
  | @acceptSent n out hp =>
    simp only [Event.localBytes, List.append_nil]
    obtain ⟨bs, hs, hwritten⟩ := h
    simp only [Written, hp] at hwritten
    exact outInv_send hM hs (hwritten.accept n)
  | refuse hp =>
    simp only [Event.localBytes, List.append_nil]
    obtain ⟨bs, hs, hlogs, hout⟩ := h.settled hp
      (by simpa only [Steady, Bool.not_eq_true'] using hsteady)
    exact outInv_proceed hM hlogs.2.2.2 hs hout
  | @refuseSent out hp =>
    simp only [Event.localBytes, List.append_nil]
    obtain ⟨bs, hs, hwritten⟩ := h
    simp only [Written, hp] at hwritten
    exact ⟨bs, hs, out, hwritten⟩
  | localEof hp =>
    simp only [Event.localBytes, List.append_nil]
    obtain ⟨bs, rest, hs, hwrote, -⟩ := h.wrote
    exact ⟨bs, hs, rest, hwrote⟩
  | deliver hp =>
    simp only [Event.localBytes, List.append_nil]
    obtain ⟨bs, hs, hwritten⟩ := h
    simp only [Written, hp] at hwritten
    exact outInv_hand hM _ hs hwritten.done
  | localGone hp =>
    simp only [Event.localBytes, List.append_nil]
    obtain ⟨bs, hs, hwritten⟩ := h
    simp only [Written, hp] at hwritten
    exact ⟨bs, hs, [], hwritten⟩

/-- **Outbound integrity.** After every run the stream holds the bursts of the local reads of
that run, as `P` gives them. -/
theorem outbound_integrity (hM : M.Logged P writes) {s : σ} {wire : List UInt8} (hs : P [] [] s)
    {es : List Event}
    (hsteady : Meets M.step (fun st e => writes → Steady st e = true) (M.initial s wire) es)
    (hrun : run M.step (M.initial s wire) es = some st) :
    ∃ bs rest, P (es.flatMap Event.localBytes) bs st.shared ∧ Wrote bs rest st ∧
      ((∀ why, st.phase ≠ .ended why) → rest = st.phase.unwritten) := by
  have hinit : OutInv P writes [] (M.initial s wire) := outInv_fresh hM hs rfl
  have h := run_history (I := fun es => OutInv P writes (es.flatMap Event.localBytes))
    (fun past st e st' hI hok hstep => by
      rw [List.flatMap_append, List.flatMap_singleton]
      exact outInv_step hM hI hok hstep) hinit hsteady hrun
  exact h.wrote

/-- A task whose future begins with a read can take any local reads, one after the other, and
write them out. -/
theorem exists_run_localReads (hM : M.Logged P writes)
    (hwaits : ∀ s, ∃ label n eof k, (M.start.settle s).2 = .read label (n + 1) eof k)
    (ds : List (List UInt8)) (hds : ∀ d ∈ ds, d ≠ [] ∧ d.length ≤ M.bufLen) {past bs}
    {t : State τ σ α ε} (hs : P past bs t.shared) :
    ∃ es st', run M.step (t.fresh M) es = some st' ∧ es.flatMap Event.localBytes = ds ∧
      ∃ r, st'.phase = .selecting r [] ∧ r.unwritten = [] := by
  induction ds generalizing t past bs with
  | nil =>
    obtain ⟨label, n, eof, k, hread⟩ := hwaits t.shared
    exact ⟨[], _, rfl, rfl, _, rfl, by rw [hread]; rfl⟩
  | cons d ds ih =>
    obtain ⟨hne, hle⟩ := hds d List.mem_cons_self
    obtain ⟨bs', hs', _⟩ := (hM.start past bs).settle hs
    obtain ⟨p, hp, hs''⟩ := hM.onLocal hne hle hs'
    have htake : M.step (t.fresh M) (.localRead d) =
        some ({ t.fresh M with shared := p.1 }.send M p.2) := by
      simp only [step, State.fresh, if_pos (And.intro hne hle), State.localRead, hp]
    by_cases hnil : p.2 = []
    · rw [State.send, if_pos hnil] at htake
      obtain ⟨es, st', hrun, hreads, hphase⟩ :=
        ih (fun d' hd' => hds d' (List.mem_cons_of_mem _ hd'))
          (t := { t.fresh M with shared := p.1 }) hs''
      refine ⟨.localRead d :: es, st', ?_, by simp [Event.localBytes, hreads], hphase⟩
      rw [run_cons, htake]
      exact hrun
    · rw [State.send, if_neg hnil] at htake
      obtain ⟨es, st', hrun, hreads, hphase⟩ :=
        ih (fun d' hd' => hds d' (List.mem_cons_of_mem _ hd'))
          (t := { t.fresh M with
            shared := p.1, phase := .sending p.2, outbound := t.outbound ++ p.2 }) hs''
      refine ⟨.localRead d :: .accept p.2.length :: es, st', ?_,
        by simp [Event.localBytes, hreads], hphase⟩
      have hpos : 0 < p.2.length ∧ p.2.length ≤ p.2.length :=
        ⟨List.length_pos_iff.2 hnil, Nat.le_refl _⟩
      rw [run_cons, htake, Option.bind_some, run_cons]
      simp only [step, if_pos hpos, List.take_length, List.drop_length, State.send, if_true,
        Option.bind_some]
      exact hrun

end Pump

end EasyConnection.Async
