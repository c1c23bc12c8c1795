import EasyConnection.Async.Run
import EasyConnection.Codec.Usize

/-! # The pool of idle transports

Streams that are already connected wait in a queue. `take` gives out the first that is young enough
and starts a background dial to replace it; the executions of `fill_one` look at the queue, count
themselves, dial, and only then push. They are interleaved at their await points: the lock of the
queue is never held across one.
-/
namespace EasyConnection.Transport.Pool
open Async Codec

section Model

/-- In nanoseconds. -/
def maxIdleAge : ℕ := 25000000000

/-- Where an execution of `fill_one` waits. -/
inductive Filler where
  /-- For the lock, before its first look at the queue. -/
  | start
  | dialing
  /-- For the lock, with its stream. -/
  | pushing (stream : ℕ)
  | done
  deriving DecidableEq

/-- A stream that `take` has returned, when it had been queued if it came from the pool, and
when it was returned. -/
structure Handed where
  stream : ℕ
  queued : Option ℕ
  returned : ℕ
  deriving DecidableEq

/-- Streams are numbered in the order of the dials that made them. `taking` is the number of
executions of `take` that dial for themselves. `underflow` is set by a decrement of zero. -/
structure State where
  clock : ℕ
  idle : List (ℕ × ℕ)
  filling : ℕ
  underflow : Bool
  fillers : List Filler
  taking : ℕ
  handed : List Handed
  next : ℕ
  deriving DecidableEq

/-- `IdlePool::new` -/
def State.new (clock : ℕ) : State := ⟨clock, [], 0, false, [], 0, [], 0⟩

inductive Event where
  | tick (elapsed : ℕ)
  | take
  /-- The dial of a `take` ends. -/
  | taken (up : Bool)
  | fill (n : ℕ)
  /-- Up to the dial of `fill_one`. -/
  | check (i : ℕ)
  | dialed (i : ℕ) (up : Bool)
  | push (i : ℕ)
  deriving DecidableEq

/-- Streams that are too old are dropped on the way. -/
def popFresh (now : ℕ) : List (ℕ × ℕ) → Option (ℕ × ℕ) × List (ℕ × ℕ)
  | [] => (none, [])
  | (since, stream) :: q =>
    if now - since < maxIdleAge then (some (since, stream), q) else popFresh now q

namespace State
variable (st : State)

def setFiller (i : ℕ) (f : Filler) : State := { st with fillers := st.fillers.set i f }

def spawnFill : State := { st with fillers := st.fillers ++ [.start] }

/-- The counter stays below the number of tasks, so an increment does not overflow. -/
def fetchAdd : State := { st with filling := st.filling + 1 }

def fetchSub : State :=
  if st.filling = 0 then { st with filling := usizeBound - 1, underflow := true }
  else { st with filling := st.filling - 1 }

def take : State :=
  match popFresh st.clock st.idle with
  | (some (since, stream), idle) =>
    spawnFill { st with idle := idle, handed := st.handed ++ [⟨stream, some since, st.clock⟩] }
  | (none, idle) => spawnFill { st with idle := idle, taking := st.taking + 1 }

def taken (up : Bool) : State :=
  if up then
    { st with
      taking := st.taking - 1
      handed := st.handed ++ [⟨st.next, none, st.clock⟩]
      next := st.next + 1 }
  else { st with taking := st.taking - 1 }

def check (maxIdle i : ℕ) : State :=
  if maxIdle ≤ st.idle.length then st.setFiller i .done
  else if maxIdle ≤ st.filling then st.fetchAdd.fetchSub.setFiller i .done
  else st.fetchAdd.setFiller i .dialing

def dialed (i : ℕ) (up : Bool) : State :=
  if up then setFiller { st.fetchSub with next := st.next + 1 } i (.pushing st.next)
  else st.fetchSub.setFiller i .done

def push (maxIdle i stream : ℕ) : State :=
  if st.idle.length < maxIdle then
    setFiller { st with idle := st.idle ++ [(st.clock, stream)] } i .done
  else st.setFiller i .done

end State

def step (maxIdle : ℕ) (st : State) : Event → Option State
  | .tick elapsed => some { st with clock := st.clock + elapsed }
  | .take => some st.take
  | .taken up => if st.taking = 0 then none else some (st.taken up)
  | .fill n => some { st with fillers := st.fillers ++ List.replicate n .start }
  | .check i =>
    match st.fillers[i]? with
    | some .start => some (st.check maxIdle i)
    | _ => none
  | .dialed i up =>
    match st.fillers[i]? with
    | some .dialing => some (st.dialed i up)
    | _ => none
  | .push i =>
    match st.fillers[i]? with
    | some (.pushing stream) => some (st.push maxIdle i stream)
    | _ => none

end Model

section Streams

def Filler.isDialing : Filler → Bool
  | .dialing => true
  | _ => false

def Filler.stream : Filler → Option ℕ
  | .pushing stream => some stream
  | _ => none

/-- How often a stream is in the pool, about to be pushed, or given out. -/
def State.places (st : State) (stream : ℕ) : ℕ :=
  (st.idle.map Prod.snd).count stream + (st.fillers.filterMap Filler.stream).count stream +
    (st.handed.map Handed.stream).count stream

/-- A queue that `take` has looked through. -/
theorem popFresh_sublist (now : ℕ) (q : List (ℕ × ℕ)) :
    ((popFresh now q).1.toList ++ (popFresh now q).2).Sublist q := by
  induction q with
  | nil => exact .slnil
  | cons p q ih =>
    obtain ⟨since, stream⟩ := p
    rw [popFresh]
    split_ifs
    · exact List.Sublist.refl _
    · exact ih.cons _

theorem popFresh_age {now : ℕ} {q : List (ℕ × ℕ)} {p : ℕ × ℕ} (h : (popFresh now q).1 = some p) :
    now < p.1 + maxIdleAge := by
  induction q with
  | nil => cases h
  | cons p' q ih =>
    obtain ⟨since, stream⟩ := p'
    rw [popFresh] at h
    split_ifs at h with hage
    · obtain rfl := Option.some.inj h
      omega
    · exact ih h

theorem exists_of_getElem? {α : Type} {l : List α} {i : ℕ} {a : α} (h : l[i]? = some a) (b : α) :
    ∃ before after, l = before ++ a :: after ∧ l.set i b = before ++ b :: after := by
  obtain ⟨hi, rfl⟩ := List.getElem?_eq_some_iff.1 h
  obtain ⟨before, after, hl, -, hset⟩ := List.exists_of_set hi
  exact ⟨before, after, hl, hset⟩

variable {st : State} {i : ℕ} {f : Filler}

theorem countP_setFiller (h : st.fillers[i]? = some f) (g : Filler) :
    (st.setFiller i g).fillers.countP Filler.isDialing + f.isDialing.toNat =
      st.fillers.countP Filler.isDialing + g.isDialing.toNat := by
  obtain ⟨before, after, hfillers, hset⟩ := exists_of_getElem? h g
  rw [State.setFiller, hset, hfillers, List.countP_append, List.countP_append, List.countP_cons,
    List.countP_cons]
  cases f.isDialing <;> cases g.isDialing <;> simp <;> omega

theorem places_setFiller (h : st.fillers[i]? = some f) (g : Filler) (stream : ℕ) :
    (st.setFiller i g).places stream + f.stream.toList.count stream =
      st.places stream + g.stream.toList.count stream := by
  obtain ⟨before, after, hfillers, hset⟩ := exists_of_getElem? h g
  have hone (f : Filler) : (f :: after).filterMap Filler.stream =
      f.stream.toList ++ after.filterMap Filler.stream := by
    cases hf : f.stream <;> simp [hf]
  simp only [State.places, State.setFiller, hset]
  rw [hfillers, List.filterMap_append, List.filterMap_append, hone, hone]
  simp only [List.count_append]
  omega

end Streams

section Sound
variable {maxIdle : ℕ} {st st' : State} {i : ℕ}

/-- What holds at every await point. -/
structure Sound (maxIdle : ℕ) (st : State) : Prop where
  idle_le : st.idle.length ≤ maxIdle
  filling_eq : st.filling = st.fillers.countP Filler.isDialing
  filling_le : st.filling ≤ maxIdle
  clean : st.underflow = false
  places_le : ∀ stream, st.places stream ≤ if stream < st.next then 1 else 0
  young : ∀ h ∈ st.handed, ∀ since ∈ h.queued, h.returned < since + maxIdleAge

theorem Sound.new (clock : ℕ) : Sound maxIdle (.new clock) :=
  ⟨Nat.zero_le _, rfl, Nat.zero_le _, rfl, fun _ => Nat.zero_le _, fun _ h => by cases h⟩

theorem Sound.spawn (h : Sound maxIdle st) (n : ℕ) :
    Sound maxIdle { st with fillers := st.fillers ++ List.replicate n .start } where
  idle_le := h.idle_le
  filling_eq := by
    have hnone : (List.replicate n Filler.start).countP Filler.isDialing = 0 := by
      simp [List.countP_replicate, Filler.isDialing]
    rw [List.countP_append, hnone]
    exact h.filling_eq
  filling_le := h.filling_le
  clean := h.clean
  places_le stream := by
    have hnone : (List.replicate n Filler.start).filterMap Filler.stream = [] := by
      simp [Filler.stream]
    have hsame : State.places { st with fillers := st.fillers ++ List.replicate n .start } stream =
        st.places stream := by
      rw [State.places, List.filterMap_append, hnone, List.append_nil]
      rfl
    rw [hsame]
    exact h.places_le stream
  young := h.young

theorem Sound.take (h : Sound maxIdle st) : Sound maxIdle st.take := by
  have hsublist := popFresh_sublist st.clock st.idle
  have hage : ∀ p, (popFresh st.clock st.idle).1 = some p → st.clock < p.1 + maxIdleAge :=
    fun p hp => popFresh_age hp
  unfold State.take
  generalize popFresh st.clock st.idle = popped at hsublist hage ⊢
  obtain ⟨found, idle⟩ := popped
  have hlength : idle.length ≤ maxIdle :=
    Nat.le_trans ((List.sublist_append_right _ _).trans hsublist).length_le h.idle_le
  have hcount (stream : ℕ) := (hsublist.map Prod.snd).count_le stream
  simp only [List.map_append, List.count_append] at hcount
  cases found with
  | none =>
    have hleft : Sound maxIdle { st with idle := idle, taking := st.taking + 1 } := by
      refine ⟨hlength, h.filling_eq, h.filling_le, h.clean, fun stream => ?_, h.young⟩
      have hplaces := h.places_le stream
      have hfewer := hcount stream
      simp only [State.places] at hplaces ⊢
      omega
    exact hleft.spawn 1
  | some p =>
    obtain ⟨since, stream⟩ := p
    have hleft : Sound maxIdle { st with
        idle := idle, handed := st.handed ++ [⟨stream, some since, st.clock⟩] } := by
      refine ⟨hlength, h.filling_eq, h.filling_le, h.clean, fun stream' => ?_, ?_⟩
      · have hplaces := h.places_le stream'
        have hfewer := hcount stream'
        simp only [State.places, List.map_append, List.count_append, List.map_cons, List.map_nil,
          Option.toList_some] at hplaces hfewer ⊢
        omega
      · refine List.forall_mem_append.2 ⟨h.young, List.forall_mem_singleton.2 ?_⟩
        intro since' hsince'
        obtain rfl := Option.some.inj hsince'
        exact hage _ rfl
    exact hleft.spawn 1

theorem Sound.taken (h : Sound maxIdle st) (up : Bool) : Sound maxIdle (st.taken up) := by
  unfold State.taken
  cases up with
  | false => exact ⟨h.idle_le, h.filling_eq, h.filling_le, h.clean, h.places_le, h.young⟩
  | true =>
    refine ⟨h.idle_le, h.filling_eq, h.filling_le, h.clean, fun stream => ?_, ?_⟩
    · have hplaces := h.places_le stream
      simp only [State.places, if_true, List.map_append, List.count_append, List.map_cons,
        List.map_nil, List.count_singleton, beq_iff_eq] at hplaces ⊢
      split_ifs at hplaces ⊢ <;> omega
    · refine List.forall_mem_append.2 ⟨h.young, List.forall_mem_singleton.2 ?_⟩
      intro since hsince
      cases hsince

theorem Sound.done (h : Sound maxIdle st) {f : Filler} (hi : st.fillers[i]? = some f)
    (hf : f.isDialing = false) : Sound maxIdle (st.setFiller i .done) := by
  refine ⟨h.idle_le, ?_, h.filling_le, h.clean, fun stream => ?_, h.young⟩
  · have hcount := countP_setFiller hi .done
    rw [hf] at hcount
    exact h.filling_eq.trans hcount.symm
  · have hplaces := places_setFiller hi .done stream
    exact Nat.le_trans (Nat.le_of_add_right_le (Nat.le_of_eq hplaces)) (h.places_le stream)

@[simp] theorem fetchSub_fetchAdd (st : State) : st.fetchAdd.fetchSub = st := rfl

theorem Sound.check (h : Sound maxIdle st) (hi : st.fillers[i]? = some .start) :
    Sound maxIdle (st.check maxIdle i) := by
  unfold State.check
  rw [fetchSub_fetchAdd]
  split_ifs with hidle hfilling
  · exact h.done hi rfl
  · exact h.done hi rfl
  · have hcount := countP_setFiller hi .dialing
    have hplaces := places_setFiller hi .dialing
    refine ⟨h.idle_le, ?_, Nat.lt_of_not_le hfilling, h.clean, fun stream => ?_, h.young⟩
    · exact (congrArg Nat.succ h.filling_eq).trans hcount.symm
    · exact Nat.le_trans (Nat.le_of_eq (hplaces stream)) (h.places_le stream)

/-- A dial in progress has been counted. -/
theorem Sound.fetchSub_eq (h : Sound maxIdle st) (hi : st.fillers[i]? = some .dialing) :
    0 < st.filling ∧ st.fetchSub = { st with filling := st.filling - 1 } := by
  have hpos : 0 < st.filling := by
    rw [h.filling_eq]
    exact List.countP_pos_iff.2 ⟨_, List.mem_of_getElem? hi, rfl⟩
  exact ⟨hpos, if_neg (Nat.ne_of_gt hpos)⟩

theorem Sound.dialed (h : Sound maxIdle st) (hi : st.fillers[i]? = some .dialing) (up : Bool) :
    Sound maxIdle (st.dialed i up) := by
  obtain ⟨hpos, hsub⟩ := h.fetchSub_eq hi
  have hle : st.filling - 1 ≤ maxIdle := Nat.le_trans (Nat.sub_le _ _) h.filling_le
  have hfilling := h.filling_eq
  unfold State.dialed
  rw [hsub]
  cases up with
  | false =>
    have hcount := countP_setFiller hi .done
    have hplaces := places_setFiller hi .done
    refine ⟨h.idle_le, Nat.sub_eq_of_eq_add (hfilling.trans hcount.symm), hle, h.clean,
      fun stream => ?_, h.young⟩
    exact Nat.le_trans (Nat.le_of_eq (hplaces stream)) (h.places_le stream)
  | true =>
    have hcount := countP_setFiller hi (.pushing st.next)
    refine ⟨h.idle_le, Nat.sub_eq_of_eq_add (hfilling.trans hcount.symm), hle, h.clean,
      fun stream => ?_, h.young⟩
    have hplaces := places_setFiller hi (.pushing st.next) stream
    have hold := h.places_le stream
    simp only [Filler.stream, Option.toList_some, Option.toList_none, List.count_nil,
      List.count_singleton, beq_iff_eq] at hplaces
    refine Nat.le_trans (Nat.le_of_eq hplaces) ?_
    show _ ≤ if stream < st.next + 1 then 1 else 0
    split_ifs at hold ⊢ <;> omega

theorem Sound.push (h : Sound maxIdle st) {stream : ℕ}
    (hi : st.fillers[i]? = some (.pushing stream)) : Sound maxIdle (st.push maxIdle i stream) := by
  unfold State.push
  split_ifs with hidle
  · have hcount := countP_setFiller hi .done
    refine ⟨?_, h.filling_eq.trans hcount.symm, h.filling_le, h.clean, fun stream' => ?_, h.young⟩
    · exact Nat.le_trans (Nat.le_of_eq List.length_append) hidle
    · have hplaces := places_setFiller hi .done stream'
      refine Nat.le_trans ?_ (h.places_le stream')
      simp only [State.places, State.setFiller, List.map_append, List.count_append,
        List.map_cons, List.map_nil] at hplaces ⊢
      simp only [Filler.stream, Option.toList_some, Option.toList_none, List.count_nil] at hplaces
      omega
  · exact h.done hi rfl

theorem Sound.step (h : Sound maxIdle st) {e : Event} (hstep : step maxIdle st e = some st') :
    Sound maxIdle st' := by
  cases e with
  | tick elapsed =>
    obtain rfl := Option.some.inj hstep
    exact ⟨h.idle_le, h.filling_eq, h.filling_le, h.clean, h.places_le, h.young⟩
  | take => exact Option.some.inj hstep ▸ h.take
  | taken up =>
    rw [Pool.step] at hstep
    split_ifs at hstep
    exact Option.some.inj hstep ▸ h.taken up
  | fill n => exact Option.some.inj hstep ▸ h.spawn n
  | check i =>
    rw [Pool.step] at hstep
    split at hstep
    case h_1 hi => exact Option.some.inj hstep ▸ h.check hi
    case h_2 => cases hstep
  | dialed i up =>
    rw [Pool.step] at hstep
    split at hstep
    case h_1 hi => exact Option.some.inj hstep ▸ h.dialed hi up
    case h_2 => cases hstep
  | push i =>
    rw [Pool.step] at hstep
    split at hstep
    case h_1 stream hi => exact Option.some.inj hstep ▸ h.push hi
    case h_2 => cases hstep

theorem Sound.run {clock : ℕ} {es : List Event}
    (hrun : run (Pool.step maxIdle) (.new clock) es = some st) : Sound maxIdle st :=
  run_invariant (fun _ _ _ h _ hstep => h.step hstep) (Sound.new clock)
    (Meets.of_forall (fun _ _ => trivial) _ _) hrun

theorem Sound.nodup (h : Sound maxIdle st) : (st.handed.map Handed.stream).Nodup := by
  rw [List.nodup_iff_count]
  intro stream
  have hplaces := h.places_le stream
  simp only [State.places] at hplaces
  split_ifs at hplaces <;> omega

end Sound

/-- The capacity is checked before the dial and again before the push; in between, the counter
bounds the dials and not the queue. -/
theorem idle_pool_sound (capacity clock : ℕ) {es : List Event} {st : State}
    (hrun : run (step (max capacity 1)) (.new clock) es = some st) :
    st.idle.length ≤ max capacity 1 ∧
      (st.handed.map Handed.stream).Nodup ∧
      (∀ h ∈ st.handed, ∀ since ∈ h.queued, h.returned < since + maxIdleAge) ∧
      st.fillers.countP Filler.isDialing ≤ max capacity 1 ∧
      st.underflow = false ∧
      ((∀ f ∈ st.fillers, f = .start ∨ f = .done) → st.filling = 0) := by
  have h := Sound.run hrun
  refine ⟨h.idle_le, h.nodup, h.young, h.filling_eq ▸ h.filling_le, h.clean, fun hfillers => ?_⟩
  rw [h.filling_eq, List.countP_eq_zero]
  intro f hf
  rcases hfillers f hf with rfl | rfl <;> decide

/-- Two dials overlap after the first has left the counter. Its stream takes the only place; the
other is dropped. -/
theorem second_stream_not_queued :
    ∃ st, run (step (max 0 1)) (.new 0) [.fill 3, .check 0, .check 1, .dialed 0 true, .check 2,
      .push 0, .dialed 2 true, .push 2, .tick 24000000000, .take, .take, .taken true] = some st ∧
    st.handed.map Handed.stream = [0, 2] ∧
    (∀ h ∈ st.handed, ∀ since ∈ h.queued, h.returned < since + maxIdleAge) ∧ st.filling = 0 := by
  have hrun : run (step (max 0 1)) (.new 0) [.fill 3, .check 0, .check 1, .dialed 0 true, .check 2,
      .push 0, .dialed 2 true, .push 2, .tick 24000000000, .take, .take, .taken true] =
      some ⟨24000000000, [], 0, false, [.done, .done, .done, .start, .start], 0,
        [⟨0, some 0, 24000000000⟩, ⟨2, none, 24000000000⟩], 3⟩ := by
    decide +kernel
  obtain ⟨-, -, hyoung, -, -, hzero⟩ := idle_pool_sound 0 0 hrun
  exact ⟨_, hrun, rfl, hyoung, hzero (by decide)⟩

end EasyConnection.Transport.Pool
