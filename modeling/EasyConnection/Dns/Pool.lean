import EasyConnection.Async.Run
import EasyConnection.Dns.Exchange

/-! # The pool of DNS streams

The lookups share one stream to a server. A lookup that finds it keeps the lock until it has its
answer, and drops the stream if it gets none; a lookup that finds no stream opens one of its own,
and puts it in the place of the shared one when it has its answer. A stream that is shared is
therefore one whose answers have all been read.
-/
namespace EasyConnection.Dns
open Async

variable {ι : Type}

/-- Where a lookup is. -/
inductive Lookup (ι : Type) where
  | idle
  /-- It waits for the lock. -/
  | waiting (query : List UInt8) (host : String)
  /-- It holds the lock, and its exchange is over the shared stream. -/
  | reusing (query : List UInt8) (host : String) (stage : Stage)
  | connecting (query : List UInt8) (host : String)
  | fresh (query : List UInt8) (host : String) (stream : DnsStream ι) (stage : Stage)
  /-- It has its answer, and waits for the lock to share its stream. -/
  | storing (query : List UInt8) (host : String) (stream : DnsStream ι) (response : List UInt8)
  /-- The result, with the stream as it was when the answer had been read. -/
  | returned (query : List UInt8) (result : Option (List UInt8 × DnsStream ι))

structure Pool (ι : Type) where
  inner : Option (String × DnsStream ι)
  holder : Option ι
  lookups : ι → Lookup ι

inductive PoolEvent (ι : Type) where
  | exchange (i : ι) (query : List UInt8) (host : String)
  /-- A lookup that waits for the lock is given it. -/
  | lock (i : ι)
  /-- An exchange writes or reads some bytes. -/
  | transfer (i : ι) (n : ℕ)
  /-- A write, the flush or a read of an exchange fails. -/
  | fail (i : ι)
  | connect (i : ι) (server : Option Server)

namespace Pool

def initial : Pool ι := ⟨none, none, fun _ => .idle⟩

variable [DecidableEq ι] (p : Pool ι)

def setLookup (i : ι) (l : Lookup ι) : Pool ι := { p with lookups := Function.update p.lookups i l }

/-- The first part of a lookup, with the lock: it keeps the lock only for the shared stream. -/
def tryReuse (i : ι) (query : List UInt8) (host : String) : Pool ι :=
  match p.inner with
  | none => p.setLookup i (.connecting query host)
  | some (cachedHost, _) =>
    if cachedHost = host then
      match Stage.start query with
      | some stage => { p.setLookup i (.reusing query host stage) with holder := some i }
      | none => { p.setLookup i (.connecting query host) with inner := none }
    else { p.setLookup i (.connecting query host) with inner := none }

/-- What becomes of a lookup with the shared stream. -/
def reuse (i : ι) (query : List UInt8) (host : String) : Progress ι → Pool ι
  | .going stage s => { p.setLookup i (.reusing query host stage) with inner := some (host, s) }
  | .done response s =>
    { p.setLookup i (.returned query (some (response, s))) with
      inner := some (host, s), holder := none }
  | .failed => { p.setLookup i (.connecting query host) with inner := none, holder := none }

/-- What becomes of a lookup with a stream of its own. -/
def use (i : ι) (query : List UInt8) (host : String) : Progress ι → Pool ι
  | .going stage s => p.setLookup i (.fresh query host s stage)
  | .done response s => p.setLookup i (.storing query host s response)
  | .failed => p.setLookup i (.returned query none)

def step : PoolEvent ι → Option (Pool ι)
  | .exchange i query host =>
    match p.lookups i with
    | .idle => some (p.setLookup i (.waiting query host))
    | _ => none
  | .lock i =>
    if p.holder = none then
      match p.lookups i with
      | .waiting query host => some (p.tryReuse i query host)
      | .storing query host s response =>
        some { p.setLookup i (.returned query (some (response, s))) with inner := some (host, s) }
      | _ => none
    else none
  | .transfer i n =>
    match p.lookups i with
    | .reusing query host stage =>
      p.inner.bind fun cached => (cached.2.advance i n stage).map (p.reuse i query host)
    | .fresh query host s stage => (s.advance i n stage).map (p.use i query host)
    | _ => none
  | .fail i =>
    match p.lookups i with
    | .reusing query host _ => some (p.reuse i query host .failed)
    | .fresh query host _ _ => some (p.use i query host .failed)
    | _ => none
  | .connect i server =>
    match p.lookups i, server with
    | .connecting query _, none => some (p.setLookup i (.returned query none))
    | .connecting query host, some server =>
      match Stage.start query with
      | some stage => some (p.setLookup i (.fresh query host (.opened server) stage))
      | none => some (p.setLookup i (.returned query none))
    | _, _ => none

end Pool

section Invariant
variable {p p' : Pool ι} {i : ι} {query : List UInt8} {host : String}

/-- What holds of a lookup, whatever the others do. -/
def Lookup.Fine (i : ι) : Lookup ι → Prop
  | .fresh query _ s stage => ∃ queries, Mid i query queries s stage
  | .storing query _ s response => (∃ queries, Settled s queries) ∧ s.Answered i query response
  | .returned query (some (response, s)) => s.Answered i query response
  | _ => True

def Lookup.isReusing : Lookup ι → Bool
  | .reusing _ _ _ => true
  | _ => false

structure Pool.Inv (p : Pool ι) : Prop where
  lookups : ∀ i, (p.lookups i).Fine i
  /-- Only the holder of the lock uses the shared stream. -/
  alone : ∀ i, (p.lookups i).isReusing = true → p.holder = some i
  /-- The shared stream of the holder is in the middle of an exchange. -/
  held : ∀ i, p.holder = some i → ∃ query host stage s queries,
    p.lookups i = .reusing query host stage ∧ p.inner = some (host, s) ∧
      Mid i query queries s stage
  /-- Without a holder it is settled. -/
  settled : p.holder = none → ∀ host s, p.inner = some (host, s) → ∃ queries, Settled s queries

namespace Pool

theorem inv_initial : (initial : Pool ι).Inv where
  lookups _ := trivial
  alone _ h := by cases h
  held _ h := by cases h
  settled _ _ _ h := by cases h

variable [DecidableEq ι] {l : Lookup ι}

/-- A lookup goes on without the shared stream. -/
theorem Inv.setLookup (h : p.Inv) (hfine : l.Fine i) (hwas : (p.lookups i).isReusing = false)
    (hnow : l.isReusing = false) : (p.setLookup i l).Inv where
  lookups := (Function.forall_update_iff _ Lookup.Fine).2 ⟨hfine, fun j _ => h.lookups j⟩
  alone := by
    refine (Function.forall_update_iff _
      fun j (l : Lookup ι) => l.isReusing = true → p.holder = some j).2
        ⟨fun hreusing => ?_, fun j _ => h.alone j⟩
    rw [hnow] at hreusing
    cases hreusing
  held j hj := by
    obtain ⟨query, host, stage, s, queries, hlookup, hinner, hmid⟩ := h.held j hj
    have hi : j ≠ i := by
      rintro rfl
      rw [hlookup] at hwas
      cases hwas
    exact ⟨query, host, stage, s, queries, (Function.update_of_ne hi ..).trans hlookup, hinner, hmid⟩
  settled := h.settled

/-- A lookup takes the lock or gives it back, or uses the shared stream in between. -/
theorem Inv.locked (h : p.Inv) {inner : Option (String × DnsStream ι)} {holder : Option ι}
    (hfine : l.Fine i) (hfree : p.holder = none ∨ p.holder = some i)
    (hnew : (holder = none ∧ l.isReusing = false ∧
        ∀ host s, inner = some (host, s) → ∃ queries, Settled s queries) ∨
      (holder = some i ∧ ∃ query host stage s queries, l = .reusing query host stage ∧
        inner = some (host, s) ∧ Mid i query queries s stage)) :
    Pool.Inv ⟨inner, holder, Function.update p.lookups i l⟩ where
  lookups := (Function.forall_update_iff _ Lookup.Fine).2 ⟨hfine, fun j _ => h.lookups j⟩
  alone := by
    refine (Function.forall_update_iff _
      fun j (l : Lookup ι) => l.isReusing = true → holder = some j).2
        ⟨fun hreusing => ?_, fun j hj hreusing => ?_⟩
    · rcases hnew with ⟨-, hnot, -⟩ | ⟨hsome, -⟩
      · rw [hnot] at hreusing
        cases hreusing
      · exact hsome
    · have hholder := h.alone j hreusing
      rcases hfree with hnone | hsome
      · rw [hnone] at hholder
        cases hholder
      · exact absurd (Option.some.inj (hholder.symm.trans hsome)) hj
  held j hj := by
    rcases hnew with ⟨hnone, -⟩ | ⟨hsome, query, host, stage, s, queries, rfl, hinner, hmid⟩
    · rw [hnone] at hj
      cases hj
    · obtain rfl := Option.some.inj (hsome.symm.trans hj)
      exact ⟨query, host, stage, s, queries, Function.update_self .., hinner, hmid⟩
  settled hnone := by
    rcases hnew with ⟨-, -, hsettled⟩ | ⟨hsome, -⟩
    · exact hsettled
    · rw [hsome] at hnone
      cases hnone

theorem Inv.tryReuse (h : p.Inv) (hnone : p.holder = none)
    (hwas : (p.lookups i).isReusing = false) : (p.tryReuse i query host).Inv := by
  have hdrop : Pool.Inv ⟨none, p.holder, Function.update p.lookups i (.connecting query host)⟩ :=
    h.locked trivial (.inl hnone) (.inl ⟨hnone, rfl, fun _ _ h => by cases h⟩)
  unfold Pool.tryReuse
  split
  · exact h.setLookup trivial hwas rfl
  · next cachedHost s hinner =>
    split_ifs with hhost
    · subst hhost
      split
      · next stage hstart =>
        obtain ⟨queries, hsettled⟩ := h.settled hnone _ _ hinner
        exact h.locked trivial (.inl hnone) (.inr ⟨rfl, query, cachedHost, stage, s, queries, rfl,
          hinner, hsettled.start hstart i⟩)
      · exact hdrop
    · exact hdrop

theorem Inv.reuse (h : p.Inv) (hholder : p.holder = some i) {queries : List (List UInt8)}
    {progress : Progress ι} (hfine : progress.Fine i query queries) :
    (p.reuse i query host progress).Inv := by
  cases progress with
  | going stage s =>
    exact h.locked trivial (.inr hholder)
      (.inr ⟨hholder, query, host, stage, s, queries, rfl, rfl, hfine⟩)
  | done response s =>
    obtain ⟨hsettled, hanswered⟩ := hfine
    refine h.locked hanswered (.inr hholder) (.inl ⟨rfl, rfl, fun host' s' hinner => ?_⟩)
    obtain ⟨rfl, rfl⟩ := Prod.mk.inj (Option.some.inj hinner)
    exact ⟨_, hsettled⟩
  | failed =>
    exact h.locked trivial (.inr hholder) (.inl ⟨rfl, rfl, fun _ _ h => by cases h⟩)

theorem Inv.use (h : p.Inv) (hwas : (p.lookups i).isReusing = false) {queries : List (List UInt8)}
    {progress : Progress ι} (hfine : progress.Fine i query queries) :
    (p.use i query host progress).Inv := by
  cases progress with
  | going stage s => exact h.setLookup ⟨queries, hfine⟩ hwas rfl
  | done response s => exact h.setLookup ⟨⟨_, hfine.1⟩, hfine.2⟩ hwas rfl
  | failed => exact h.setLookup trivial hwas rfl

theorem Inv.step (h : p.Inv) {e : PoolEvent ι} (hstep : p.step e = some p') : p'.Inv := by
  have hwas : ∀ {i : ι} {l : Lookup ι}, p.lookups i = l → l.isReusing = false →
      (p.lookups i).isReusing = false := fun hlookup hnot => hlookup ▸ hnot
  cases e with
  | exchange i query host =>
    simp only [Pool.step] at hstep
    split at hstep
    · next hlookup =>
      obtain rfl := Option.some.inj hstep
      exact h.setLookup trivial (hwas hlookup rfl) rfl
    · cases hstep
  | lock i =>
    simp only [Pool.step] at hstep
    split_ifs at hstep with hnone
    split at hstep
    · next query host hlookup =>
      obtain rfl := Option.some.inj hstep
      exact h.tryReuse hnone (hwas hlookup rfl)
    · next query host s response hlookup =>
      obtain rfl := Option.some.inj hstep
      obtain ⟨hsettled, hanswered⟩ := hlookup ▸ h.lookups i
      refine h.locked hanswered (.inl hnone) (.inl ⟨hnone, rfl, fun host' s' hinner => ?_⟩)
      obtain ⟨rfl, rfl⟩ := Prod.mk.inj (Option.some.inj hinner)
      exact hsettled
    · cases hstep
  | transfer i n =>
    simp only [Pool.step] at hstep
    split at hstep
    · next query host stage hlookup =>
      have hholder := h.alone i (hlookup ▸ rfl)
      obtain ⟨query', host', stage', s, queries, hlookup', hinner, hmid⟩ := h.held i hholder
      obtain ⟨rfl, rfl, rfl⟩ := Lookup.reusing.inj (hlookup.symm.trans hlookup')
      rw [hinner, Option.bind_some] at hstep
      obtain ⟨progress, hadvance, rfl⟩ := Option.map_eq_some_iff.1 hstep
      exact h.reuse hholder (hmid.advance hadvance)
    · next query host s stage hlookup =>
      obtain ⟨queries, hmid⟩ := hlookup ▸ h.lookups i
      obtain ⟨progress, hadvance, rfl⟩ := Option.map_eq_some_iff.1 hstep
      exact h.use (hwas hlookup rfl) (hmid.advance hadvance)
    · cases hstep
  | fail i =>
    simp only [Pool.step] at hstep
    split at hstep
    · next query host stage hlookup =>
      obtain rfl := Option.some.inj hstep
      have hfine : Progress.failed.Fine i query [] := trivial
      exact h.reuse (h.alone i (hlookup ▸ rfl)) hfine
    · next query host s stage hlookup =>
      obtain rfl := Option.some.inj hstep
      have hfine : Progress.failed.Fine i query [] := trivial
      exact h.use (hwas hlookup rfl) hfine
    · cases hstep
  | connect i server =>
    simp only [Pool.step] at hstep
    split at hstep
    · next query host hlookup =>
      obtain rfl := Option.some.inj hstep
      exact h.setLookup trivial (hwas hlookup rfl) rfl
    · next query host server hlookup =>
      split at hstep
      · next stage hstart =>
        obtain rfl := Option.some.inj hstep
        exact h.setLookup ⟨[], (settled_opened server).start hstart i⟩ (hwas hlookup rfl) rfl
      · obtain rfl := Option.some.inj hstep
        exact h.setLookup trivial (hwas hlookup rfl) rfl
    · cases hstep

end Pool

end Invariant

section Asking

/-- The query of a lookup that has begun. -/
def Lookup.query : Lookup ι → Option (List UInt8)
  | .idle => none
  | .waiting query _ | .reusing query _ _ | .connecting query _ | .fresh query _ _ _
  | .storing query _ _ _ | .returned query _ => some query

namespace Pool
variable [DecidableEq ι] {p p' : Pool ι} {query : List UInt8}

theorem tryReuse_lookups (p : Pool ι) (i : ι) (query : List UInt8) (host : String) :
    ∃ l, (p.tryReuse i query host).lookups = Function.update p.lookups i l ∧
      l.query = some query := by
  unfold tryReuse
  split
  · exact ⟨_, rfl, rfl⟩
  · split_ifs
    · split
      · exact ⟨_, rfl, rfl⟩
      · exact ⟨_, rfl, rfl⟩
    · exact ⟨_, rfl, rfl⟩

theorem reuse_lookups (p : Pool ι) (i : ι) (query : List UInt8) (host : String)
    (progress : Progress ι) :
    ∃ l, (p.reuse i query host progress).lookups = Function.update p.lookups i l ∧
      l.query = some query := by
  cases progress <;> exact ⟨_, rfl, rfl⟩

theorem use_lookups (p : Pool ι) (i : ι) (query : List UInt8) (host : String)
    (progress : Progress ι) :
    ∃ l, (p.use i query host progress).lookups = Function.update p.lookups i l ∧
      l.query = some query := by
  cases progress <;> exact ⟨_, rfl, rfl⟩

/-- One lookup, which has not returned, goes on to `l`, for the query that it was called with. -/
structure GoesOn (p p' : Pool ι) (e : PoolEvent ι) (i : ι) (l : Lookup ι) : Prop where
  lookups : p'.lookups = Function.update p.lookups i l
  unreturned : ∀ query result, p.lookups i ≠ .returned query result
  query : l.query = (p.lookups i).query ∨
    ∃ query host, e = .exchange i query host ∧ l.query = some query

theorem GoesOn.of_kept {e : PoolEvent ι} {i : ι} {l l' : Lookup ι} (hwas : p.lookups i = l')
    (hl : p'.lookups = Function.update p.lookups i l ∧ l.query = l'.query)
    (hopen : ∀ query result, l' ≠ .returned query result) : GoesOn p p' e i l := by
  subst hwas
  exact ⟨hl.1, hopen, .inl hl.2⟩

theorem step_goesOn {e : PoolEvent ι} (hstep : p.step e = some p') : ∃ i l, GoesOn p p' e i l := by
  cases e with
  | exchange i query host =>
    simp only [step] at hstep
    split at hstep
    · next hidle =>
      obtain rfl := Option.some.inj hstep
      refine ⟨i, _, rfl, fun _ _ h => ?_, .inr ⟨query, host, rfl, rfl⟩⟩
      rw [hidle] at h
      cases h
    · cases hstep
  | lock i =>
    simp only [step] at hstep
    split_ifs at hstep
    split at hstep
    · next hwaiting =>
      obtain rfl := Option.some.inj hstep
      obtain ⟨l, hl⟩ := tryReuse_lookups p i _ _
      exact ⟨i, _, .of_kept hwaiting hl fun _ _ h => by cases h⟩
    · next hstoring =>
      obtain rfl := Option.some.inj hstep
      exact ⟨i, _, .of_kept hstoring ⟨rfl, rfl⟩ fun _ _ h => by cases h⟩
    · cases hstep
  | transfer i n =>
    simp only [step] at hstep
    split at hstep
    · next hreusing =>
      obtain ⟨cached, -, hstep⟩ := Option.bind_eq_some_iff.1 hstep
      obtain ⟨progress, -, rfl⟩ := Option.map_eq_some_iff.1 hstep
      obtain ⟨l, hl⟩ := reuse_lookups p i _ _ progress
      exact ⟨i, _, .of_kept hreusing hl fun _ _ h => by cases h⟩
    · next hfresh =>
      obtain ⟨progress, -, rfl⟩ := Option.map_eq_some_iff.1 hstep
      obtain ⟨l, hl⟩ := use_lookups p i _ _ progress
      exact ⟨i, _, .of_kept hfresh hl fun _ _ h => by cases h⟩
    · cases hstep
  | fail i =>
    simp only [step] at hstep
    split at hstep
    · next hreusing =>
      obtain rfl := Option.some.inj hstep
      exact ⟨i, _, .of_kept hreusing ⟨rfl, rfl⟩ fun _ _ h => by cases h⟩
    · next hfresh =>
      obtain rfl := Option.some.inj hstep
      exact ⟨i, _, .of_kept hfresh ⟨rfl, rfl⟩ fun _ _ h => by cases h⟩
    · cases hstep
  | connect i server =>
    simp only [step] at hstep
    split at hstep
    · next hconnecting =>
      obtain rfl := Option.some.inj hstep
      exact ⟨i, _, .of_kept hconnecting ⟨rfl, rfl⟩ fun _ _ h => by cases h⟩
    · next hconnecting =>
      split at hstep
      · obtain rfl := Option.some.inj hstep
        exact ⟨i, _, .of_kept hconnecting ⟨rfl, rfl⟩ fun _ _ h => by cases h⟩
      · obtain rfl := Option.some.inj hstep
        exact ⟨i, _, .of_kept hconnecting ⟨rfl, rfl⟩ fun _ _ h => by cases h⟩
    · cases hstep

theorem step_query {e : PoolEvent ι} (hstep : p.step e = some p') {j : ι} {q : List UInt8}
    (h : (p'.lookups j).query = some q) :
    (p.lookups j).query = some q ∨ ∃ host, e = .exchange j q host := by
  obtain ⟨i, l, hl, -, hquery⟩ := step_goesOn hstep
  rw [hl] at h
  by_cases hj : j = i
  · subst hj
    rw [Function.update_self] at h
    rcases hquery with hquery | ⟨query, host, rfl, hquery⟩
    · exact .inl (hquery.symm.trans h)
    · obtain rfl := Option.some.inj (hquery.symm.trans h)
      exact .inr ⟨host, rfl⟩
  · rw [Function.update_of_ne hj] at h
    exact .inl h

/-- A lookup that has returned keeps its result. -/
theorem step_returned {e : PoolEvent ι} {j : ι} {result : Option (List UInt8 × DnsStream ι)}
    (hreturned : p.lookups j = .returned query result) (hstep : p.step e = some p') :
    p'.lookups j = .returned query result := by
  obtain ⟨i, l, hl, hopen, -⟩ := step_goesOn hstep
  have hji : j ≠ i := by
    rintro rfl
    exact hopen query result hreturned
  rw [hl, Function.update_of_ne hji]
  exact hreturned

end Pool

end Asking

section Runs
variable [DecidableEq ι] {p : Pool ι} {es : List (PoolEvent ι)}

/-- A lookup that returns an answer returns the server's answer to the query that it was called
with, on the stream to which it has written that query. -/
theorem answers_paired (hrun : run Pool.step Pool.initial es = some p) {i : ι}
    {query response : List UInt8} {s : DnsStream ι}
    (hreturned : p.lookups i = .returned query (some (response, s))) :
    (∃ host, .exchange i query host ∈ es) ∧ s.Answered i query response := by
  have hmeets : Meets Pool.step (fun _ _ => True) Pool.initial es :=
    Meets.of_forall (fun _ _ => trivial) _ _
  refine ⟨?_, ?_⟩
  · have hasked : ∀ j q, (p.lookups j).query = some q → ∃ host, .exchange j q host ∈ es := by
      refine run_history (I := fun es p => ∀ j q, (p.lookups j).query = some q →
        ∃ host, PoolEvent.exchange j q host ∈ es) ?_ (fun j q h => by cases h) hmeets hrun
      intro es p e p' hold _ hstep j q h
      rcases Pool.step_query hstep h with h | ⟨host, rfl⟩
      · obtain ⟨host, hmem⟩ := hold j q h
        exact ⟨host, List.mem_append_left _ hmem⟩
      · exact ⟨host, List.mem_append_right _ List.mem_cons_self⟩
    exact hasked i query (congrArg _ hreturned)
  · have hinv : p.Inv :=
      run_invariant (fun _ _ _ h _ hstep => h.step hstep) Pool.inv_initial hmeets hrun
    have hfine := hinv.lookups i
    rw [hreturned] at hfine
    exact hfine

/-- It answers its messages with their numbers, from one. -/
def countingServer : Server where
  reply k := [UInt8.ofNat (k + 1)]
  fits _ := by simp

/-- The second lookup uses the stream that the first has opened. -/
def twoLookups : List (PoolEvent Bool) :=
  [.exchange false [5] "1.1.1.1", .exchange true [6] "1.1.1.1", .lock false,
    .connect false (some countingServer), .transfer false 3, .transfer false 2, .transfer false 1,
    .lock false, .lock true, .transfer true 1, .transfer true 2, .transfer true 2,
    .transfer true 1]

theorem second_lookup_paired : ∃ p s, run Pool.step Pool.initial twoLookups = some p ∧
    p.lookups true = .returned [6] (some ([2], s)) ∧ s.Answered true [6] [2] := by
  refine ⟨_, _, rfl, rfl, ?_⟩
  exact (answers_paired (rfl : run Pool.step Pool.initial twoLookups = some _) rfl).2

end Runs

end EasyConnection.Dns
