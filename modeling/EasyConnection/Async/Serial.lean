import EasyConnection.Async.Prog
import EasyConnection.Async.Run
import Mathlib.Data.Fintype.Defs

/-! # Calls that share a world

Any number of calls run the programs of their requests over one world, interleaved between their
accesses. What a call has read of the world is out of date once another has written. If a call
touches the world only while what it has read is up to date and no other that has written is still
under way, then the calls leave the world as they would one after another, with the same results.
A call that does not come back to the world may well end out of date.
-/
namespace EasyConnection.Async

/-- What an access does with the world. -/
inductive Effect where
  | none
  | reads
  | writes
  deriving DecidableEq

/-- Programs for requests, with what their accesses do with the world. -/
structure Service (Q Op : Type) (Ans : Op → Type) (R C W : Type) where
  program : Q → Prog Op Ans R
  exec : (o : Op) → C → W → W × Ans o
  ok : Op → C → W → Prop
  decidableOk : ∀ o c w, Decidable (ok o c w)
  effect : Op → Effect
  exec_of_reads : ∀ o c w, effect o ≠ .writes → (exec o c w).1 = w
  exec_of_none : ∀ o c w w', effect o = .none →
    (exec o c w).2 = (exec o c w').2 ∧ (ok o c w → ok o c w')

/-- A call that is under way has seen some version of the world, unless it has touched nothing. -/
inductive Call (Q Op : Type) (Ans : Op → Type) (R : Type) where
  | idle
  | running (req : Q) (seen : Option ℕ) (wrote : Bool) (o : Op) (k : Ans o → Prog Op Ans R)
  | returned (req : Q) (r : R)

namespace Call
variable {Q Op R : Type} {Ans : Op → Type}

/-- A call whose program has come to `p`. -/
def follow (req : Q) (seen : Option ℕ) (wrote : Bool) : Prog Op Ans R → Call Q Op Ans R
  | .ret r => .returned req r
  | .call o k => .running req seen wrote o k

def seen : Call Q Op Ans R → Option ℕ
  | .running _ seen _ _ _ => seen
  | _ => none

def wrote : Call Q Op Ans R → Bool
  | .running _ _ wrote _ _ => wrote
  | _ => false

def isRunning : Call Q Op Ans R → Bool
  | .running _ _ _ _ _ => true
  | _ => false

/-- The request and the result of a call that has returned. -/
def result : Call Q Op Ans R → Option (Q × R)
  | .returned req r => some (req, r)
  | _ => none

theorem result_eq_some {c : Call Q Op Ans R} {req : Q} {r : R} :
    c.result = some (req, r) ↔ c = .returned req r := by
  cases c with
  | returned req' r' => simp [result]
  | _ => simp [result]

def Asks (q : Q → Prop) : Call Q Op Ans R → Prop
  | .idle => True
  | .running req _ _ _ _ => q req
  | .returned req _ => q req

theorem asks_follow {q : Q → Prop} {req : Q} (h : q req) (seen : Option ℕ) (wrote : Bool)
    (p : Prog Op Ans R) : (follow req seen wrote p).Asks q := by
  cases p <;> exact h

end Call

/-- The version of the world is the number of writes to it. -/
structure Shared (ι Q Op : Type) (Ans : Op → Type) (R W : Type) where
  world : W
  version : ℕ
  calls : ι → Call Q Op Ans R

inductive SharedEvent (ι Q C : Type) where
  | call (i : ι) (req : Q)
  | access (i : ι) (c : C)

def SharedEvent.Asks {ι Q C : Type} (q : Q → Prop) : SharedEvent ι Q C → Prop
  | .call _ req => q req
  | .access _ _ => True

instance {ι Q C : Type} (q : Q → Prop) [DecidablePred q] :
    DecidablePred (SharedEvent.Asks q : SharedEvent ι Q C → Prop)
  | .call _ req => inferInstanceAs (Decidable (q req))
  | .access _ _ => .isTrue trivial

/-- Calls one after another, each with its result and the world it has left. -/
abbrev Order (ι Q R W : Type) := List ((ι × Q × R) × W)

namespace Service
variable {ι Q Op R C W : Type} {Ans : Op → Type} (S : Service Q Op Ans R C W)

instance (o : Op) (c : C) (w : W) : Decidable (S.ok o c w) := S.decidableOk o c w

def step [DecidableEq ι] (st : Shared ι Q Op Ans R W) :
    SharedEvent ι Q C → Option (Shared ι Q Op Ans R W)
  | .call i req =>
    match st.calls i with
    | .idle => some { st with
        calls := Function.update st.calls i (.follow req none false (S.program req)) }
    | _ => none
  | .access i c =>
    match st.calls i with
    | .running req seen wrote o k =>
      if S.ok o c st.world then
        let version := if S.effect o = .writes then st.version + 1 else st.version
        some ⟨(S.exec o c st.world).1, version, Function.update st.calls i
          (.follow req (if S.effect o = .none then seen else some version)
            (wrote || S.effect o = .writes) (k (S.exec o c st.world).2))⟩
      else none
    | _ => none

/-- What the next access of the call does with the world. -/
def next : Call Q Op Ans R → Effect
  | .running _ _ _ o _ => S.effect o
  | _ => .none

/-- A call touches the world only while what it has seen is the present version, and no other that
has written is under way. -/
def Timely (st : Shared ι Q Op Ans R W) : SharedEvent ι Q C → Prop
  | .call _ _ => True
  | .access i _ => S.next (st.calls i) ≠ .none →
      (∀ n ∈ (st.calls i).seen, n = st.version) ∧ ∀ j, j ≠ i → (st.calls j).wrote = false

instance [Fintype ι] [DecidableEq ι] (st : Shared ι Q Op Ans R W) :
    (e : SharedEvent ι Q C) → Decidable (S.Timely st e)
  | .call _ _ => .isTrue trivial
  | .access _ _ => inferInstanceAs (Decidable (_ → _ ∧ _))

def initial (w : W) : Shared ι Q Op Ans R W := ⟨w, 0, fun _ => .idle⟩

/-- The calls have been made one after another. -/
inductive Serial (w : W) : Order ι Q R W → W → Prop
  | nil : Serial w [] w
  | snoc {done : Order ι Q R W} {w₁ w₂ : W} {i : ι} {req : Q} {cs : List C} {r : R}
      (before : Serial w done w₁)
      (last : (S.program req).runWith S.exec S.ok cs w₁ = some (r, w₂)) :
      Serial w (done ++ [((i, req, r), w₂)]) w₂

section Invariant

/-- Made alone from `a`, the program of the request comes to `p`, and the world to `b`. -/
def Reached (req : Q) (a b : W) (p : Prog Op Ans R) : Prop :=
  ∃ cs, (S.program req).advance S.exec S.ok cs a = some (p, b)

def Reaches (a b : W) : Call Q Op Ans R → Prop
  | .running req _ _ o k => S.Reached req a b (.call o k)
  | _ => True

variable {S} {req : Q} {a b w world world' base base' : W} {o : Op} {k : Ans o → Prog Op Ans R}
  {c : C} {r : R} {i : ι} {t t' : Order ι Q R W} {n n' : ℕ} {calls : ι → Call Q Op Ans R}
  {x : Call Q Op Ans R} {seen : Option ℕ} {wrote : Bool} {st : Shared ι Q Op Ans R W}

theorem Reached.access (h : S.Reached req a b (.call o k)) (hok : S.ok o c b) :
    S.Reached req a (S.exec o c b).1 (k (S.exec o c b).2) := by
  obtain ⟨cs, h⟩ := h
  exact ⟨_, Prog.advance_append h hok⟩

/-- An access that does nothing with the world could as well have been made in another. -/
theorem Reached.aside (h : S.Reached req a b (.call o k)) (ho : S.effect o = .none)
    (hok : S.ok o c w) : S.Reached req a b (k (S.exec o c w).2) := by
  have haccess := h.access ((S.exec_of_none o c w b ho).2 hok)
  rwa [S.exec_of_reads o c b (by rw [ho]; decide), (S.exec_of_none o c b w ho).1] at haccess

/-- The order `t'` has one more call. -/
structure Extends (w : W) (t t' : Order ι Q R W) (x : ι × Q × R) : Prop where
  perm : (t'.map Prod.fst).Perm (x :: t.map Prod.fst)
  worlds : w :: t.map Prod.snd ⊆ w :: t'.map Prod.snd

theorem extends_snoc (w : W) (t : Order ι Q R W) (x : (ι × Q × R) × W) :
    Extends w t (t ++ [x]) x.1 where
  perm := by
    rw [List.map_append, List.map_singleton]
    exact List.perm_append_singleton _ _
  worlds := by
    rw [List.map_append, ← List.cons_append]
    exact List.subset_append_left _ _

/-- A call that leaves the world as it was can be put between the others. -/
theorem Serial.insert (h : S.Serial w t base) {v : W} (hv : v ∈ w :: t.map Prod.snd) {cs : List C}
    (hrun : (S.program req).runWith S.exec S.ok cs v = some (r, v)) :
    ∃ t', S.Serial w t' base ∧ Extends w t t' (i, req, r) := by
  induction h with
  | nil =>
    obtain rfl := List.mem_singleton.1 hv
    exact ⟨_, Serial.nil.snoc hrun, extends_snoc _ _ _⟩
  | @snoc done w₁ w₂ j req' cs' r' before last ih =>
    rw [List.map_append, ← List.cons_append, List.mem_append] at hv
    obtain hv | hv := hv
    · obtain ⟨t', hserial, hperm, hworlds⟩ := ih hv
      refine ⟨_, hserial.snoc (i := j) last, ?_, ?_⟩
      · rw [List.map_append, List.map_append, ← List.cons_append]
        exact hperm.append_right _
      · rw [List.map_append, List.map_append, ← List.cons_append, ← List.cons_append]
        exact List.append_subset.2 ⟨fun u hu => List.mem_append_left _ (hworlds hu),
          List.subset_append_right _ _⟩
    · obtain rfl := List.mem_singleton.1 hv
      exact ⟨_, (before.snoc last).snoc hrun, extends_snoc _ _ _⟩

/-- The calls that have returned have been made in the order `t`, which leads to `base`. -/
structure Ordered (S : Service Q Op Ans R C W) (w : W) (t : Order ι Q R W) (base : W)
    (calls : ι → Call Q Op Ans R) : Prop where
  serial : S.Serial w t base
  nodup : ((t.map Prod.fst).map Prod.fst).Nodup
  mem_iff : ∀ i req r, (i, req, r) ∈ t.map Prod.fst ↔ calls i = .returned req r

/-- A call is where it would be if it had been made alone: from anywhere while it has touched
nothing, from a world on the way to `base` once it has read, and from `base` once it has written. -/
structure Fits (past : List W) (base world : W) (n : ℕ) (x : Call Q Op Ans R)
    (reach : W → W → Prop) : Prop where
  unread : x.seen = none → x.wrote = false ∧ ∀ v, reach v v
  read : ∀ m, x.seen = some m → m ≤ n ∧
    (x.wrote = false → ∃ v ∈ past, reach v v ∧ (m = n → v = world))
  written : x.wrote = true → x.seen = some n ∧ reach base world

structure Inv (S : Service Q Op Ans R C W) (w : W) (t : Order ι Q R W) (base : W)
    (st : Shared ι Q Op Ans R W) : Prop where
  ordered : S.Ordered w t base st.calls
  fits : ∀ i, Fits (w :: t.map Prod.snd) base st.world st.version (st.calls i)
    fun a b => S.Reaches a b (st.calls i)
  quiet : (∀ i, (st.calls i).wrote = false) → st.world = base
  alone : ∀ i, (st.calls i).wrote = true → ∀ j, j ≠ i → (st.calls j).wrote = false

theorem fits_of_unread {past : List W} {reach : W → W → Prop} (hseen : x.seen = none)
    (hwrote : x.wrote = false) (h : ∀ v, reach v v) : Fits past base world n x reach where
  unread _ := ⟨hwrote, h⟩
  read m hm := by
    rw [hseen] at hm
    cases hm
  written htrue := by
    rw [hwrote] at htrue
    cases htrue

theorem inv_initial (w : W) : S.Inv w ([] : Order ι Q R W) w (initial w) where
  ordered := ⟨.nil, List.nodup_nil, fun _ _ _ => by simp [initial]⟩
  fits _ := fits_of_unread rfl rfl fun _ => trivial
  quiet _ := rfl
  alone _ h := by cases h

theorem Fits.mono {past past' : List W} {reach reach' : W → W → Prop}
    (h : Fits past base world n x reach) (hpast : past ⊆ past')
    (himp : ∀ a b, reach a b → reach' a b) (hle : n ≤ n') (hsame : n' = n → world' = world)
    (hwriter : x.wrote = true → n' = n ∧ base' = base) : Fits past' base' world' n' x reach' where
  unread hs := ⟨(h.unread hs).1, fun v => himp _ _ ((h.unread hs).2 v)⟩
  read m hs := by
    obtain ⟨hm, hread⟩ := h.read m hs
    refine ⟨hm.trans hle, fun hwrote => ?_⟩
    obtain ⟨v, hv, hreach, hcurrent⟩ := hread hwrote
    refine ⟨v, hpast hv, himp _ _ hreach, ?_⟩
    rintro rfl
    obtain rfl := Nat.le_antisymm hm hle
    rw [hsame rfl]
    exact hcurrent rfl
  written hwrote := by
    obtain ⟨rfl, rfl⟩ := hwriter hwrote
    obtain ⟨hs, hreach⟩ := h.written hwrote
    rw [hsame rfl]
    exact ⟨hs, himp _ _ hreach⟩

theorem Serial.base_mem (h : S.Serial w t base) : base ∈ w :: t.map Prod.snd := by
  cases h with
  | nil => exact List.mem_cons_self
  | snoc before last => simp

variable [DecidableEq ι]

theorem Ordered.running (h : S.Ordered w t base calls) (hi : (calls i).result = none)
    (hx : x.result = none) : S.Ordered w t base (Function.update calls i x) where
  serial := h.serial
  nodup := h.nodup
  mem_iff j req r := by
    rw [h.mem_iff, ← Call.result_eq_some, ← Call.result_eq_some]
    refine (Function.forall_update_iff calls fun j y => (calls j).result = some (req, r) ↔
      y.result = some (req, r)).2 ⟨?_, fun _ _ => Iff.rfl⟩ j
    rw [hi, hx]

theorem Ordered.finish (h : S.Ordered w t base calls) (hserial : S.Serial w t' base')
    (ht : Extends w t t' (i, req, r)) (hi : (calls i).result = none) :
    S.Ordered w t' base' (Function.update calls i (.returned req r)) where
  serial := hserial
  nodup := by
    refine (ht.perm.map Prod.fst).nodup_iff.2 (List.nodup_cons.2 ⟨fun hmem => ?_, h.nodup⟩)
    obtain ⟨⟨j, req', r'⟩, hx, rfl⟩ := List.mem_map.1 hmem
    rw [(h.mem_iff j req' r').1 hx] at hi
    cases hi
  mem_iff j req' r' := by
    rw [ht.perm.mem_iff, List.mem_cons, h.mem_iff]
    refine (Function.forall_update_iff calls fun j y => (j, req', r') = (i, req, r) ∨
      calls j = .returned req' r' ↔ y = .returned req' r').2 ⟨?_, ?_⟩ j
    · have hne : calls i ≠ .returned req' r' := fun he => by
        rw [he] at hi
        cases hi
      simp [hne, eq_comm]
    · intro j hj
      simp [hj]

theorem Inv.world_eq (h : S.Inv w t base st) (hi : (st.calls i).wrote = false)
    (hothers : ∀ j, j ≠ i → (st.calls j).wrote = false) : st.world = base := by
  refine h.quiet fun j => ?_
  by_cases hj : j = i
  · rw [hj, hi]
  · exact hothers j hj

/-- A call moves on. Where it returns, the order `t'` has its place. -/
theorem Inv.update (h : S.Inv w t base st)
    (hordered : S.Ordered w t' base' (Function.update st.calls i x))
    (hpast : w :: t.map Prod.snd ⊆ w :: t'.map Prod.snd) (hle : st.version ≤ n')
    (hsame : n' = st.version → world' = st.world)
    (hx : Fits (w :: t'.map Prod.snd) base' world' n' x fun a b => S.Reaches a b x)
    (hquiet : x.wrote = false → (∀ j, j ≠ i → (st.calls j).wrote = false) → world' = base')
    (hothers : (∀ j, j ≠ i → (st.calls j).wrote = false) ∨
      x.wrote = false ∧ n' = st.version ∧ base' = base) :
    S.Inv w t' base' ⟨world', n', Function.update st.calls i x⟩ where
  ordered := hordered
  fits := by
    refine (Function.forall_update_iff st.calls fun _ y => Fits _ _ _ _ y
      fun a b => S.Reaches a b y).2 ⟨hx, fun j hj => ?_⟩
    refine (h.fits j).mono hpast (fun _ _ => id) hle hsame fun hw => ?_
    obtain hothers | hothers := hothers
    · exact absurd hw (by rw [hothers j hj]; decide)
    · exact hothers.2
  quiet hall := by
    refine hquiet ?_ fun j hj => ?_
    · simpa using hall i
    · simpa [hj] using hall j
  alone := by
    refine (Function.forall_update_iff st.calls fun k y => y.wrote = true → ∀ j, j ≠ k →
      (Function.update st.calls i x j).wrote = false).2
      ⟨fun hwrote j hj => ?_, fun k hk hwrote => ?_⟩
    · rw [Function.update_of_ne hj]
      obtain hothers | ⟨hfalse, -⟩ := hothers
      · exact hothers j hj
      · exact absurd hwrote (by rw [hfalse]; decide)
    · refine (Function.forall_update_iff st.calls fun j y => j ≠ k → y.wrote = false).2
        ⟨fun _ => ?_, fun j _ => h.alone k hwrote j⟩
      obtain hothers | ⟨hfalse, -⟩ := hothers
      · exact absurd hwrote (by rw [hothers k hk]; decide)
      · exact hfalse

/-- A call that does nothing with the world moves on. Where it returns it has its place before what
has been written since it read, or at the end if it has written itself. -/
theorem Inv.aside (h : S.Inv w t base st) (req : Q) (p : Prog Op Ans R)
    (hi : (st.calls i).result = none)
    (hfits : Fits (w :: t.map Prod.snd) base st.world st.version (st.calls i)
      fun a b => S.Reached req a b p) :
    ∃ t' base', S.Inv w t' base' ⟨st.world, st.version, Function.update st.calls i
      (.follow req (st.calls i).seen (st.calls i).wrote p)⟩ := by
  have hothers : (∀ j, j ≠ i → (st.calls j).wrote = false) ∨ (st.calls i).wrote = false := by
    cases hwrote : (st.calls i).wrote with
    | false => exact .inr rfl
    | true => exact .inl (h.alone i hwrote)
  cases p with
  | call o k =>
    exact ⟨t, base, h.update (h.ordered.running hi rfl) (List.Subset.refl _) le_rfl (fun _ => rfl)
      ⟨hfits.unread, hfits.read, hfits.written⟩ h.world_eq
      (hothers.imp_right fun hfalse => ⟨hfalse, rfl, rfl⟩)⟩
  | ret r =>
    cases hwrote : (st.calls i).wrote with
    | false =>
      obtain ⟨v, hv, cs, hrun⟩ : ∃ v ∈ w :: t.map Prod.snd, S.Reached req v v (.ret r) := by
        cases hseen : (st.calls i).seen with
        | none => exact ⟨base, h.ordered.serial.base_mem, (hfits.unread hseen).2 base⟩
        | some m =>
          obtain ⟨v, hv, hreached, -⟩ := (hfits.read m hseen).2 hwrote
          exact ⟨v, hv, hreached⟩
      obtain ⟨t', hserial, ht⟩ := h.ordered.serial.insert hv (Prog.runWith_eq_some.2 hrun)
      exact ⟨t', base, h.update (h.ordered.finish hserial ht hi) ht.worlds le_rfl (fun _ => rfl)
        (fits_of_unread rfl rfl fun _ => trivial) (fun _ => h.world_eq hwrote)
        (.inr ⟨rfl, rfl, rfl⟩)⟩
    | true =>
      obtain ⟨cs, hrun⟩ := (hfits.written hwrote).2
      have ht := extends_snoc w t ((i, req, r), st.world)
      exact ⟨_, _, h.update
        (h.ordered.finish (h.ordered.serial.snoc (Prog.runWith_eq_some.2 hrun)) ht hi)
        ht.worlds le_rfl (fun _ => rfl) (fits_of_unread rfl rfl fun _ => trivial) (fun _ _ => rfl)
        (.inl (h.alone i hwrote))⟩

/-- A timely call has come from `base` to the present world. -/
theorem Inv.reached (h : S.Inv w t base st) (hi : st.calls i = .running req seen wrote o k)
    (hseen : ∀ m ∈ seen, m = st.version) (hothers : ∀ j, j ≠ i → (st.calls j).wrote = false) :
    S.Reached req base st.world (.call o k) := by
  have hfits := h.fits i
  have hworld := h.world_eq (i := i)
  rw [hi] at hfits hworld
  cases wrote with
  | true => exact (hfits.written rfl).2
  | false =>
    rw [hworld rfl hothers]
    cases seen with
    | none => exact (hfits.unread rfl).2 base
    | some m =>
      obtain ⟨v, -, hreached, hcurrent⟩ := (hfits.read m rfl).2 rfl
      rwa [hcurrent (hseen m rfl), hworld rfl hothers] at hreached

/-- A timely access to the world. -/
theorem Inv.touches (h : S.Inv w t base st) (hi : st.calls i = .running req seen wrote o k)
    (hok : S.ok o c st.world) (hseen : ∀ m ∈ seen, m = st.version)
    (hothers : ∀ j, j ≠ i → (st.calls j).wrote = false)
    (hn : n = if S.effect o = .writes then st.version + 1 else st.version) :
    ∃ t' base', S.Inv w t' base' ⟨(S.exec o c st.world).1, n, Function.update st.calls i
      (.follow req (some n) (wrote || S.effect o = .writes) (k (S.exec o c st.world).2))⟩ := by
  have hreached := (h.reached hi hseen hothers).access hok
  have hresult : (st.calls i).result = none := by
    rw [hi]
    rfl
  have hle : st.version ≤ n := by
    rw [hn]
    split <;> omega
  have hsame : n = st.version → (S.exec o c st.world).1 = st.world := fun heq =>
    S.exec_of_reads o c st.world fun ho => by
      rw [if_pos ho] at hn
      omega
  cases hp : k (S.exec o c st.world).2 with
  | ret r =>
    rw [hp] at hreached
    obtain ⟨cs, hrun⟩ := hreached
    have ht := extends_snoc w t ((i, req, r), (S.exec o c st.world).1)
    exact ⟨_, _, h.update
      (h.ordered.finish (h.ordered.serial.snoc (Prog.runWith_eq_some.2 hrun)) ht hresult)
      ht.worlds hle hsame (fits_of_unread rfl rfl fun _ => trivial) (fun _ _ => rfl) (.inl hothers)⟩
  | call o' k' =>
    rw [hp] at hreached
    have hbase (hwrote : (wrote || decide (S.effect o = .writes)) = false) :
        (S.exec o c st.world).1 = base := by
      obtain ⟨hfalse, ho⟩ := Bool.or_eq_false_iff.1 hwrote
      rw [S.exec_of_reads o c _ (of_decide_eq_false ho)]
      exact h.world_eq (by rw [hi]; exact hfalse) hothers
    refine ⟨t, base, h.update (h.ordered.running hresult rfl) (List.Subset.refl _) hle hsame
      ⟨nofun, fun m hm => ?_, fun _ => ⟨rfl, hreached⟩⟩ (fun hwrote _ => hbase hwrote)
      (.inl hothers)⟩
    obtain rfl := Option.some.inj hm
    refine ⟨le_rfl, fun hwrote => ⟨base, h.ordered.serial.base_mem, ?_, ?_⟩⟩
    · rw [hbase hwrote] at hreached
      exact hreached
    · exact fun _ => (hbase hwrote).symm

theorem inv_step {e : SharedEvent ι Q C} {st' : Shared ι Q Op Ans R W}
    (h : ∃ t base, S.Inv w t base st) (hok : S.Timely st e) (hstep : S.step st e = some st') :
    ∃ t base, S.Inv w t base st' := by
  obtain ⟨t, base, h⟩ := h
  cases e with
  | call i req =>
    simp only [step] at hstep
    split at hstep
    · next hi =>
      obtain rfl := Option.some.inj hstep
      have hmove := h.aside (i := i) req (S.program req) (by rw [hi]; rfl)
      rw [hi] at hmove
      exact hmove (fits_of_unread rfl rfl fun v => ⟨[], rfl⟩)
    · cases hstep
  | access i c =>
    simp only [step] at hstep
    split at hstep
    · next req seen wrote o k hi =>
      simp only [Timely, next, Call.seen, hi] at hok
      split at hstep
      · next hallowed =>
        obtain rfl := Option.some.inj hstep
        by_cases ho : S.effect o = .none
        · have hfits := h.fits i
          have hmove := h.aside (i := i) req (k (S.exec o c st.world).2) (by rw [hi]; rfl)
          rw [hi] at hfits hmove
          rw [if_pos ho, ho, S.exec_of_reads o c _ (by rw [ho]; decide)]
          simp only [reduceCtorEq, if_false, decide_false, Bool.or_false]
          exact hmove (hfits.mono (List.Subset.refl _)
            (fun a b hreached => Reached.aside hreached ho hallowed) le_rfl (fun _ => rfl)
            fun _ => ⟨rfl, rfl⟩)
        · obtain ⟨hseen, hothers⟩ := hok ho
          rw [if_neg ho]
          exact h.touches hi hallowed hseen hothers rfl
      · cases hstep
    · cases hstep

end Invariant

variable [DecidableEq ι] {S : Service Q Op Ans R C W} {es : List (SharedEvent ι Q C)}

/-- A call has the request it was made with. -/
theorem asks_of_run {q : Q → Prop} {st st' : Shared ι Q Op Ans R W} (hes : ∀ e ∈ es, e.Asks q)
    (hrun : run S.step st es = some st') (hst : ∀ i, (st.calls i).Asks q) (i : ι) :
    (st'.calls i).Asks q := by
  refine run_invariant (I := fun st => ∀ i, (st.calls i).Asks q) (fun st e st' h he hstep => ?_)
    hst (Meets.of_labels hes) hrun i
  cases e with
  | call j req =>
    simp only [step] at hstep
    split at hstep
    · obtain rfl := Option.some.inj hstep
      exact (Function.forall_update_iff st.calls fun _ => Call.Asks q).2
        ⟨Call.asks_follow (show q req from he) _ _ _, fun j' _ => h j'⟩
    · cases hstep
  | access j c =>
    simp only [step] at hstep
    split at hstep
    · next hj =>
      split at hstep
      · obtain rfl := Option.some.inj hstep
        have hq := h j
        rw [hj] at hq
        exact (Function.forall_update_iff st.calls fun _ => Call.Asks q).2
          ⟨Call.asks_follow (show q _ from hq) _ _ _, fun j' _ => h j'⟩
      · cases hstep
    · cases hstep

/-- Where the accesses are timely and every call has returned, the calls have been made one after
another in some order. -/
theorem serial_of_timely {w : W} {st : Shared ι Q Op Ans R W}
    (hok : Meets S.step S.Timely (initial w) es) (hrun : run S.step (initial w) es = some st)
    (hdone : ∀ i, (st.calls i).isRunning = false) :
    ∃ order, S.Serial w order st.world ∧ ((order.map Prod.fst).map Prod.fst).Nodup ∧
      ∀ i req r, (i, req, r) ∈ order.map Prod.fst ↔ st.calls i = .returned req r := by
  obtain ⟨t, base, h⟩ := run_invariant (I := fun st => ∃ t base, S.Inv w t base st)
    (fun _ _ _ h hok hstep => inv_step h hok hstep) ⟨[], w, inv_initial w⟩ hok hrun
  have hworld : st.world = base := h.quiet fun i => by
    have hi := hdone i
    cases hc : st.calls i with
    | running req seen wrote o k =>
      rw [hc] at hi
      cases hi
    | _ => rfl
  exact ⟨t, hworld ▸ h.ordered.serial, h.ordered.nodup, h.ordered.mem_iff⟩

end Service

end EasyConnection.Async
