import EasyConnection.Async.Run
import EasyConnection.Async.Reader

/-! # A task that selects between a local stream and a reading future

One loop turn waits for the first of two futures: bytes from the local side, or a record
read from the transport. The future that did not complete is dropped with everything it
holds. The machine keeps the bytes that the remote side has still to send, so a run ranges
over every segmentation and every order of arrivals, local reads and accepted writes.
-/
namespace EasyConnection.Async

/-- What the loop does with the value of the reading future. -/
inductive Verdict (ε : Type*) where
  | again
  | deliver (data : List UInt8)
  | stop (why : ε)

structure Pump (τ σ α ε : Type*) where
  /-- The future created at each turn of the loop. -/
  start : Reader τ σ α
  verdict : α → Verdict ε
  /-- The bytes to send for a local read, or the error that ends the loop. -/
  onLocal : σ → List UInt8 → Except ε (σ × List UInt8)
  /-- The capacity of the buffer for one local read. -/
  bufLen : ℕ

namespace Pump
variable {τ σ α ε : Type*}

/-- With `got` the reading future has come so far with what it waits for: these bytes have been
read, or accepted. `ended none` is an end caused by the local side or by a failed write. -/
inductive Phase (τ σ α ε : Type*) where
  | selecting (r : Reader τ σ α) (got : List UInt8)
  | sending (out : List UInt8)
  | delivering (data : List UInt8)
  | ended (why : Option ε)

structure State (τ σ α ε : Type*) where
  shared : σ
  phase : Phase τ σ α ε
  /-- Bytes the remote side has still to send. -/
  unsent : List UInt8
  /-- Bytes that have arrived and that no future has taken. -/
  inbound : List UInt8
  closed : Bool
  outbound : List UInt8
  delivered : List UInt8

inductive Event where
  | arrive (n : ℕ)
  | close
  | take (n : ℕ)
  | eof
  | accept (n : ℕ)
  | refuse
  | localRead (data : List UInt8)
  | localEof
  | deliver (n : ℕ)
  | localGone
  deriving DecidableEq

variable (M : Pump τ σ α ε)

/-- The next turn of the loop, with a new reading future. -/
def State.fresh (st : State τ σ α ε) : State τ σ α ε :=
  let p := M.start.settle st.shared
  { st with shared := p.1, phase := .selecting p.2 [] }

def State.hand (st : State τ σ α ε) (data : List UInt8) : State τ σ α ε :=
  if data = [] then st.fresh M else { st with phase := .delivering data }

def State.send (st : State τ σ α ε) (out : List UInt8) : State τ σ α ε :=
  if out = [] then st.fresh M else { st with phase := .sending out }

def State.judge (st : State τ σ α ε) (a : α) : State τ σ α ε :=
  match M.verdict a with
  | .again => st.fresh M
  | .deliver data => st.hand M data
  | .stop why => { st with phase := .ended (some why) }

/-- Let the reading future run from one suspension point to the next. -/
def State.proceed (st : State τ σ α ε) (r : Reader τ σ α) : State τ σ α ε :=
  let p := r.settle st.shared
  match p.2 with
  | .done a => { st with shared := p.1 }.judge M a
  | r' => { st with shared := p.1, phase := .selecting r' [] }

/-- Some of the bytes that the future waits for, or all of them. -/
def State.takeInto (st : State τ σ α ε) (label : τ) (n : ℕ) (eof : Reader τ σ α)
    (k : List UInt8 → Reader τ σ α) (got : List UInt8) : State τ σ α ε :=
  if got.length = n then st.proceed M (k got)
  else { st with phase := .selecting (.read label n eof k) got }

def State.localRead (st : State τ σ α ε) (data : List UInt8) : State τ σ α ε :=
  match M.onLocal st.shared data with
  | .ok p => { st with shared := p.1 }.send M p.2
  | .error why => { st with phase := .ended (some why) }

def step (st : State τ σ α ε) : Event → Option (State τ σ α ε)
  | .arrive n =>
    if !st.closed ∧ 0 < n ∧ n ≤ st.unsent.length then
      some { st with inbound := st.inbound ++ st.unsent.take n, unsent := st.unsent.drop n }
    else none
  | .close => if !st.closed then some { st with closed := true } else none
  | .take n =>
    match st.phase with
    | .selecting (.read label need eof k) got =>
      if 0 < n ∧ n ≤ st.inbound.length ∧ got.length + n ≤ need then
        some ({ st with inbound := st.inbound.drop n }.takeInto M label need eof k
          (got ++ st.inbound.take n))
      else none
    | _ => none
  | .eof =>
    match st.phase with
    | .selecting (.read _ _ eof _) _ =>
      if st.closed ∧ st.inbound = [] then some (st.proceed M eof) else none
    | _ => none
  | .accept n =>
    match st.phase with
    | .selecting (.write out k) got =>
      if 0 < n ∧ n ≤ out.length then
        let st' := { st with outbound := st.outbound ++ out.take n }
        if n = out.length then some (st'.proceed M (k true))
        else some { st' with phase := .selecting (.write (out.drop n) k) (got ++ out.take n) }
      else none
    | .sending out =>
      if 0 < n ∧ n ≤ out.length then
        some ({ st with outbound := st.outbound ++ out.take n }.send M (out.drop n))
      else none
    | _ => none
  | .refuse =>
    match st.phase with
    | .selecting (.write _ k) _ => some (st.proceed M (k false))
    | .sending _ => some { st with phase := .ended none }
    | _ => none
  | .localRead data =>
    match st.phase with
    | .selecting _ _ =>
      if data ≠ [] ∧ data.length ≤ M.bufLen then some (st.localRead M data) else none
    | _ => none
  | .localEof =>
    match st.phase with
    | .selecting _ _ => some { st with phase := .ended none }
    | _ => none
  | .deliver n =>
    match st.phase with
    | .delivering data =>
      if 0 < n ∧ n ≤ data.length then
        some ({ st with delivered := st.delivered ++ data.take n }.hand M (data.drop n))
      else none
    | _ => none
  | .localGone =>
    match st.phase with
    | .delivering _ => some { st with phase := .ended none }
    | _ => none

/-- What a step can do, one constructor for each way in which the task goes on. -/
inductive Stepped (st : State τ σ α ε) : Event → State τ σ α ε → Prop where
  | arrive {n : ℕ} (hopen : st.closed = false) (hn : n ≤ st.unsent.length) :
      Stepped st (.arrive n)
        { st with inbound := st.inbound ++ st.unsent.take n, unsent := st.unsent.drop n }
  | close : Stepped st .close { st with closed := true }
  | take {n : ℕ} {label : τ} {need : ℕ} {eof : Reader τ σ α} {k : List UInt8 → Reader τ σ α}
      {got : List UInt8} (hp : st.phase = .selecting (.read label need eof k) got)
      (hn : n ≤ st.inbound.length) (hle : got.length + n ≤ need) :
      Stepped st (.take n) ({ st with inbound := st.inbound.drop n }.takeInto M label need eof k
        (got ++ st.inbound.take n))
  | eof {label : τ} {need : ℕ} {eof : Reader τ σ α} {k : List UInt8 → Reader τ σ α}
      {got : List UInt8} (hp : st.phase = .selecting (.read label need eof k) got)
      (hclosed : st.closed = true) (hempty : st.inbound = []) :
      Stepped st .eof (st.proceed M eof)
  | acceptAll {out : List UInt8} {k : Bool → Reader τ σ α} {got : List UInt8}
      (hp : st.phase = .selecting (.write out k) got) :
      Stepped st (.accept out.length)
        ({ st with outbound := st.outbound ++ out.take out.length }.proceed M (k true))
  | acceptSome {n : ℕ} {out : List UInt8} {k : Bool → Reader τ σ α} {got : List UInt8}
      (hp : st.phase = .selecting (.write out k) got) (hpos : 0 < n) (hlt : n < out.length) :
      Stepped st (.accept n) { st with
        outbound := st.outbound ++ out.take n
        phase := .selecting (.write (out.drop n) k) (got ++ out.take n) }
  | acceptSent {n : ℕ} {out : List UInt8} (hp : st.phase = .sending out) :
      Stepped st (.accept n) ({ st with outbound := st.outbound ++ out.take n }.send M (out.drop n))
  | refuse {out : List UInt8} {k : Bool → Reader τ σ α} {got : List UInt8}
      (hp : st.phase = .selecting (.write out k) got) :
      Stepped st .refuse (st.proceed M (k false))
  | refuseSent {out : List UInt8} (hp : st.phase = .sending out) :
      Stepped st .refuse { st with phase := .ended none }
  | localRead {data : List UInt8} {r : Reader τ σ α} {got : List UInt8}
      (hp : st.phase = .selecting r got) (hne : data ≠ []) (hle : data.length ≤ M.bufLen) :
      Stepped st (.localRead data) (st.localRead M data)
  | localEof {r : Reader τ σ α} {got : List UInt8} (hp : st.phase = .selecting r got) :
      Stepped st .localEof { st with phase := .ended none }
  | deliver {n : ℕ} {data : List UInt8} (hp : st.phase = .delivering data) :
      Stepped st (.deliver n)
        ({ st with delivered := st.delivered ++ data.take n }.hand M (data.drop n))
  | localGone {data : List UInt8} (hp : st.phase = .delivering data) :
      Stepped st .localGone { st with phase := .ended none }

theorem stepped_of_step {st st' : State τ σ α ε} {e : Event} (h : M.step st e = some st') :
    M.Stepped st e st' := by
  cases e with
  | arrive n =>
    simp only [step, Option.ite_none_right_eq_some, Option.some.injEq,
      Bool.not_eq_eq_eq_not, Bool.not_true] at h
    obtain ⟨⟨hopen, _, hn⟩, rfl⟩ := h
    exact .arrive hopen hn
  | close =>
    simp only [step, Option.ite_none_right_eq_some, Option.some.injEq] at h
    obtain ⟨_, rfl⟩ := h
    exact .close
  | take n =>
    simp only [step] at h
    split at h
    · next hp =>
      simp only [Option.ite_none_right_eq_some, Option.some.injEq] at h
      obtain ⟨⟨_, hn, hle⟩, rfl⟩ := h
      exact .take hp hn hle
    · cases h
  | eof =>
    simp only [step] at h
    split at h
    · next hp =>
      simp only [Option.ite_none_right_eq_some, Option.some.injEq] at h
      obtain ⟨⟨hclosed, hempty⟩, rfl⟩ := h
      exact .eof hp hclosed hempty
    · cases h
  | accept n =>
    simp only [step] at h
    split at h
    · next hp =>
      simp only [Option.ite_none_right_eq_some] at h
      obtain ⟨⟨hpos, hle⟩, h⟩ := h
      split_ifs at h with hn
      · obtain rfl := Option.some.inj h
        subst hn
        exact .acceptAll hp
      · obtain rfl := Option.some.inj h
        exact .acceptSome hp hpos (Nat.lt_of_le_of_ne hle hn)
    · next hp =>
      simp only [Option.ite_none_right_eq_some, Option.some.injEq] at h
      obtain ⟨_, rfl⟩ := h
      exact .acceptSent hp
    · cases h
  | refuse =>
    simp only [step] at h
    split at h
    · next hp =>
      obtain rfl := Option.some.inj h
      exact .refuse hp
    · next hp =>
      obtain rfl := Option.some.inj h
      exact .refuseSent hp
    · cases h
  | localRead data =>
    simp only [step] at h
    split at h
    · next hp =>
      simp only [Option.ite_none_right_eq_some, Option.some.injEq] at h
      obtain ⟨⟨hne, hle⟩, rfl⟩ := h
      exact .localRead hp hne hle
    · cases h
  | localEof | localGone =>
    simp only [step] at h
    split at h
    · next hp =>
      obtain rfl := Option.some.inj h
      constructor
      exact hp
    · cases h
  | deliver n =>
    simp only [step] at h
    split at h
    · next hp =>
      simp only [Option.ite_none_right_eq_some, Option.some.injEq] at h
      obtain ⟨_, rfl⟩ := h
      exact .deliver hp
    · cases h

/-- Before the first turn, with the whole of the remote side's bytes still to come. -/
def initial (s : σ) (wire : List UInt8) : State τ σ α ε :=
  State.fresh M ⟨s, .ended none, wire, [], false, [], []⟩

end Pump

end EasyConnection.Async
