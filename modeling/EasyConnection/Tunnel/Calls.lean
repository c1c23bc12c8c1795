import EasyConnection.Async.Run
import EasyConnection.Tunnel.Manager
import Mathlib.Data.Fintype.Basic

/-! # Calls of the manager side by side

Any number of calls of `connect` and `disconnect` are in progress at once, together with the
statistics pollers of the sessions. A poller copies the snapshot, and writes the copy back with
the new statistics; aborting it takes effect when it sleeps.
-/
namespace EasyConnection.Tunnel
open Async Config

/-- What of a session is running. -/
structure Live where
  ssh : Bool
  proxies : Bool
  helper : Bool
  deriving DecidableEq

namespace Live

def off : Live := ⟨false, false, false⟩

def any (l : Live) : Bool := l.ssh || l.proxies || l.helper

end Live

def ActiveSession.live {ι : Type} (s : ActiveSession ι) : Live := ⟨s.ssh, true, s.helper⟩

/-- A poller sleeps, is awake with the new statistics, or holds the snapshot that it will write.
The flag tells that it has been aborted while it was running. -/
inductive Poller where
  | absent
  | asleep
  | awake (aborted : Bool) (stats : TrafficStats)
  | holding (aborted : Bool) (snap : ConnectionSnapshot)
  | gone
  deriving DecidableEq

namespace Poller

/-- The end of one turn. -/
def rest (aborted : Bool) : Poller := if aborted then .gone else .asleep

def abort : Poller → Poller
  | .absent => .absent
  | .asleep => .gone
  | .awake _ stats => .awake true stats
  | .holding _ snap => .holding true snap
  | .gone => .gone

/-- An aborted poller that has not ended yet. -/
def lingers : Poller → Bool
  | .awake aborted _ => aborted
  | .holding aborted _ => aborted
  | _ => false

end Poller

structure World (ι : Type) where
  snapshot : ConnectionSnapshot
  active : Option (ActiveSession ι)
  live : ι → Live
  /-- The tasks of each session whose stop token has not been cancelled. -/
  tasks : ι → List Task
  pollers : ι → Poller
  /-- The call of `disconnect` that took each session. -/
  takenBy : ι → Option ι

variable {ι : Type} [DecidableEq ι]

namespace World
variable (w : World ι)

def setTasks (i : ι) (f : List Task → List Task) : World ι :=
  { w with tasks := Function.update w.tasks i (f (w.tasks i)) }

def setPoller (i : ι) (f : Poller → Poller) : World ι :=
  { w with pollers := Function.update w.pollers i (f (w.pollers i)) }

/-- `me` empties the slot. -/
def takeActive (me : ι) : World ι :=
  match w.active with
  | none => w
  | some s => { w with active := none, takenBy := Function.update w.takenBy s.id (some me) }

end World

/-- What the environment answers to each call whose answer the world does not fix. -/
abbrev Env (ι : Type) := (o : Op ι) → Ans o

def answer (w : World ι) (env : Env ι) : (o : Op ι) → Ans o
  | .inspect => w.active.isSome
  | .take => w.active
  | .readSnapshot => w.snapshot
  | o => env o

/-- The session whose parts a call starts or stops, and how. The helper ends a session whose
client goes away, so a teardown that reports an error still ends it; and only a connection that
is already gone refuses to be disconnected. -/
def liveEffect {ι : Type} : (o : Op ι) → Ans o → Option (ι × (Live → Live))
  | .openSsh i _, .ok _ => some (i, fun l => { l with ssh := true })
  | .disconnectSsh i, _ => some (i, fun l => { l with ssh := false })
  | .startProxies i _ _ _, .ok _ => some (i, fun l => { l with proxies := true })
  | .stopProxies i, _ => some (i, fun l => { l with proxies := false })
  | .apply i _, .ok _ => some (i, fun l => { l with helper := true })
  | .dropHelper i, _ => some (i, fun l => { l with helper := false })
  | .teardownHelper i, _ => some (i, fun l => { l with helper := false })
  | _, _ => none

def World.setParts (w : World ι) : Option (ι × (Live → Live)) → World ι
  | some (i, f) => { w with live := Function.update w.live i (f (w.live i)) }
  | none => w

/-- What a call of `me` does, given its answer. -/
def effect (me : ι) (w : World ι) (o : Op ι) (a : Ans o) : World ι :=
  match o with
  | .take => w.takeActive me
  | .store s => { w with active := some s }
  | .writeSnapshot s => { w with snapshot := s }
  | .spawn i t => w.setTasks i (t :: ·)
  | .cancelStop i => w.setTasks i fun _ => []
  | .abortTun i => w.setTasks i (·.filter (· ≠ .drainTun))
  | .spawnPoller i => w.setPoller i fun _ => .asleep
  | .stopPoller i => w.setPoller i .abort
  | o => w.setParts (liveEffect o a)

inductive Request where
  | connect (profile : ConnectionConfig)
  | disconnect
  deriving DecidableEq

def program [Texts] (i : ι) : Request → TunnelM ι (Except TunnelError ConnectionSnapshot)
  | .connect profile => connect i profile
  | .disconnect => disconnect

inductive Phase (ι : Type) where
  | idle
  | busy (req : Request) (p : TunnelM ι (Except TunnelError ConnectionSnapshot))
  | returned (req : Request) (r : Except TunnelError ConnectionSnapshot)

structure State (ι : Type) where
  world : World ι
  calls : ι → Phase ι

inductive Event (ι : Type) where
  | call (i : ι) (req : Request)
  | step (i : ι) (env : Env ι)
  | finish (i : ι)
  | wake (i : ι) (stats : TrafficStats)
  | pollRead (i : ι)
  | pollWrite (i : ι)

namespace State
variable (st : State ι)

def setCall (i : ι) (ph : Phase ι) : State ι :=
  { st with calls := Function.update st.calls i ph }

def setPoller (i : ι) (p : Poller) : State ι := { st with world := st.world.setPoller i fun _ => p }

/-- A poller goes back to sleep if the snapshot does not say that the tunnel is up. -/
def pollRead (i : ι) (aborted : Bool) (stats : TrafficStats) : State ι :=
  if st.world.snapshot.state.isUp then
    st.setPoller i (.holding aborted { st.world.snapshot with stats := stats })
  else st.setPoller i (.rest aborted)

def pollWrite (i : ι) (aborted : Bool) (snap : ConnectionSnapshot) : State ι :=
  { st with world := { st.world with snapshot := snap } }.setPoller i (.rest aborted)

/-- A poller that reads the snapshot changes nothing but itself. -/
theorem pollRead_world (i : ι) (aborted : Bool) (stats : TrafficStats) :
    ∃ w : World ι, st.pollRead i aborted stats = { st with world := w } ∧
      w.live = st.world.live ∧ w.active = st.world.active ∧ w.takenBy = st.world.takenBy := by
  unfold pollRead
  split_ifs <;> exact ⟨_, rfl, rfl, rfl, rfl⟩

end State

def step [Texts] (st : State ι) : Event ι → Option (State ι)
  | .call i req =>
    match st.calls i with
    | .idle => some (st.setCall i (.busy req (program i req)))
    | _ => none
  | .step i env =>
    match st.calls i with
    | .busy req (.call o k) =>
      let a := answer st.world env o
      some ({ st with world := effect i st.world o a }.setCall i (.busy req (k a)))
    | _ => none
  | .finish i =>
    match st.calls i with
    | .busy req (.ret r) => some (st.setCall i (.returned req r))
    | _ => none
  | .wake i stats =>
    match st.world.pollers i with
    | .asleep => some (st.setPoller i (.awake false stats))
    | _ => none
  | .pollRead i =>
    match st.world.pollers i with
    | .awake aborted stats => some (st.pollRead i aborted stats)
    | _ => none
  | .pollWrite i =>
    match st.world.pollers i with
    | .holding aborted snap => some (st.pollWrite i aborted snap)
    | _ => none

/-- A manager that has just been made. -/
def State.initial : State ι where
  world := ⟨.default, none, fun _ => .off, fun _ => [], fun _ => .absent, fun _ => none⟩
  calls _ := .idle

namespace Phase
variable {ι : Type}

def inProgress : Phase ι → Bool
  | .busy _ _ => true
  | _ => false

/-- A `connect` that is about to store its session. -/
def storing : Phase ι → Bool
  | .busy _ (.call (.store _) _) => true
  | _ => false

/-- A `connect` that has returned a snapshot. -/
def connected : Phase ι → Bool
  | .returned (.connect _) (.ok _) => true
  | _ => false

/-- A `disconnect` that has returned a snapshot. -/
def disconnected : Phase ι → Bool
  | .returned .disconnect (.ok _) => true
  | _ => false

end Phase

/-- No `connect` or `disconnect` is in progress. -/
def Quiet {ι : Type} (st : State ι) : Prop := ∀ i, (st.calls i).inProgress = false

instance {ι : Type} [Fintype ι] (st : State ι) : Decidable (Quiet st) :=
  inferInstanceAs (Decidable (∀ _, _))

/-- What a step can do, one constructor for each branch of `step`. -/
inductive Moves [Texts] (st : State ι) : Event ι → State ι → Prop where
  | call {i : ι} {req : Request} (hidle : st.calls i = .idle) :
      Moves st (.call i req) (st.setCall i (.busy req (program i req)))
  | work {i : ι} {env : Env ι} {req : Request} {o : Op ι}
      {k : Ans o → TunnelM ι (Except TunnelError ConnectionSnapshot)}
      (hbusy : st.calls i = .busy req (.call o k)) :
      Moves st (.step i env)
        ({ st with world := effect i st.world o (answer st.world env o) }.setCall i
          (.busy req (k (answer st.world env o))))
  | finish {i : ι} {req : Request} {r : Except TunnelError ConnectionSnapshot}
      (hret : st.calls i = .busy req (.ret r)) :
      Moves st (.finish i) (st.setCall i (.returned req r))
  | wake {i : ι} {stats : TrafficStats} (hasleep : st.world.pollers i = .asleep) :
      Moves st (.wake i stats) (st.setPoller i (.awake false stats))
  | pollRead {i : ι} {aborted : Bool} {stats : TrafficStats}
      (hawake : st.world.pollers i = .awake aborted stats) :
      Moves st (.pollRead i) (st.pollRead i aborted stats)
  | pollWrite {i : ι} {aborted : Bool} {snap : ConnectionSnapshot}
      (hholding : st.world.pollers i = .holding aborted snap) :
      Moves st (.pollWrite i) (st.pollWrite i aborted snap)

theorem step_moves [Texts] {st st' : State ι} {e : Event ι} (h : step st e = some st') :
    Moves st e st' := by
  cases e with
  | call i req =>
    simp only [step] at h
    split at h
    · next hidle =>
      obtain rfl := Option.some.inj h
      exact .call hidle
    · cases h
  | step i env =>
    simp only [step] at h
    split at h
    · next hbusy =>
      obtain rfl := Option.some.inj h
      exact .work hbusy
    · cases h
  | finish i =>
    simp only [step] at h
    split at h
    · next hret =>
      obtain rfl := Option.some.inj h
      exact .finish hret
    · cases h
  | wake i stats =>
    simp only [step] at h
    split at h
    · next hasleep =>
      obtain rfl := Option.some.inj h
      exact .wake hasleep
    · cases h
  | pollRead i =>
    simp only [step] at h
    split at h
    · next hawake =>
      obtain rfl := Option.some.inj h
      exact .pollRead hawake
    · cases h
  | pollWrite i =>
    simp only [step] at h
    split at h
    · next hholding =>
      obtain rfl := Option.some.inj h
      exact .pollWrite hholding
    · cases h

end EasyConnection.Tunnel
