import EasyConnection.Async.Run
import EasyConnection.Helper.Session
import Mathlib.Data.Fintype.Basic

/-! # The helper's connections

Every authorized client has a task that takes one request at a time. The tasks share the world
and are interleaved between calls. A task remembers whether its own `Apply` succeeded, and
tears the session down when its client goes away after that. Once a response has been sent, the
client has the only descriptor of the device.
-/
namespace EasyConnection.Helper
open Async Nftables

def ipcVersion : UInt32 := 1

inductive HelperRequest where
  | ping (version : UInt32)
  | cleanup
  | apply (spec : ApplySpec)
  | teardown
  | emergencyRestore
  deriving DecidableEq

/-- Requests that restore the network. -/
def HelperRequest.restores : HelperRequest → Bool
  | .teardown => true
  | .cleanup => true
  | .emergencyRestore => true
  | _ => false

inductive HelperResponse where
  | pong (version uid : UInt32)
  | ok (message : String) (tunName : Option String)
  | error (message : String)
  deriving DecidableEq

/-- What a handled request leaves to do: the response, the descriptor to pass along with it, and
the new value of the task's flag if it changes. -/
structure Done where
  response : HelperResponse
  fd : Option Fd
  owns : Option Bool
  deriving DecidableEq

def applyDone : Except String (String × Fd) → Done
  | .ok (msg, fd) => ⟨.ok msg (some tunName), some fd, some true⟩
  | .error e => ⟨.error e, none, none⟩

def restoreDone (message : String) : Done := ⟨.ok message none, none, some false⟩

def restoreAll : HelperM Done := do
  teardownSession
  cleanupStale
  return restoreDone "networking restored; leftover Easy Connection state removed"

/-- The body of the request loop. -/
def handle (uid : UInt32) : HelperRequest → HelperM Done
  | .ping version =>
    if version ≠ ipcVersion then
      return ⟨.error ("helper IPC version mismatch: client " ++ toString version ++ ", helper " ++
        toString ipcVersion), none, none⟩
    else return ⟨.pong ipcVersion uid, none, none⟩
  | .cleanup => restoreAll
  | .emergencyRestore => restoreAll
  | .teardown => do
    teardownSession
    return restoreDone "tunnel networking restored"
  | .apply spec => do
    let r ← applySpec spec
    return applyDone r

/-- An `Apply` that has found no session. -/
def build (spec : ApplySpec) : HelperM Done := do
  let r ← buildSession spec
  return applyDone r

/-- An `Apply` with the answer to its question for a session. -/
def checked (spec : ApplySpec) (active : Bool) : HelperM Done :=
  if active then .ret (applyDone (.error sessionActiveMessage)) else build spec

/-- An `Apply` is refused for its contents, or asks for a session. -/
theorem handle_apply (uid : UInt32) (spec : ApplySpec) :
    (∃ e, handle uid (.apply spec) = .ret (applyDone (.error e))) ∨
      handle uid (.apply spec) = .call .sessionActive (checked spec) := by
  simp only [handle, applySpec]
  cases hv : spec.validate with
  | error e => exact .inl ⟨e, rfl⟩
  | ok u =>
    right
    change Prog.call Op.sessionActive _ = _
    congr 1
    funext active
    cases active <;> rfl

/-- A task waits for a request, works on one, sends a response, tears down after its client has
gone, or has ended. -/
inductive Phase where
  | idle
  | busy (req : HelperRequest) (p : HelperM Done)
  | replying (d : Done)
  | leaving (p : HelperM Unit)
  | gone

structure Conn where
  owns : Bool
  phase : Phase

/-- An `Apply` that has returned, with what it returned and the table it left. -/
structure Returned (ι : Type) where
  conn : ι
  fd : Option Fd
  table : Option (List String)
  deriving DecidableEq

structure State (ι : Type) where
  world : World ι
  conns : ι → Conn
  /-- The `Apply` requests that have returned, latest first. -/
  returned : List (Returned ι)

inductive Event (ι : Type) where
  | request (c : ι) (req : HelperRequest)
  | step (c : ι) (choice : Option Failure)
  | reply (c : ι)
  | disconnect (c : ι)
  /-- The client closes a descriptor that it has been passed. -/
  | close (c : ι) (fd : Fd)
  deriving DecidableEq

variable {ι : Type} [DecidableEq ι]

namespace State
variable (st : State ι)

def setPhase (c : ι) (ph : Phase) : State ι :=
  { st with conns := Function.update st.conns c ⟨(st.conns c).owns, ph⟩ }

def logApply (c : ι) (d : Done) : HelperRequest → List (Returned ι)
  | .apply _ => ⟨c, d.fd, st.world.table⟩ :: st.returned
  | _ => st.returned

/-- The task goes on to its next call, or has handled its request. -/
def work (c : ι) (req : HelperRequest) : HelperM Done → State ι
  | .ret d => { st with
      conns := Function.update st.conns c ⟨d.owns.getD (st.conns c).owns, .replying d⟩
      returned := st.logApply c d req }
  | p => st.setPhase c (.busy req p)

def leave (c : ι) : HelperM Unit → State ι
  | .ret () => { st with conns := Function.update st.conns c ⟨false, .gone⟩ }
  | p => st.setPhase c (.leaving p)

/-- The client has been passed the descriptor: an `Apply` has returned it, and the response is
not being sent any more. -/
def passed (c : ι) (fd : Fd) : Bool :=
  st.returned.any (fun r => r.conn == c && r.fd == some fd) &&
    match (st.conns c).phase with
    | .replying d => d.fd != some fd
    | _ => true

end State

def step (uid : ι → UInt32) (st : State ι) : Event ι → Option (State ι)
  | .request c req =>
    match (st.conns c).phase with
    | .idle => some (st.work c req (handle (uid c) req))
    | _ => none
  | .step c choice =>
    match (st.conns c).phase with
    | .busy req (.call o k) =>
      let r := exec c o choice st.world
      some ({ st with world := r.1 }.work c req (k r.2))
    | .leaving (.call o k) =>
      let r := exec c o choice st.world
      some ({ st with world := r.1 }.leave c (k r.2))
    | _ => none
  | .reply c =>
    match (st.conns c).phase with
    | .replying _ => some (st.setPhase c .idle)
    | _ => none
  | .disconnect c =>
    match (st.conns c).phase with
    | .idle | .replying _ =>
      if (st.conns c).owns then some (st.leave c teardownSession)
      else some (st.setPhase c .gone)
    | _ => none
  | .close c fd =>
    if st.passed c fd then some { st with world := st.world.closeTun fd } else none

/-- The helper after its start, when no session has been applied. -/
def State.initial (w : World ι) : State ι :=
  ⟨{ w with session := none }, fun _ => ⟨false, .idle⟩, []⟩

/-- A task that works on a request or tears down. -/
def Phase.active : Phase → Bool
  | .busy _ _ => true
  | .leaving _ => true
  | _ => false

/-- No request is in progress. -/
def Quiet {ι : Type} (st : State ι) : Prop := ∀ c, (st.conns c).phase.active = false

instance {ι : Type} [Fintype ι] (st : State ι) : Decidable (Quiet st) :=
  inferInstanceAs (Decidable (∀ _, _))

/-- A task whose `Apply` has found no session and has not returned. -/
def Phase.building : Phase → Bool
  | .busy (.apply _) (.call .sessionActive _) => false
  | .busy (.apply _) _ => true
  | _ => false

/-- A task whose `Apply` is about to look for a session. -/
def Phase.checking : Phase → Bool
  | .busy (.apply _) (.call .sessionActive _) => true
  | _ => false

/-- A task that tears down or cleans up. -/
def Phase.restoring : Phase → Bool
  | .busy .teardown _ => true
  | .busy .cleanup _ => true
  | .busy .emergencyRestore _ => true
  | .leaving _ => true
  | _ => false

/-- What a step can do, one constructor for each branch of `step`. -/
inductive Moves (uid : ι → UInt32) (st : State ι) : Event ι → State ι → Prop where
  | request {c : ι} {req : HelperRequest} (hidle : (st.conns c).phase = .idle) :
      Moves uid st (.request c req) (st.work c req (handle (uid c) req))
  | work {c : ι} {choice : Option Failure} {req : HelperRequest} {o : Op} {k : Ans o → HelperM Done}
      (hbusy : (st.conns c).phase = .busy req (.call o k)) :
      Moves uid st (.step c choice) ({ st with world := (exec c o choice st.world).1 }.work c req
        (k (exec c o choice st.world).2))
  | leave {c : ι} {choice : Option Failure} {o : Op} {k : Ans o → HelperM Unit}
      (hleaving : (st.conns c).phase = .leaving (.call o k)) :
      Moves uid st (.step c choice) ({ st with world := (exec c o choice st.world).1 }.leave c
        (k (exec c o choice st.world).2))
  | reply {c : ι} {d : Done} (hreply : (st.conns c).phase = .replying d) :
      Moves uid st (.reply c) (st.setPhase c .idle)
  | teardown {c : ι} (hwait : (st.conns c).phase.active = false)
      (howns : (st.conns c).owns = true) :
      Moves uid st (.disconnect c) (st.leave c teardownSession)
  | depart {c : ι} (hwait : (st.conns c).phase.active = false)
      (howns : (st.conns c).owns = false) :
      Moves uid st (.disconnect c) (st.setPhase c .gone)
  | close {c : ι} {fd : Fd} (hpassed : st.passed c fd = true) :
      Moves uid st (.close c fd) { st with world := st.world.closeTun fd }

theorem step_moves {uid : ι → UInt32} {st st' : State ι} {e : Event ι}
    (h : step uid st e = some st') : Moves uid st e st' := by
  cases e with
  | request c req =>
    simp only [step] at h
    split at h
    · next hidle =>
      obtain rfl := Option.some.inj h
      exact .request hidle
    · cases h
  | step c choice =>
    simp only [step] at h
    split at h
    · next hbusy =>
      obtain rfl := Option.some.inj h
      exact .work hbusy
    · next hleaving =>
      obtain rfl := Option.some.inj h
      exact .leave hleaving
    · cases h
  | reply c =>
    simp only [step] at h
    split at h
    · next hreply =>
      obtain rfl := Option.some.inj h
      exact .reply hreply
    · cases h
  | disconnect c =>
    have hcases : (st.conns c).phase.active = false ∧
        (if (st.conns c).owns then some (st.leave c teardownSession)
          else some (st.setPhase c .gone)) = some st' := by
      simp only [step] at h
      split at h
      · next hidle => exact ⟨by rw [hidle]; rfl, h⟩
      · next hreply => exact ⟨by rw [hreply]; rfl, h⟩
      · cases h
    obtain ⟨hwait, hif⟩ := hcases
    split_ifs at hif with howns
    · obtain rfl := Option.some.inj hif
      exact .teardown hwait howns
    · obtain rfl := Option.some.inj hif
      exact .depart hwait (by simpa using howns)
  | close c fd =>
    simp only [step] at h
    split_ifs at h with hpassed
    obtain rfl := Option.some.inj h
    exact .close hpassed

section Updates
variable {st : State ι} {c d : ι}

@[simp] theorem setPhase_world (ph : Phase) : (st.setPhase c ph).world = st.world := rfl

@[simp] theorem setPhase_self (ph : Phase) :
    (st.setPhase c ph).conns c = ⟨(st.conns c).owns, ph⟩ := by
  simp [State.setPhase]

theorem setPhase_of_ne (ph : Phase) (h : d ≠ c) : (st.setPhase c ph).conns d = st.conns d := by
  simp [State.setPhase, Function.update_of_ne h]

@[simp] theorem work_world (req : HelperRequest) (p : HelperM Done) :
    (st.work c req p).world = st.world := by
  cases p <;> rfl

theorem work_call_phase (st : State ι) (c : ι) (req : HelperRequest) (o : Op)
    (k : Ans o → HelperM Done) :
    ((st.work c req (.call o k)).conns c).phase = .busy req (.call o k) := by
  simp [State.work]

theorem work_of_ne (req : HelperRequest) (p : HelperM Done) (h : d ≠ c) :
    (st.work c req p).conns d = st.conns d := by
  cases p <;> simp [State.work, State.setPhase, Function.update_of_ne h]

@[simp] theorem leave_world (p : HelperM Unit) : (st.leave c p).world = st.world := by
  cases p <;> rfl

theorem leave_of_ne (p : HelperM Unit) (h : d ≠ c) : (st.leave c p).conns d = st.conns d := by
  cases p <;> simp [State.leave, State.setPhase, Function.update_of_ne h]

end Updates

/-- One of two clients. -/
def clientA : Fin 2 := 0

def clientB : Fin 2 := 1

/-- A machine without any trace of an earlier session. -/
def cleanWorld : World (Fin 2) := ⟨none, none, 3, none, [], none⟩

/-- An `Apply` of the sample request in which nothing fails. -/
def applyEvents (c : Fin 2) : List (Event (Fin 2)) :=
  .request c (.apply sampleSpec) :: List.replicate 19 (.step c none) ++ [.reply c]

end EasyConnection.Helper
