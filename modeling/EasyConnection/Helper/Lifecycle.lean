import EasyConnection.Helper.Agreement
import Mathlib.Data.Fintype.Option

/-! # The life of the helper

The helper cleans up when it starts, then listens until a signal makes it tear down, and may be
killed at any moment. Its record of the session dies with it; the table, the DNS settings and
the journal do not, and the device only when nobody else has a descriptor of it. The main task
shares the world with the clients' tasks, and is none of them.
-/
namespace EasyConnection.Helper
open Async Nftables

structure Allow where
  uids : List UInt32
  activeSessions : Bool
  deriving DecidableEq

/-- A user has a session if there is a directory for it under `/run/user`. -/
def authorized (uid : UInt32) (allow : Allow) (hasSession : Bool) : Bool :=
  uid == 0 || allow.uids.contains uid || (allow.activeSessions && hasSession)

def denial (uid : UInt32) : HelperResponse :=
  .error ("uid " ++ toString uid ++ " is not authorized to use easy-helper. Pass --allow-uid " ++
    toString uid ++ " or add the user to an active session.")

inductive Peer where
  | absent
  | denied (response : HelperResponse)
  | accepted (uid : UInt32)
  deriving DecidableEq

namespace Peer

def uid : Peer → UInt32
  | .accepted uid => uid
  | _ => 0

def isAccepted : Peer → Bool
  | .accepted _ => true
  | _ => false

end Peer

inductive Stage where
  | starting
  | listening
  | stopping
  deriving DecidableEq

/-- Connection `none` is the main task. -/
inductive Daemon (ι : Type) where
  | off (w : World (Option ι))
  | on (stage : Stage) (st : State (Option ι)) (peers : ι → Peer)

inductive DaemonEvent (ι : Type) where
  | start
  | listen
  | connect (c : ι) (uid : UInt32) (hasSession : Bool)
  | client (c : ι) (e : Event (Option ι))
  /-- The main task makes its next call. -/
  | main (choice : Option Failure)
  | signal
  /-- The main task has returned. The device may have been the helper's only. -/
  | exit (closes : Bool)
  | kill (closes : Bool)
  /-- A client of an earlier life closes its descriptor. The start deletes the device of such a
  client, so that this means nothing once the helper listens. -/
  | release (fd : Fd)

/-- The connection whose event it is. -/
def Event.conn {ι : Type} : Event ι → ι
  | .request c _ => c
  | .step c _ => c
  | .reply c => c
  | .disconnect c => c
  | .close c _ => c

variable {ι : Type}

/-- What is left when the process is gone. -/
def World.orphaned (closes : Bool) (w : World ι) : World ι := if closes then w.dropTun else w

namespace Daemon
variable [DecidableEq ι] (allow : Allow)

def uidOf (peers : ι → Peer) : Option ι → UInt32
  | some c => (peers c).uid
  | none => 0

/-- The main task has done what it had to do. -/
def mainDone (st : State (Option ι)) : Bool :=
  match (st.conns none).phase with
  | .gone => true
  | _ => false

def letIn (uid : UInt32) (hasSession : Bool) : Peer :=
  if authorized uid allow hasSession then .accepted uid else .denied (denial uid)

def step : Daemon ι → DaemonEvent ι → Option (Daemon ι)
  | .off w, .start =>
    some (.on .starting ((State.initial w).leave none cleanupStale) fun _ => .absent)
  | .on .starting st peers, .listen =>
    if mainDone st then some (.on .listening st peers) else none
  | .on .listening st peers, .connect c uid hasSession =>
    match peers c with
    | .absent => some (.on .listening st (Function.update peers c (letIn allow uid hasSession)))
    | _ => none
  | .on stage st peers, .client c e =>
    if e.conn = some c ∧ (peers c).isAccepted then
      (Helper.step (uidOf peers) st e).map fun st' => .on stage st' peers
    else none
  | .on stage st peers, .main choice =>
    (Helper.step (uidOf peers) st (.step none choice)).map fun st' => .on stage st' peers
  | .on .listening st peers, .signal => some (.on .stopping (st.leave none teardownSession) peers)
  | .on .starting st _, .exit closes =>
    if mainDone st then some (.off (st.world.orphaned closes)) else none
  | .on .stopping st _, .exit closes =>
    if mainDone st then some (.off (st.world.orphaned closes)) else none
  | .on _ st _, .kill closes => some (.off (st.world.orphaned closes))
  | .off w, .release fd => some (.off (w.closeTun fd))
  | .on .starting st peers, .release fd =>
    some (.on .starting { st with world := st.world.closeTun fd } peers)
  | _, _ => none

/-- What a step can do. -/
inductive Moves : Daemon ι → DaemonEvent ι → Daemon ι → Prop where
  | start {w : World (Option ι)} :
      Moves (.off w) .start (.on .starting ((State.initial w).leave none cleanupStale) fun _ => .absent)
  | listen {st : State (Option ι)} {peers : ι → Peer} (hdone : (st.conns none).phase = .gone) :
      Moves (.on .starting st peers) .listen (.on .listening st peers)
  | connect {st : State (Option ι)} {peers : ι → Peer} {c : ι} {uid : UInt32} {hasSession : Bool}
      (habsent : peers c = .absent) :
      Moves (.on .listening st peers) (.connect c uid hasSession)
        (.on .listening st (Function.update peers c (letIn allow uid hasSession)))
  | client {stage : Stage} {st st' : State (Option ι)} {peers : ι → Peer} {c : ι}
      {e : Event (Option ι)} (hconn : e.conn = some c) (hpeer : (peers c).isAccepted = true)
      (hstep : Helper.step (uidOf peers) st e = some st') :
      Moves (.on stage st peers) (.client c e) (.on stage st' peers)
  | main {stage : Stage} {st st' : State (Option ι)} {peers : ι → Peer} {choice : Option Failure}
      (hstep : Helper.step (uidOf peers) st (.step none choice) = some st') :
      Moves (.on stage st peers) (.main choice) (.on stage st' peers)
  | signal {st : State (Option ι)} {peers : ι → Peer} :
      Moves (.on .listening st peers) .signal (.on .stopping (st.leave none teardownSession) peers)
  | halt {stage : Stage} {st : State (Option ι)} {peers : ι → Peer} {closes : Bool}
      {e : DaemonEvent ι} : Moves (.on stage st peers) e (.off (st.world.orphaned closes))
  | released {w : World (Option ι)} {fd : Fd} :
      Moves (.off w) (.release fd) (.off (w.closeTun fd))
  | release {st : State (Option ι)} {peers : ι → Peer} {fd : Fd} :
      Moves (.on .starting st peers) (.release fd)
        (.on .starting { st with world := st.world.closeTun fd } peers)

omit [DecidableEq ι] in
theorem mainDone_eq_true {st : State (Option ι)} (h : mainDone st = true) :
    (st.conns none).phase = .gone := by
  unfold mainDone at h
  split at h
  · next hgone => exact hgone
  · cases h

variable {allow} in
theorem step_moves {d d' : Daemon ι} {e : DaemonEvent ι} (h : d.step allow e = some d') :
    Moves allow d e d' := by
  unfold step at h
  split at h
  · obtain rfl := Option.some.inj h
    exact .start
  · split_ifs at h with hdone
    obtain rfl := Option.some.inj h
    exact .listen (mainDone_eq_true hdone)
  · split at h
    · next habsent =>
      obtain rfl := Option.some.inj h
      exact .connect habsent
    · cases h
  · split_ifs at h with hguard
    obtain ⟨st', hst', rfl⟩ := Option.map_eq_some_iff.1 h
    exact .client hguard.1 hguard.2 hst'
  · obtain ⟨st', hst', rfl⟩ := Option.map_eq_some_iff.1 h
    exact .main hst'
  · obtain rfl := Option.some.inj h
    exact .signal
  · split_ifs at h
    obtain rfl := Option.some.inj h
    exact .halt
  · split_ifs at h
    obtain rfl := Option.some.inj h
    exact .halt
  · obtain rfl := Option.some.inj h
    exact .halt
  · obtain rfl := Option.some.inj h
    exact .released
  · obtain rfl := Option.some.inj h
    exact .release
  · cases h

end Daemon

section Recovery
variable [DecidableEq ι] {allow : Allow}

/-- In the start the commands that take things away succeed; while the helper listens nothing
fails, the requests keep out of each other's way and the clients keep the device open until a
teardown has begun. Nothing is assumed of a teardown that a signal starts, and nothing of when the
helper is killed. -/
def Daemon.Orderly : Daemon ι → DaemonEvent ι → Prop
  | .on .starting st _, .main choice =>
    match (st.conns none).phase with
    | .leaving (.call o _) => RollsBack o choice st.world
    | _ => True
  | .on .listening st _, .client _ e => Faultless e ∧ Serialized st e
  | _, _ => True

/-- The main task takes away what is left of an earlier life. -/
def Starts (st : State (Option ι)) : Prop :=
  match (st.conns none).phase with
  | .leaving p => Restoring p st.world
  | .gone => st.world.session = none ∧ st.world.tun = none ∧ st.world.table = none
  | _ => False

def Daemon.Inv : Daemon ι → Prop
  | .on .starting st peers => Starts st ∧ (∀ c, (st.conns (some c)).phase = .idle) ∧
      ∀ c, peers c = .absent
  | .on .listening st _ => (Constructs st ∨ Settles st) ∧ (st.conns none).phase = .gone
  | _ => True

/-- A step is that of one connection. -/
theorem step_conns_of_ne {uid : ι → UInt32} {st st' : State ι} {e : Event ι} {d : ι}
    (hd : d ≠ e.conn) (hs : step uid st e = some st') : st'.conns d = st.conns d := by
  cases step_moves hs with
  | request hidle => exact work_of_ne _ _ hd
  | work hbusy => exact work_of_ne _ _ hd
  | leave hleaving => exact leave_of_ne _ hd
  | reply hreply => exact setPhase_of_ne _ hd
  | teardown hwait howns => exact leave_of_ne _ hd
  | depart hwait howns => exact setPhase_of_ne _ hd
  | close hpassed => rfl

theorem starts_leave {st : State (Option ι)} {p : HelperM Unit} (h : Restoring p st.world) :
    Starts (st.leave none p) := by
  cases p with
  | ret a => simpa [Starts, State.leave] using h.ret
  | call o k => simpa [Starts, State.leave] using h

theorem starts_step {uid : Option ι → UInt32} {st st' : State (Option ι)} {choice : Option Failure}
    (h : Starts st) (hrolls : Daemon.Orderly (.on .starting st fun _ => .absent) (.main choice))
    (hs : step uid st (.step none choice) = some st') : Starts st' := by
  cases step_moves hs with
  | @work _ _ req o k hbusy =>
    rw [Starts, hbusy] at h
    exact h.elim
  | @leave _ _ o k hleaving =>
    rw [Starts, hleaving] at h
    rw [Daemon.Orderly, hleaving] at hrolls
    exact starts_leave (h.step hrolls)

omit [DecidableEq ι] in
/-- A descriptor from an earlier life is closed while the helper starts. -/
theorem starts_release {st : State (Option ι)} (h : Starts st) (fd : Fd) :
    Starts { st with world := st.world.closeTun fd } := by
  have hshrinks := closeTun_shrinks st.world fd
  unfold Starts at h ⊢
  cases hphase : (st.conns none).phase with
  | leaving p =>
    simp only [hphase] at h ⊢
    exact h.shrink hshrinks
  | gone =>
    simp only [hphase] at h ⊢
    exact ⟨hshrinks.session h.1, hshrinks.tun h.2.1, hshrinks.table h.2.2⟩
  | _ => simp only [hphase] at h

omit [DecidableEq ι] in
/-- When the start is done, nothing is left of any earlier life. -/
theorem settles_of_absent {st : State (Option ι)}
    (h : st.world.session = none ∧ st.world.tun = none ∧ st.world.table = none)
    (hmain : (st.conns none).phase = .gone) (hidle : ∀ c, (st.conns (some c)).phase = .idle) :
    Settles st := by
  refine ⟨fun d => .inl ?_, fun _ => .inr h⟩
  cases d with
  | none =>
    rw [hmain]
    trivial
  | some c =>
    rw [hidle c]
    trivial

omit [DecidableEq ι] in
theorem restoring_start (w : World ι) (hsession : w.session = none) : Restoring cleanupStale w where
  only := only_cleanupStale.mono fun _ h => h.restores
  session := .inl hsession
  table := .inr must_cleanupStale_nftDelete
  tun := .inr must_cleanupStale_linkDelete

theorem Daemon.Inv.step {d d' : Daemon ι} {e : DaemonEvent ι} (h : d.Inv) (hok : d.Orderly e)
    (hs : d.step allow e = some d') : d'.Inv := by
  cases Daemon.step_moves hs with
  | start =>
    refine ⟨starts_leave (restoring_start _ rfl), fun c => ?_, fun _ => rfl⟩
    rw [leave_of_ne _ (Option.some_ne_none c)]
    rfl
  | listen hdone =>
    obtain ⟨hstarts, hidle, -⟩ := h
    rw [Starts, hdone] at hstarts
    exact ⟨.inr (settles_of_absent hstarts hdone hidle), hdone⟩
  | connect habsent => exact h
  | @client stage st st' peers c e hconn hpeer hstep =>
    have hmain : st'.conns none = st.conns none :=
      step_conns_of_ne (by rw [hconn]; exact (Option.some_ne_none c).symm) hstep
    cases stage with
    | starting =>
      obtain ⟨-, -, habsent⟩ := h
      rw [habsent c] at hpeer
      cases hpeer
    | listening =>
      obtain ⟨hagree, hgone⟩ := h
      refine ⟨agreement_step hagree hok.1 hok.2 hstep, ?_⟩
      rw [hmain]
      exact hgone
    | stopping => trivial
  | @main stage st st' peers choice hstep =>
    cases stage with
    | starting =>
      obtain ⟨hstarts, hidle, habsent⟩ := h
      refine ⟨starts_step hstarts hok hstep, fun c => ?_, habsent⟩
      rw [step_conns_of_ne (Option.some_ne_none c) hstep]
      exact hidle c
    | listening =>
      obtain ⟨-, hgone⟩ := h
      simp only [Helper.step, hgone] at hstep
      cases hstep
    | stopping => trivial
  | signal => trivial
  | halt => trivial
  | released => trivial
  | @release st peers fd =>
    obtain ⟨hstarts, hidle, habsent⟩ := h
    exact ⟨starts_release hstarts fd, hidle, habsent⟩

end Recovery

section Authorization
variable {allow : Allow} {es : List (DaemonEvent ι)}

theorem exec_session {me : ι} {o : Op} {c : Option Failure} {w : World ι} {s : ActiveSession ι}
    (h : (exec me o c w).1.session = some s) :
    w.session = some s ∨ s.appliedBy = me ∧ ¬ o.Restores := by
  cases o with
  | takeSession => cases h
  | setSession added =>
    obtain rfl := Option.some.inj h
    exact .inr ⟨rfl, id⟩
  | tunOpen =>
    rcases c with _ | (_ | _)
    · simp only [exec] at h
      split_ifs at h <;> exact .inl h
    · exact .inl h
    · exact .inl h
  | tunClose fd => exact .inl ((w.closeTun_session fd).symm.trans h)
  | ip cmd =>
    cases c with
    | some e => exact .inl h
    | none =>
      cases cmd with
      | linkDelete dev =>
        simp only [exec, World.ip] at h
        split_ifs at h <;> exact .inl h
      | _ => exact .inl h
  | nftDelete =>
    cases c with
    | some e => exact .inl h
    | none =>
      simp only [exec] at h
      split_ifs at h <;> exact .inl h
  | resolvectl cmd =>
    cases c with
    | some e => exact .inl h
    | none =>
      cases cmd <;> simp only [exec, World.resolvectl] at h <;>
        first | exact .inl h | (split_ifs at h <;> exact .inl h)
  | writeJournal added => rcases c with _ | (_ | _) <;> exact .inl h
  | nftLoad script => cases c <;> exact .inl h
  | readJournal => cases c <;> exact .inl h
  | removeJournal => cases c <;> exact .inl h
  | sessionActive => exact .inl h

/-- The main task only takes things away. -/
def Phase.OnlyRestores : Phase → Prop
  | .busy _ _ => False
  | .leaving p => p.Only Op.Restores
  | _ => True

variable (allow es) in
/-- Who has been let in was authorized, and the session is that of someone who has been let in. -/
structure Vouched (st : State (Option ι)) (peers : ι → Peer) : Prop where
  admitted : ∀ c uid, peers c = .accepted uid →
    ∃ hasSession, .connect c uid hasSession ∈ es ∧ authorized uid allow hasSession = true
  main : (st.conns none).phase.OnlyRestores
  session : ∀ s, st.world.session = some s →
    ∃ c, s.appliedBy = some c ∧ (peers c).isAccepted = true

variable (allow es) in
def Daemon.Vouched : Daemon ι → Prop
  | .off _ => True
  | .on _ st peers => Helper.Vouched allow es st peers

theorem letIn_eq_accepted {uid uid' : UInt32} {hasSession : Bool}
    (h : Daemon.letIn allow uid hasSession = .accepted uid') :
    uid' = uid ∧ authorized uid allow hasSession = true := by
  unfold Daemon.letIn at h
  split_ifs at h with hauthorized
  · obtain rfl := Peer.accepted.inj h
    exact ⟨rfl, hauthorized⟩

variable [DecidableEq ι] {st st' : State (Option ι)} {peers : ι → Peer}

theorem onlyRestores_leave {p : HelperM Unit} (h : p.Only Op.Restores) :
    ((st.leave none p).conns none).phase.OnlyRestores := by
  cases p with
  | ret a => simp [State.leave, Phase.OnlyRestores]
  | call o k => simpa [State.leave, Phase.OnlyRestores] using h

/-- A step of a client leaves the session, or makes it the client's. -/
theorem session_step {uid : Option ι → UInt32} {e : Event (Option ι)} {s : ActiveSession (Option ι)}
    (hs : step uid st e = some st') (h : st'.world.session = some s) :
    st.world.session = some s ∨ s.appliedBy = e.conn := by
  cases step_moves hs with
  | request hidle =>
    rw [work_world] at h
    exact .inl h
  | work hbusy =>
    rw [work_world] at h
    exact (exec_session h).imp id And.left
  | leave hleaving =>
    rw [leave_world] at h
    exact (exec_session h).imp id And.left
  | reply hreply => exact .inl h
  | teardown hwait howns =>
    rw [leave_world] at h
    exact .inl h
  | depart hwait howns => exact .inl h
  | close hpassed =>
    rw [World.closeTun_session] at h
    exact .inl h

theorem Daemon.Vouched.step {d d' : Daemon ι} {e : DaemonEvent ι} (h : d.Vouched allow es)
    (hs : d.step allow e = some d') : d'.Vouched allow (es ++ [e]) := by
  have hpeers {peers : ι → Peer} (hold : ∀ c uid, peers c = .accepted uid →
      ∃ hasSession, .connect c uid hasSession ∈ es ∧ authorized uid allow hasSession = true)
      (c : ι) (uid : UInt32) (hc : peers c = .accepted uid) : ∃ hasSession,
        .connect c uid hasSession ∈ es ++ [e] ∧ authorized uid allow hasSession = true := by
    obtain ⟨hasSession, hmem, hauthorized⟩ := hold c uid hc
    exact ⟨hasSession, List.mem_append_left _ hmem, hauthorized⟩
  cases Daemon.step_moves hs with
  | start =>
    refine ⟨fun _ _ hc => (by cases hc), onlyRestores_leave ?_, fun s hsession => ?_⟩
    · exact only_cleanupStale.mono fun _ h => h.restores
    · rw [leave_world] at hsession
      cases hsession
  | listen hdone => exact ⟨hpeers h.admitted, h.main, h.session⟩
  | @connect st peers c uid hasSession habsent =>
    refine ⟨?_, h.main, fun s hsession => ?_⟩
    · refine (Function.forall_update_iff peers fun d (p : Peer) => ∀ uid', p = .accepted uid' →
        ∃ has, DaemonEvent.connect d uid' has ∈ es ++ [.connect c uid hasSession] ∧
          authorized uid' allow has = true).2 ⟨fun uid' hletIn => ?_, fun d _ => hpeers h.admitted d⟩
      obtain ⟨rfl, hauthorized⟩ := letIn_eq_accepted hletIn
      exact ⟨hasSession, List.mem_append_right _ List.mem_cons_self, hauthorized⟩
    · obtain ⟨d, hd, haccepted⟩ := h.session s hsession
      refine ⟨d, hd, ?_⟩
      have hne : d ≠ c := by
        rintro rfl
        rw [habsent] at haccepted
        cases haccepted
      rwa [Function.update_of_ne hne]
  | @client stage st st' peers c e hconn hpeer hstep =>
    refine ⟨hpeers h.admitted, ?_, fun s hsession => ?_⟩
    · rw [step_conns_of_ne (by rw [hconn]; exact (Option.some_ne_none c).symm) hstep]
      exact h.main
    · rcases session_step hstep hsession with hsession | happlied
      · exact h.session s hsession
      · exact ⟨c, happlied.trans hconn, hpeer⟩
  | @main stage st st' peers choice hstep =>
    have hmain := h.main
    cases Helper.step_moves hstep with
    | work hbusy =>
      rw [hbusy] at hmain
      exact hmain.elim
    | leave hleaving =>
      rw [hleaving] at hmain
      refine ⟨hpeers h.admitted, onlyRestores_leave (hmain.2 _), fun s hsession => ?_⟩
      rw [leave_world] at hsession
      rcases exec_session hsession with hsession | ⟨-, hnot⟩
      · exact h.session s hsession
      · exact absurd hmain.1 hnot
  | signal =>
    refine ⟨hpeers h.admitted, onlyRestores_leave only_teardownSession, fun s hsession => ?_⟩
    rw [leave_world] at hsession
    exact h.session s hsession
  | halt => trivial
  | released => trivial
  | release =>
    refine ⟨hpeers h.admitted, h.main, fun s hsession => ?_⟩
    rw [World.closeTun_session] at hsession
    exact h.session s hsession

end Authorization

section Runs
variable [DecidableEq ι] {allow : Allow} {es : List (DaemonEvent ι)} {st : State (Option ι)}
  {peers : ι → Peer}

/-- Whatever the machine was left in, and however often the helper is killed or stopped and started
again: while it listens and no request is in progress, record, device and table are all there or
all gone, and the session is that of a client who was let in as an authorized user. -/
theorem restarts_recover {w : World (Option ι)}
    (hok : Meets (Daemon.step allow) Daemon.Orderly (.off w) es)
    (hrun : run (Daemon.step allow) (.off w) es = some (.on .listening st peers))
    (hquiet : Quiet st) :
    Agree st.world ∧ ∀ s, st.world.session = some s → ∃ c uid hasSession, s.appliedBy = some c ∧
      .connect c uid hasSession ∈ es ∧ authorized uid allow hasSession = true := by
  have hstart : (Daemon.off w).Inv ∧ (Daemon.off w).Vouched allow [] := ⟨trivial, trivial⟩
  obtain ⟨⟨hagree, -⟩, hvouched⟩ := run_history
    (I := fun es (d : Daemon ι) => d.Inv ∧ d.Vouched allow es)
    (fun _ _ _ _ h hok hs => ⟨h.1.step hok hs, h.2.step hs⟩) hstart hok hrun
  have hwaits : ∀ c, (st.conns c).phase.Waits := fun c => waits_of_inactive (hquiet c)
  refine ⟨?_, fun s hs => ?_⟩
  · rcases hagree with ⟨b, -, hb⟩ | hsettles
    · exact absurd (hwaits b) hb.not_waits
    · exact hsettles.2 hwaits
  · obtain ⟨c, happlied, haccepted⟩ := hvouched.session s hs
    cases hpeer : peers c with
    | accepted uid =>
      obtain ⟨hasSession, hmem, hauthorized⟩ := hvouched.admitted c uid hpeer
      exact ⟨c, uid, hasSession, happlied, hmem, hauthorized⟩
    | _ =>
      rw [hpeer] at haccepted
      cases haccepted

end Runs

instance [DecidableEq ι] [Fintype ι] (d : Daemon ι) (e : DaemonEvent ι) :
    Decidable (d.Orderly e) := by
  unfold Daemon.Orderly
  split
  · split <;> infer_instance
  · infer_instance
  · infer_instance

/-- A start in which nothing fails. -/
def bootEvents : List (DaemonEvent Bool) :=
  [.start] ++ List.replicate 6 (.main none) ++ [.listen]

def sessionEvents (c : Bool) : List (DaemonEvent Bool) :=
  [.connect c 1000 true, .client c (.request (some c) (.apply sampleSpec))] ++
    List.replicate 19 (.client c (.step (some c) none)) ++ [.client c (.reply (some c))]

/-- The helper is killed with a session, and serves another one after that. -/
def killedEvents : List (DaemonEvent Bool) :=
  bootEvents ++ sessionEvents false ++ [.kill false] ++ bootEvents ++ sessionEvents true

/-- A machine on which an earlier helper has left a session. -/
def leftWorld : World (Option Bool) := ⟨none, some 3, 4, some ["old"], [], some []⟩

def Daemon.atRest : Daemon Bool → Bool
  | .on .listening st _ => decide (Quiet st) && st.world.session.isSome
  | _ => false

theorem killed_recovers : ∃ st peers, run (Daemon.step ⟨[], true⟩) (.off leftWorld) killedEvents =
      some (.on .listening st peers) ∧ st.world.session.isSome = true ∧ Agree st.world := by
  have hok : Meets (Daemon.step ⟨[], true⟩) Daemon.Orderly (.off leftWorld) killedEvents := by
    decide +kernel
  have hend : (run (Daemon.step ⟨[], true⟩) (.off leftWorld) killedEvents).any Daemon.atRest = true := by
    decide +kernel
  obtain ⟨d, hrun, hd⟩ := (Option.any_eq_true _ _).1 hend
  cases d with
  | off w => cases hd
  | on stage st peers =>
    cases stage with
    | starting => cases hd
    | stopping => cases hd
    | listening =>
      obtain ⟨hquiet, hsession⟩ := Bool.and_eq_true_iff.1 hd
      exact ⟨st, peers, hrun, hsession, (restarts_recover hok hrun
        (of_decide_eq_true hquiet)).1⟩

end EasyConnection.Helper
