import EasyConnection.Tunnel.Sessions
import EasyConnection.Tunnel.Trace

/-! # A `connect` that fails

What a failed `connect` has published, and what it has left running, is read off its own
accesses. It reports every failure but one: that of the local proxies.
-/
namespace EasyConnection.Tunnel
open Async Config Function

variable {ι : Type}

namespace Access

/-- A snapshot in the state `Connecting` is published. -/
def saysConnecting : Access ι → Bool
  | ⟨.writeSnapshot s, _⟩ => s.state = .connecting
  | _ => false

/-- The local proxies cannot be started. -/
def refusesProxies : Access ι → Bool
  | ⟨.startProxies _ _ _ _, .error _⟩ => true
  | _ => false

/-- The descriptor of the tunnel is of no use. -/
def refusesDescriptor : Access ι → Bool
  | ⟨.fromOwnedFd, .error _⟩ => true
  | _ => false

end Access

/-- The snapshot after an access of the only call that runs. -/
def Op.shown : Op ι → ConnectionSnapshot → ConnectionSnapshot
  | .writeSnapshot s, _ => s
  | _, snap => snap

/-- The tasks of a session after an access of its own call. -/
def Op.tasks : Op ι → List Task → List Task
  | .spawn _ t, tasks => t :: tasks
  | .cancelStop _, _ => []
  | .abortTun _, tasks => tasks.filter (· ≠ .drainTun)
  | _, tasks => tasks

/-- What a call has published and left running. -/
structure Record where
  shown : ConnectionSnapshot
  connecting : Bool
  refused : Bool
  tasks : List Task
  spoiled : Bool

namespace Record

def after (o : Op ι) (a : Ans o) (rec : Record) : Record where
  shown := o.shown rec.shown
  connecting := Access.saysConnecting ⟨o, a⟩ || rec.connecting
  refused := Access.refusesProxies ⟨o, a⟩ || rec.refused
  tasks := o.tasks rec.tasks
  spoiled := Access.refusesDescriptor ⟨o, a⟩ || rec.spoiled

/-- Nothing has been done yet. -/
def fresh (snap : ConnectionSnapshot) : Record := ⟨snap, false, false, [], false⟩

variable (snap : ConnectionSnapshot) (accesses : List (Access ι))

theorem view_connecting :
    (view after (fresh snap) accesses).connecting = accesses.any Access.saysConnecting :=
  (view_flag connecting Access.saysConnecting (fun _ _ _ => rfl) _ _).trans (Bool.or_false _)

theorem view_refused :
    (view after (fresh snap) accesses).refused = accesses.any Access.refusesProxies :=
  (view_flag refused Access.refusesProxies (fun _ _ _ => rfl) _ _).trans (Bool.or_false _)

theorem view_spoiled :
    (view after (fresh snap) accesses).spoiled = accesses.any Access.refusesDescriptor :=
  (view_flag spoiled Access.refusesDescriptor (fun _ _ _ => rfl) _ _).trans (Bool.or_false _)

end Record

/-- Nothing has been refused, and no task runs. -/
structure Record.Clean (rec : Record) : Prop where
  refused : rec.refused = false
  tasks : rec.tasks = []
  spoiled : rec.spoiled = false

theorem Record.Clean.mark {rec : Record} (h : rec.Clean) (snap : ConnectionSnapshot)
    (connecting : Bool) : { rec with shown := snap, connecting := connecting }.Clean :=
  ⟨h.refused, h.tasks, h.spoiled⟩

/-- How a failure shows in the record of a `connect`. -/
structure Accounted (e : TunnelError) (rec : Record) : Prop where
  silent : rec.refused = true → rec.shown.state = .establishingTunnel
  report : rec.connecting = true → rec.refused = false →
    rec.shown.state = .error ∧ rec.shown.phase = .failed e.text
  release : rec.tasks = [] ↔ rec.spoiled = false

def Explained (r : Except TunnelError ConnectionSnapshot) (rec : Record) : Prop :=
  ∀ e, r = .error e → Accounted e rec

/-- The proxies have been started, and after a failure tasks run on exactly if the descriptor was
of no use. -/
def Balanced {α : Type} (r : Except TunnelError α) (rec : Record) : Prop :=
  rec.refused = false ∧ ∀ e, r = .error e → (rec.tasks = [] ↔ rec.spoiled = false)

/-- The accesses that leave no mark in a record. -/
def Op.faint : Op ι → Prop
  | .writeSnapshot _ => False
  | .startProxies _ _ _ _ => False
  | .spawn _ _ => False
  | .cancelStop _ => False
  | .abortTun _ => False
  | .fromOwnedFd => False
  | _ => True

/-- The program leaves a record in `post`, whatever it is answered. -/
abbrev Leaves {α : Type} (post : α → Record → Prop) (p : TunnelM ι α) (rec : Record) : Prop :=
  p.Obeys (fun _ _ => True) Record.after post rec

section Rules
variable {me : ι} {rec : Record} {α β : Type}

theorem Op.asks.faint {o : Op ι} (ho : o.asks) : o.faint := by
  cases o <;> trivial

theorem Record.after_faint {o : Op ι} (ho : o.faint) (a : Ans o) : rec.after o a = rec := by
  cases o <;> first | rfl | exact ho.elim

theorem leaves_faint {p : TunnelM ι α} (h : p.Only Op.faint) {post : α → Record → Prop}
    (hpost : ∀ a, post a rec) : Leaves post p rec :=
  (h.obeys fun _ ho => ⟨trivial, Record.after_faint ho⟩).mono fun a _ hs => hs ▸ hpost a

/-- A step that may fail and leaves no mark. -/
theorem leaves_then {x : ExceptT TunnelError (TunnelM ι) α} (hx : Prog.Only Op.faint x.run)
    {f : α → ExceptT TunnelError (TunnelM ι) β} {post : Except TunnelError β → Record → Prop}
    (herror : ∀ e, post (.error e) rec) (hf : ∀ a, Leaves post (f a).run rec) :
    Leaves post (x >>= f).run rec := by
  refine (Prog.obeys_except_bind x f).2 (leaves_faint hx fun r => ?_)
  cases r with
  | ok a => exact hf a
  | error e => exact herror e

/-- A program that starts tasks only. -/
theorem leaves_starts (rec : Record) {p : TunnelM ι α} (h : p.Only (Op.starts me)) :
    Leaves (fun _ rec' => ∃ ts, rec' = { rec with tasks := ts ++ rec.tasks }) p rec := by
  induction p generalizing rec with
  | ret a => exact ⟨[], rfl⟩
  | call o k ih =>
    refine ⟨trivial, fun a => (ih a _ (h.2 a)).mono ?_⟩
    rintro _ rec' ⟨ts, rfl⟩
    rcases h.1.cases with ho | ⟨t, rfl⟩
    · rw [Record.after_faint ho.faint]
      exact ⟨ts, rfl⟩
    · exact ⟨ts ++ [t], by rw [List.append_assoc]; rfl⟩

theorem leaves_setPhase {post : Unit → Record → Prop} {state : ConnectionState}
    {phase : ConnectionPhase}
    (hpost : ∀ snap : ConnectionSnapshot, snap.state = state → ∀ connecting,
      post () { rec with shown := snap, connecting := connecting }) :
    Leaves post (setPhase state phase : TunnelM ι Unit) rec :=
  ⟨trivial, fun snap => ⟨trivial, fun _ => hpost { snap with state := state, phase := phase } rfl _⟩⟩

/-- What is done for an open connection over SSH leaves no mark. -/
theorem disconnectIf_faint (ssh : Bool) :
    (onlyIf ssh (Call.disconnectSsh me) : TunnelM ι Unit).Only Op.faint := by
  cases ssh with
  | false => trivial
  | true => exact ⟨trivial, fun _ => trivial⟩

end Rules

variable {e : TunnelError}

section Connect
variable {me : ι} (profile : ConnectionConfig)

theorem openUpstream_faint : Prog.Only Op.faint (openUpstream me profile).run := by
  have hssh (route : SshRoute) : Prog.Only Op.faint
      (do return some (← ExceptT.mk (Call.openSsh me route)) :
        ExceptT TunnelError (TunnelM ι) (Option Endpoint)).run :=
    Prog.Only.except_bind (Prog.only_perform (by trivial)) fun _ => trivial
  unfold openUpstream
  cases profile.protocol with
  | socks => trivial
  | shadowsocks =>
    exact (only_orElse (Prog.only_perform (by trivial)) _).except_bind fun _ => trivial
  | vless => exact (only_orElse (Prog.only_perform (by trivial)) _).except_bind fun _ => trivial
  | ssh =>
    cases profile.smartLinkSecret with
    | some linkRef =>
      exact (only_orElse (Prog.only_perform (by trivial)) _).except_bind fun link => hssh _
    | none =>
      refine Prog.Only.except_bind (Prog.only_perform (by trivial)) fun _ => ?_
      split_ifs
      · exact hssh .direct
      · exact (only_orElse (Prog.only_perform (by trivial)) _).except_bind fun _ => hssh _

variable {rec : Record}

/-- With tasks running: they are stopped if the helper refuses, and run on if its descriptor is of
no use. -/
theorem applyTunnel_leaves (hrefused : rec.refused = false) (hspoiled : rec.spoiled = false)
    (htasks : rec.tasks ≠ []) (spec : Helper.ApplySpec) :
    Leaves Balanced (applyTunnel me spec).run rec := by
  refine (Prog.obeys_bind _ _).2 ⟨trivial, fun a => ?_⟩
  cases a with
  | error e => exact ⟨trivial, fun _ => ⟨hrefused, fun _ _ => ⟨fun _ => hspoiled, fun _ => rfl⟩⟩⟩
  | ok message =>
    refine (Prog.obeys_bind _ _).2 ⟨trivial, fun a => ?_⟩
    cases a with
    | error e => exact ⟨trivial, fun _ => ⟨hrefused, fun _ _ => ⟨fun h => absurd h htasks, nofun⟩⟩⟩
    | ok _ => exact ⟨trivial, fun _ => ⟨hrefused, nofun⟩⟩

theorem spawnIntercepts_leaves (udpgw : StartedUdpgw) :
    Leaves (fun _ rec' => ∃ ts, rec' = { rec with tasks := ts ++ Task.transproxy :: rec.tasks })
      (spawnIntercepts me profile udpgw) rec := by
  refine ⟨trivial, fun a => ?_⟩
  exact leaves_starts (rec.after (.spawn me .transproxy) a)
    ((spawnIntercepts_starts profile udpgw).2 a)

theorem startFullTunnel_leaves [Texts] (h : rec.Clean) :
    Leaves Balanced (startFullTunnel me profile).run rec := by
  have hnone {α : Type} (e : TunnelError) : Balanced (.error e : Except TunnelError α) rec :=
    ⟨h.refused, fun _ _ => ⟨fun _ => h.spoiled, fun _ => h.tasks⟩⟩
  refine leaves_then (only_orElse (Prog.only_perform (by trivial)) _) hnone fun _ => ?_
  refine leaves_then ((resolveServerIps_asks _ _).mono fun _ => Op.asks.faint) hnone
    fun serverIps => ?_
  refine leaves_then (only_orElse (Prog.only_perform (by trivial)) _) hnone fun _ => ?_
  refine leaves_then (only_orElse (Prog.only_perform (by trivial)) _) hnone fun _ => ?_
  refine leaves_then (only_orElse (Prog.only_perform (by trivial)) _) hnone fun _ => ?_
  refine leaves_then (only_orElse (Prog.only_perform (by trivial)) _) hnone fun _ => ?_
  -- from here on only the helper can fail, with the intercepts running
  refine (Prog.obeys_except_bind _ _).2 ((Prog.obeys_lift _).2 ?_)
  refine (leaves_starts _ (tunnelUdpgw_starts profile)).mono ?_
  rintro udpgw _ ⟨ts, rfl⟩
  refine (Prog.obeys_except_bind _ _).2 ((Prog.obeys_lift _).2 ?_)
  refine (spawnIntercepts_leaves profile udpgw).mono ?_
  rintro _ _ ⟨ts', rfl⟩
  refine (Prog.obeys_except_bind _ _).2 ((Prog.obeys_lift _).2 ?_)
  refine leaves_faint ((splitBypassNets_asks profile).mono fun _ => Op.asks.faint) fun nets => ?_
  have htasks : ts' ++ Task.transproxy :: (ts ++ rec.tasks) ≠ [] := by simp
  refine (Prog.obeys_except_bind _ _).2 ((applyTunnel_leaves ?_ ?_ htasks _).mono fun r rec' hr => ?_)
  · exact h.refused
  · exact h.spoiled
  · cases r with
    | ok _ => exact ⟨hr.1, nofun⟩
    | error e => exact ⟨hr.1, fun _ _ => hr.2 e rfl⟩

theorem commit_leaves (snap : ConnectionSnapshot) (ssh : Bool) (addrs : String × String)
    (mode : Mode) : Leaves Explained (commit me profile snap ssh addrs mode) rec :=
  ⟨trivial, fun _ => ⟨trivial, fun _ => ⟨trivial, fun _ => ⟨trivial, fun _ => nofun⟩⟩⟩⟩

theorem rollBack_leaves (snap : ConnectionSnapshot) (ssh : Bool)
    (h : Balanced (.error e : Except TunnelError StartedTun) rec) :
    Leaves Explained (rollBack me snap ssh e) rec := by
  refine ⟨trivial, fun _ => ?_⟩
  refine (Prog.obeys_bind (onlyIf ssh (Call.disconnectSsh me)) _).2 ?_
  refine leaves_faint (disconnectIf_faint ssh) fun _ => ⟨trivial, fun _ => ?_⟩
  rintro _ ⟨⟩
  exact ⟨fun hrefused => absurd (hrefused.symm.trans h.1) nofun, fun _ _ => ⟨rfl, rfl⟩, h.2 e rfl⟩

theorem route_leaves [Texts] (snap : ConnectionSnapshot) (ssh : Bool) (addrs : String × String)
    (h : rec.Clean) : Leaves Explained (route me profile snap ssh addrs) rec := by
  unfold route
  split_ifs
  · refine (Prog.obeys_bind _ _).2 (leaves_setPhase fun snap' _ connecting => ?_)
    refine (Prog.obeys_bind _ _).2 ?_
    refine (startFullTunnel_leaves profile (h.mark snap' connecting)).mono fun r rec' hr => ?_
    cases r with
    | ok tun => exact commit_leaves profile snap ssh addrs _
    | error e => exact rollBack_leaves snap ssh hr
  · refine (Prog.obeys_bind _ _).2 ((leaves_starts _ (startUdpgwClient_starts profile)).mono ?_)
    exact fun _ _ _ => commit_leaves profile snap ssh addrs _
  · exact commit_leaves profile snap ssh addrs _

/-- A failure of the proxies is not published. -/
theorem serve_leaves [Texts] (snap : ConnectionSnapshot) (ssh : Bool) (h : rec.Clean) :
    Leaves Explained (serve me profile snap ssh) rec := by
  refine (Prog.obeys_bind _ _).2 (leaves_setPhase fun snap' hstate connecting => ?_)
  refine ⟨trivial, fun a => ?_⟩
  cases a with
  | ok addrs => exact route_leaves profile snap ssh addrs (h.mark snap' connecting)
  | error e =>
    refine (Prog.obeys_bind (onlyIf ssh (Call.disconnectSsh me)) _).2 ?_
    refine leaves_faint (disconnectIf_faint ssh) fun _ => ?_
    exact fun _ _ => ⟨fun _ => hstate, nofun, fun _ => h.spoiled, fun _ => h.tasks⟩

theorem resume_leaves [Texts] (snap : ConnectionSnapshot) (session : Option Endpoint)
    (h : rec.Clean) : Leaves Explained (resume me profile snap session) rec := by
  cases session with
  | none => exact serve_leaves profile snap false h
  | some session => exact ⟨trivial, fun _ => serve_leaves _ _ true (h.mark _ _)⟩

/-- What every failure of `connect` leaves behind. -/
theorem connect_leaves [Texts] (snap : ConnectionSnapshot) :
    Leaves Explained (connect me profile) (.fresh snap) := by
  have hsilent (e : TunnelError) : Explained (.error e) (.fresh snap) :=
    fun _ _ => ⟨nofun, nofun, fun _ => rfl, fun _ => rfl⟩
  refine ⟨trivial, fun active => ?_⟩
  cases active with
  | true => exact hsilent .alreadyConnected
  | false =>
    change Leaves Explained (attempt me profile) (.fresh snap)
    unfold attempt
    split_ifs
    · exact hsilent _
    · refine (Prog.obeys_bind _ _).2 ⟨trivial, fun _ => ?_⟩
      refine (Prog.obeys_bind _ _).2 (leaves_setPhase fun _ _ _ => ?_)
      refine (Prog.obeys_bind _ _).2 (leaves_setPhase fun _ _ _ => ?_)
      refine (Prog.obeys_bind _ _).2 (leaves_faint (openUpstream_faint profile) fun r => ?_)
      cases r with
      | ok session => exact resume_leaves profile _ session ⟨rfl, rfl, rfl⟩
      | error e =>
        refine ⟨trivial, fun _ => ?_⟩
        rintro _ ⟨⟩
        exact ⟨nofun, fun _ _ => ⟨rfl, rfl⟩, fun _ => rfl, fun _ => rfl⟩

end Connect

section Report
variable [DecidableEq ι] {i : ι}

/-- A step of the call `i`, or one of a poller that writes nothing. -/
def Event.lone (i : ι) : Event ι → Bool
  | .call j _ => j = i
  | .step j _ => j = i
  | .finish j => j = i
  | .wake _ _ => true
  | .pollRead _ => true
  | .pollWrite _ => false

theorem effect_snapshot (me : ι) (w : World ι) (o : Op ι) (a : Ans o) :
    (effect me w o a).snapshot = o.shown w.snapshot := by
  cases o with
  | take =>
    simp only [effect, World.takeActive]
    split <;> rfl
  | _ => first | rfl | (simp only [effect, World.setParts]; split <;> rfl)

variable {st : State ι}

theorem shown_step [Texts] {st' : State ι} {e : Event ι} {rec : Record} (hlone : e.lone i = true)
    (hmoves : Moves st e st') (h : rec.shown = st.world.snapshot) :
    (view Record.after rec (made i st e).toList).shown = st'.world.snapshot := by
  cases hmoves with
  | call hidle => exact h
  | @work j env req o k hbusy =>
    obtain rfl : j = i := of_decide_eq_true hlone
    simp only [made, hbusy, if_true]
    exact (congrArg o.shown h).trans (effect_snapshot j st.world o _).symm
  | finish hret => exact h
  | wake hasleep => exact h
  | @pollRead j aborted stats hawake =>
    refine h.trans ?_
    unfold State.pollRead
    split_ifs <;> rfl
  | pollWrite hholding => cases hlone

theorem accounted_of_returned [Texts] {profile : ConnectionConfig} {st₀ : State ι}
    {es : List (Event ι)} (snap : ConnectionSnapshot) (hidle : st₀.calls i = .idle)
    (hrun : run step st₀ es = some st)
    (hret : st.calls i = .returned (.connect profile) (.error e)) :
    Accounted e (view Record.after (.fresh snap) (trace i st₀ es)) := by
  have hconnect : Leaves Explained (program i (.connect profile)) (.fresh snap) :=
    connect_leaves profile snap
  exact returned_of_obeys hconnect hidle hrun hret e rfl

/-- While no other call runs, the snapshot is the last one that the call has written. -/
theorem lone_shown [Texts] {st₀ : State ι} {es : List (Event ι)} (hlone : ∀ e ∈ es, e.lone i = true)
    (hrun : run step st₀ es = some st) :
    (view Record.after (.fresh st₀.world.snapshot) (trace i st₀ es)).shown = st.world.snapshot := by
  have hok : Meets step (fun _ e => True ∧ e.lone i = true) st₀ es :=
    (Meets.of_forall (fun _ _ => trivial) st₀ es).and_labels hlone
  refine run_reached (I := fun es st => (view Record.after (.fresh st₀.world.snapshot)
    (trace i st₀ es)).shown = st.world.snapshot) ?_ rfl hok hrun
  intro es u e u' hu h he hstep
  rw [trace_concat e hu, view_append]
  exact shown_step he.2 (step_moves hstep) h

/-- Where no other call runs, and no poller writes the copy that it took before: a `connect` that
fails after it has published `Connecting` leaves the state `Error` and the failure with the
message exactly if its local proxies could be started. -/
theorem failed_connect_reported_iff [Texts] (profile : ConnectionConfig) (es : List (Event ι))
    (st₀ st : State ι) (e : TunnelError) (hidle : st₀.calls i = .idle)
    (hlone : ∀ ev ∈ es, ev.lone i = true) (hrun : run step st₀ es = some st)
    (hret : st.calls i = .returned (.connect profile) (.error e))
    (hpublished : (trace i st₀ es).any Access.saysConnecting = true) :
    (st.world.snapshot.state = .error ∧ st.world.snapshot.phase = .failed e.text) ↔
      (trace i st₀ es).any Access.refusesProxies = false := by
  have h := accounted_of_returned st₀.world.snapshot hidle hrun hret
  rw [← lone_shown hlone hrun, ← Record.view_refused st₀.world.snapshot]
  rw [← Record.view_connecting st₀.world.snapshot] at hpublished
  constructor
  · rintro ⟨hstate, -⟩
    by_contra hrefused
    rw [h.silent (Bool.not_eq_false _ ▸ hrefused)] at hstate
    cases hstate
  · exact h.report hpublished

end Report

/-- The call has returned this error. -/
def Phase.failedWith : Phase ι → Request → TunnelError → Bool
  | .returned req (.error e), req', e' => req = req' ∧ e = e'
  | _, _, _ => false

theorem Phase.failedWith_eq_true {ph : Phase ι} {req : Request} :
    ph.failedWith req e = true ↔ ph = .returned req (.error e) := by
  constructor
  · intro h
    unfold failedWith at h
    split at h
    · obtain ⟨rfl, rfl⟩ := of_decide_eq_true h
      rfl
    · cases h
  · rintro rfl
    exact decide_eq_true ⟨rfl, rfl⟩

/-- One call of `connect` with `n` accesses, and nothing else. -/
def attemptRun (profile : ConnectionConfig) (n : ℕ) (env : Env Caller) : List (Event Caller) :=
  [.call .first (.connect profile)] ++ List.replicate n (.step .first env) ++ [.finish .first]

/-- The server refuses the key. -/
def serverRefuses : Env ι
  | .openSsh _ _ => .error (.ssh "authentication failed")
  | o => smooth o

/-- Another program listens on the port of the proxies. -/
def portTaken : Env ι
  | .startProxies _ _ _ _ => .error "I/O error: Address already in use (os error 98)"
  | o => smooth o

def failedHandshake : List (Event Caller) := attemptRun sshProfile 9 serverRefuses

def failedProxies : List (Event Caller) := attemptRun sshProfile 13 portTaken

open Sample

theorem failedHandshake_reported :
    ∃ st, run step State.initial failedHandshake = some st ∧
      st.world.snapshot.state = .error ∧
      st.world.snapshot.phase = .failed "SSH error: authentication failed" := by
  have hend : (run step State.initial failedHandshake).any (fun st =>
      (st.calls .first).failedWith (.connect sshProfile) (.ssh "authentication failed")) = true := by
    decide +kernel
  obtain ⟨st, hrun, hst⟩ := (Option.any_eq_true _ _).1 hend
  exact ⟨st, hrun, (failed_connect_reported_iff sshProfile failedHandshake State.initial st _ rfl
    (List.all_eq_true.1 (by decide)) hrun (Phase.failedWith_eq_true.1 hst)
    (by decide +kernel)).2 (by decide +kernel)⟩

/-- The connection is gone, and the user is told that it is being made. -/
theorem failedProxies_not_reported :
    ∃ st, run step State.initial failedProxies = some st ∧ Quiet st ∧
      (st.calls .first).failedWith (.connect sshProfile)
        (.proxy "I/O error: Address already in use (os error 98)") = true ∧
      st.world.snapshot.state = .establishingTunnel := by
  have hend : (run step State.initial failedProxies).any (fun st => decide (Quiet st ∧
      (st.calls .first).failedWith (.connect sshProfile)
        (.proxy "I/O error: Address already in use (os error 98)") = true ∧
      st.world.snapshot.state = .establishingTunnel)) = true := by decide +kernel
  obtain ⟨st, hrun, hst⟩ := (Option.any_eq_true _ _).1 hend
  exact ⟨st, hrun, of_decide_eq_true hst⟩

end EasyConnection.Tunnel
