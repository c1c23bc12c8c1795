import EasyConnection.Tunnel.Calls

/-! # What one call does, in order

A call of the manager is followed through its own stage: a `connect` past its guard owns the
session that it opens until it stores it, and a `disconnect` owns the session that it has taken.
`allowed` says which accesses are made in which stage. Both programs keep to it whatever the
environment answers, and what they leave when they return is read off their last stage.
-/
namespace EasyConnection.Tunnel
open Async Config

inductive Stage (ι : Type) where
  | checking
  | opening (live : Live) (ready : Bool)
  | stored
  | closing
  | releasing (held : Option (ι × Live)) (cleared : Bool)

variable {ι : Type}

namespace Stage

/-- Carry what a call does to a session over to the stage. -/
def touch : Option (ι × (Live → Live)) → Stage ι → Stage ι
  | some (_, f), .opening live ready => .opening (f live) ready
  | some (_, f), .releasing (some (j, live)) cleared => .releasing (some (j, f live)) cleared
  | _, stage => stage

end Stage

/-- The stage after a call. -/
def follow : (o : Op ι) → Ans o → Stage ι → Stage ι
  | .inspect, false, .checking => .opening .off false
  | .take, session, .closing => .releasing (session.map fun s => (s.id, s.live)) false
  | .store _, _, .opening _ _ => .stored
  | .writeSnapshot s, _, .opening live _ => .opening live s.state.isUp
  | .writeSnapshot _, _, .releasing held _ => .releasing held true
  | o, a, stage => stage.touch (liveEffect o a)

/-- The session that a call names. -/
def Op.session : Op ι → Option ι
  | .openSsh i _ => some i
  | .disconnectSsh i => some i
  | .startProxies i _ _ _ => some i
  | .stopProxies i => some i
  | .apply i _ => some i
  | .dropHelper i => some i
  | .teardownHelper i => some i
  | .spawn i _ => some i
  | .cancelStop i => some i
  | .abortTun i => some i
  | .spawnPoller i => some i
  | .stopPoller i => some i
  | _ => none

/-- The calls that `me` makes in each stage. -/
def allowed (me : ι) (o : Op ι) : Stage ι → Prop
  | .checking => o = .inspect
  | .opening live ready =>
    match o with
    | .inspect => False
    | .take => False
    | .stopPoller _ => False
    | .store s => s.id = me ∧ s.live = live ∧ ready = true
    | .writeSnapshot _ => ready = false
    | o => ∀ j ∈ o.session, j = me
  | .stored => False
  | .closing =>
    match o with
    | .readSnapshot => True
    | .writeSnapshot s => s.state.isUp = false
    | .take => True
    | _ => False
  | .releasing _ true => False
  | .releasing held false =>
    match o with
    | .inspect => False
    | .take => False
    | .store _ => False
    | .spawnPoller _ => False
    | .writeSnapshot s => s = .default
    | o => ∀ j ∈ o.session, ∃ live, held = some (j, live)

/-- A call names its own session while it opens it, and the one that it has taken. -/
theorem session_of_allowed {me j : ι} {o : Op ι} {stage : Stage ι} (hallowed : allowed me o stage)
    (hj : j ∈ o.session) : (∃ live ready, j = me ∧ stage = .opening live ready) ∨
      ∃ live cleared, stage = .releasing (some (j, live)) cleared := by
  cases stage with
  | checking =>
    obtain rfl : o = .inspect := hallowed
    cases hj
  | stored => exact hallowed.elim
  | closing => cases o <;> first | exact hallowed.elim | cases hj
  | opening live ready =>
    refine .inl ⟨live, ready, ?_, rfl⟩
    cases o <;> first | exact hallowed j hj | exact hallowed.elim | cases hj
  | releasing held cleared =>
    cases cleared with
    | true => exact hallowed.elim
    | false =>
      obtain ⟨live, rfl⟩ : ∃ live, held = some (j, live) := by
        cases o <;> first | exact hallowed j hj | exact hallowed.elim | cases hj
      exact .inr ⟨live, false, rfl⟩

/-- The program keeps to what `me` may do. -/
abbrev Keeps {α : Type} (me : ι) (post : α → Stage ι → Prop) (p : TunnelM ι α) (stage : Stage ι) :
    Prop :=
  p.Obeys (allowed me) follow post stage

/-- A `connect` that succeeds has stored its session; one that fails leaves nothing running. -/
def Opened (r : Except TunnelError ConnectionSnapshot) (stage : Stage ι) : Prop :=
  match r with
  | .ok _ => stage = .stored
  | .error _ => stage = .checking ∨ stage = .opening .off false

/-- A `disconnect` has stopped the session that it took, if there was one, and has reset the
snapshot. -/
def Closed (r : Except TunnelError ConnectionSnapshot) (stage : Stage ι) : Prop :=
  r = .ok .default ∧
    ∃ held, stage = .releasing held true ∧ ∀ j live, held = some (j, live) → live = .off

def Ended (req : Request) (r : Except TunnelError ConnectionSnapshot) (stage : Stage ι) : Prop :=
  match req with
  | .connect _ => Opened r stage
  | .disconnect => Closed r stage

/-- The calls that only ask. -/
def Op.asks : Op ι → Prop
  | .readSnapshot => True
  | .getSecret _ => True
  | .sshOptions => True
  | .dial _ _ => True
  | .openShadowsocks => True
  | .startVless => True
  | .ensureHelper => True
  | .connectHelper => True
  | .ping => True
  | .lookupHost _ _ => True
  | .bind _ => True
  | .connectUdpgw _ _ => True
  | .now => True
  | _ => False

/-- The calls that ask, or start a task of `me`. -/
def Op.starts (me : ι) : Op ι → Prop
  | .spawn i _ => i = me
  | o => o.asks

/-- The calls of `me` that are no part of a session's life. -/
def Op.minor (me : ι) : Op ι → Prop
  | .fromOwnedFd => True
  | o => o.starts me

variable {post : Unit → Stage ι → Prop} {o : Op ι}

section Rules
variable {me : ι} {live : Live} {ready : Bool} {α ε : Type}

theorem Op.asks.starts (ho : o.asks) : o.starts me := by
  cases o <;> first | exact ho | exact ho.elim

theorem Op.starts.cases (ho : o.starts me) : o.asks ∨ ∃ t, o = .spawn me t := by
  cases o with
  | spawn i t => exact .inr ⟨t, by rw [show i = me from ho]⟩
  | _ => exact .inl ho

theorem Op.starts.minor (ho : o.starts me) : o.minor me := by
  cases o <;> first | exact ho | exact ho.elim

theorem minor_allowed (ho : o.minor me) : allowed me o (.opening live ready) := by
  cases o with
  | spawn i t =>
    rintro j ⟨⟩
    exact ho
  | _ => first | exact ho.elim | rintro j ⟨⟩

theorem minor_follow (ho : o.minor me) (a : Ans o) :
    follow o a (.opening live ready) = .opening live ready := by
  cases o <;> first | rfl | exact ho.elim

theorem keeps_minor (ho : o.minor me) {post : Ans o → Stage ι → Prop}
    (hpost : ∀ a, post a (.opening live ready)) :
    Keeps me post (Prog.perform o) (.opening live ready) :=
  ⟨minor_allowed ho, fun a => (minor_follow ho a).symm ▸ hpost a⟩

/-- A program that makes such calls only. -/
theorem keeps_only {p : TunnelM ι α} (h : p.Only (Op.starts me)) {post : α → Stage ι → Prop}
    (hpost : ∀ a, post a (.opening live ready)) : Keeps me post p (.opening live ready) :=
  (h.obeys fun _ ho => ⟨minor_allowed ho.minor, minor_follow ho.minor⟩).mono
    fun a _ hs => hs ▸ hpost a

theorem keeps_publish {snap : ConnectionSnapshot}
    (hpost : post () (.opening live snap.state.isUp)) :
    Keeps me post (publish snap) (.opening live false) :=
  ⟨rfl, fun _ => hpost⟩

theorem keeps_setPhase {state : ConnectionState} {phase : ConnectionPhase}
    (hstate : state.isUp = false) (hpost : post () (.opening live false)) :
    Keeps me post (setPhase state phase) (.opening live false) :=
  (Prog.obeys_bind _ _).2
    (keeps_minor (by trivial) fun _ => keeps_publish (hstate.symm ▸ hpost))

theorem only_orElse {P : Op ι → Prop} {p : TunnelM ι (Except ε α)} (hp : p.Only P)
    (f : ε → TunnelError) : Prog.Only P (orElse p f).run :=
  hp.bind fun _ => trivial

/-- A step that may fail, made of such calls only. -/
theorem keeps_then {β : Type} {x : ExceptT TunnelError (TunnelM ι) α}
    (hx : Prog.Only (Op.starts me) x.run) {f : α → ExceptT TunnelError (TunnelM ι) β}
    {post : Except TunnelError β → Stage ι → Prop}
    (herror : ∀ e, post (.error e) (.opening live ready))
    (hf : ∀ a, Keeps me post (f a).run (.opening live ready)) :
    Keeps me post (x >>= f).run (.opening live ready) := by
  refine (Prog.obeys_except_bind x f).2 (keeps_only hx fun r => ?_)
  cases r with
  | ok a => exact hf a
  | error e => exact herror e

theorem keeps_openSsh {route : SshRoute}
    {post : Except TunnelError Endpoint → Stage ι → Prop}
    (hok : ∀ session, post (.ok session) (.opening { live with ssh := true } ready))
    (herror : ∀ e, post (.error e) (.opening live ready)) :
    Keeps me post (Call.openSsh me route) (.opening live ready) := by
  refine ⟨by rintro j ⟨⟩; rfl, fun a => ?_⟩
  cases a with
  | ok session => exact hok session
  | error e => exact herror e

end Rules

section Connect
variable {me : ι} {live : Live} (profile : ConnectionConfig)

/-- The upstream is open over SSH, or without, or not at all. -/
theorem openUpstream_keeps :
    Keeps me (fun r stage => stage = .opening ⟨r.toOption.any Option.isSome, false, false⟩ false)
      (openUpstream me profile).run (.opening .off false) := by
  have hssh (route : SshRoute) : Keeps me
      (fun r stage => stage = .opening ⟨r.toOption.any Option.isSome, false, false⟩ false)
      (do return some (← ExceptT.mk (Call.openSsh me route)) :
        ExceptT TunnelError (TunnelM ι) (Option Endpoint)).run (.opening .off false) :=
    (Prog.obeys_except_bind _ _).2 (keeps_openSsh (fun _ => rfl) (fun _ => rfl))
  unfold openUpstream
  cases profile.protocol with
  | socks => rfl
  | shadowsocks | vless =>
    exact keeps_then (only_orElse (Prog.only_perform (by trivial)) _) (fun _ => rfl) fun _ => rfl
  | ssh =>
    cases profile.smartLinkSecret with
    | some linkRef =>
      exact keeps_then (only_orElse (Prog.only_perform (by trivial)) _) (fun _ => rfl)
        fun link => hssh (.smart link)
    | none =>
      refine keeps_then (Prog.only_perform (by trivial)) (fun _ => rfl) fun _ => ?_
      split_ifs
      · exact hssh .direct
      · exact keeps_then (only_orElse (Prog.only_perform (by trivial)) _) (fun _ => rfl)
          fun _ => hssh .overTransport

theorem startUdpgwClient_starts : (startUdpgwClient me profile).Only (Op.starts me) := by
  unfold startUdpgwClient
  by_cases henabled : profile.udpgw.enabled
  · simp only [henabled, Bool.not_true, Bool.false_eq_true, if_false]
    refine Prog.Only.bind (Prog.only_perform (by trivial)) fun a => ?_
    cases a with
    | connected => exact Prog.Only.bind (Prog.only_perform (by rfl)) fun _ => trivial
    | failed e => trivial
    | unreachable e => trivial
  · simp only [henabled, Bool.not_false, if_true]
    trivial

theorem tunnelUdpgw_starts : (tunnelUdpgw me profile).Only (Op.starts me) := by
  unfold tunnelUdpgw
  split_ifs
  · exact startUdpgwClient_starts profile
  · trivial

theorem spawn_starts (t : Task) : (Call.spawn me t).Only (Op.starts me) :=
  Prog.only_perform (by rfl)

theorem spawnIfBound_starts (wanted : Bool) (t : Task) :
    (spawnIfBound me wanted t).Only (Op.starts me) := by
  cases wanted with
  | false => trivial
  | true =>
    refine Prog.Only.bind (Prog.only_perform (by trivial)) fun a => ?_
    cases a with
    | ok _ => exact spawn_starts t
    | error e => trivial

theorem spawnIntercepts_starts (udpgw : StartedUdpgw) :
    (spawnIntercepts me profile udpgw).Only (Op.starts me) := by
  refine (spawn_starts _).bind fun _ => (spawn_starts _).bind fun _ => ?_
  refine (spawnIfBound_starts _ _).bind fun _ => (spawnIfBound_starts _ _).bind fun _ => ?_
  split_ifs
  · refine (spawnIfBound_starts _ _).bind fun _ => (spawnIfBound_starts _ _).bind fun _ => ?_
    exact spawn_starts _
  · trivial

theorem domainNets_asks (domain : String) :
    (domainNets domain : TunnelM ι (List Net.IpNet)).Only (Op.asks) := by
  rw [domainNets]
  split
  · trivial
  · refine Prog.Only.bind (Prog.only_perform (by trivial)) fun a => ?_
    cases a <;> trivial

theorem lookupDomains_asks (domains : List String) :
    (lookupDomains domains : TunnelM ι (List Net.IpNet)).Only (Op.asks) := by
  induction domains with
  | nil => trivial
  | cons domain rest ih =>
    exact (domainNets_asks domain).bind fun _ => ih.bind fun _ => trivial

theorem splitBypassNets_asks [Texts] :
    (splitBypassNets profile : TunnelM ι (List Net.IpNet)).Only (Op.asks) :=
  (lookupDomains_asks _).bind fun _ => trivial

variable {ssh proxies : Bool}

/-- The helper holds a tunnel exactly if this succeeds. -/
theorem applyTunnel_keeps (spec : Helper.ApplySpec) :
    Keeps me (fun r stage => stage = .opening ⟨ssh, proxies, r.isOk⟩ false)
      (applyTunnel me spec).run (.opening ⟨ssh, proxies, false⟩ false) := by
  refine (Prog.obeys_bind _ _).2 ⟨by rintro j ⟨⟩; rfl, fun a => ?_⟩
  cases a with
  | error e =>
    refine (Prog.obeys_bind _ _).2 ⟨by rintro j ⟨⟩; rfl, fun _ => ?_⟩
    rfl
  | ok message =>
    refine (Prog.obeys_bind _ _).2 (keeps_minor (by trivial) fun a => ?_)
    cases a with
    | error e =>
      refine (Prog.obeys_bind _ _).2 ⟨by rintro j ⟨⟩; rfl, fun _ => ?_⟩
      rfl
    | ok _ => exact (Prog.obeys_bind _ _).2 (keeps_only (spawn_starts _) fun _ => rfl)

theorem resolveServerIps_asks (host : String) (port : UInt16) :
    Prog.Only (Op.asks) (resolveServerIps host port : ExceptT _ (TunnelM ι) _).run := by
  refine (only_orElse (Prog.only_perform (by trivial)) _).except_bind fun ips => ?_
  dsimp only
  split_ifs <;> trivial

theorem startFullTunnel_keeps [Texts] :
    Keeps me (fun r stage => stage = .opening ⟨ssh, proxies, r.isOk⟩ false)
      (startFullTunnel me profile).run (.opening ⟨ssh, proxies, false⟩ false) := by
  refine keeps_then (only_orElse (Prog.only_perform (by trivial)) _) (fun _ => rfl) fun _ => ?_
  refine keeps_then ((resolveServerIps_asks _ _).mono fun _ => Op.asks.starts) (fun _ => rfl)
    fun serverIps => ?_
  refine keeps_then (only_orElse (Prog.only_perform (by trivial)) _) (fun _ => rfl) fun _ => ?_
  refine keeps_then (only_orElse (Prog.only_perform (by trivial)) _) (fun _ => rfl) fun _ => ?_
  refine keeps_then (only_orElse (Prog.only_perform (by trivial)) _) (fun _ => rfl) fun _ => ?_
  refine keeps_then (only_orElse (Prog.only_perform (by trivial)) _) (fun _ => rfl) fun _ => ?_
  refine keeps_then (tunnelUdpgw_starts profile).lift (fun _ => rfl) fun udpgw => ?_
  refine keeps_then (spawnIntercepts_starts profile udpgw).lift (fun _ => rfl) fun _ => ?_
  refine keeps_then ((splitBypassNets_asks profile).mono fun _ => Op.asks.starts).lift
    (fun _ => rfl) fun extraBypass => ?_
  refine (Prog.obeys_except_bind _ _).2 ((applyTunnel_keeps _).mono fun r stage hr => ?_)
  cases r <;> exact hr

variable {helper : Bool}

theorem commit_keeps (snap : ConnectionSnapshot) (addrs : String × String) (mode : Mode)
    (hhelper : mode.helper = helper) :
    Keeps me Opened (commit me profile snap ssh addrs mode)
      (.opening ⟨ssh, true, helper⟩ false) := by
  refine (Prog.obeys_bind _ _).2 (keeps_minor (by trivial) fun now => ?_)
  refine (Prog.obeys_bind _ _).2 (keeps_publish ?_)
  have hup : (readySnapshot profile snap addrs mode now).state.isUp = true := by
    unfold readySnapshot
    dsimp only
    split_ifs <;> rfl
  rw [hup]
  refine (Prog.obeys_bind _ _).2 ⟨by rintro j ⟨⟩; rfl, fun _ => ?_⟩
  refine (Prog.obeys_bind _ _).2 ⟨⟨rfl, ?_, rfl⟩, fun _ => ?_⟩
  · rw [← hhelper]
    rfl
  · rfl

theorem keeps_onlyIf {α : Type} {present : Bool} {p : TunnelM ι α} {stage : Stage ι}
    (hsome : present = true → Keeps me (fun _ stage => post () stage) p stage)
    (hnone : present = false → post () stage) : Keeps me post (onlyIf present p) stage := by
  cases present with
  | false => exact hnone rfl
  | true => exact (Prog.obeys_bind _ _).2 (hsome rfl)

/-- After this no connection of the session is left. -/
theorem disconnectIf_keeps (ssh : Bool)
    (hpost : post () (.opening ⟨false, proxies, helper⟩ false)) :
    Keeps me post (onlyIf ssh (Call.disconnectSsh me)) (.opening ⟨ssh, proxies, helper⟩ false) := by
  refine keeps_onlyIf (fun _ => ⟨by rintro j ⟨⟩; rfl, fun _ => hpost⟩) ?_
  rintro rfl
  exact hpost

theorem rollBack_keeps (snap : ConnectionSnapshot) (ssh : Bool) (e : TunnelError) :
    Keeps me Opened (rollBack me snap ssh e)
      (.opening ⟨ssh, true, false⟩ false) := by
  refine (Prog.obeys_bind _ _).2 ⟨by rintro j ⟨⟩; rfl, fun _ => ?_⟩
  refine (Prog.obeys_bind _ _).2 (disconnectIf_keeps ssh ?_)
  refine (Prog.obeys_bind _ _).2 (keeps_publish ?_)
  exact .inr rfl

theorem keeps_startProxies {listen : String} {socksPort httpPort : UInt16} {ready : Bool}
    {post : Except String (String × String) → Stage ι → Prop}
    (hok : ∀ addrs, post (.ok addrs) (.opening ⟨ssh, true, helper⟩ ready))
    (herror : ∀ e, post (.error e) (.opening ⟨ssh, false, helper⟩ ready)) :
    Keeps me post (Call.startProxies me listen socksPort httpPort)
      (.opening ⟨ssh, false, helper⟩ ready) := by
  refine ⟨by rintro j ⟨⟩; rfl, fun a => ?_⟩
  cases a with
  | ok addrs => exact hok addrs
  | error e => exact herror e

theorem route_keeps [Texts] (snap : ConnectionSnapshot) (ssh : Bool) (addrs : String × String) :
    Keeps me Opened (route me profile snap ssh addrs) (.opening ⟨ssh, true, false⟩ false) := by
  unfold route
  split_ifs
  · refine (Prog.obeys_bind _ _).2 (keeps_setPhase rfl ?_)
    refine (Prog.obeys_bind _ _).2 ((startFullTunnel_keeps profile).mono fun r stage hr => ?_)
    subst hr
    cases r with
    | ok tun => exact commit_keeps profile snap addrs _ rfl
    | error e => exact rollBack_keeps snap ssh e
  · refine (Prog.obeys_bind _ _).2 (keeps_only (startUdpgwClient_starts profile) fun started => ?_)
    exact commit_keeps profile snap addrs _ rfl
  · exact commit_keeps profile snap addrs _ rfl

theorem serve_keeps [Texts] (snap : ConnectionSnapshot) (ssh : Bool) :
    Keeps me Opened (serve me profile snap ssh) (.opening ⟨ssh, false, false⟩ false) := by
  refine (Prog.obeys_bind _ _).2 (keeps_setPhase rfl ?_)
  refine (Prog.obeys_bind _ _).2 (keeps_startProxies (fun addrs => ?_) fun e => ?_)
  · exact route_keeps profile snap ssh addrs
  · refine (Prog.obeys_bind _ _).2 (disconnectIf_keeps ssh ?_)
    exact .inr rfl

theorem resume_keeps [Texts] (snap : ConnectionSnapshot) (hsnap : snap.state.isUp = false)
    (ssh : Option Endpoint) :
    Keeps me Opened (resume me profile snap ssh) (.opening ⟨ssh.isSome, false, false⟩ false) := by
  cases ssh with
  | none => exact serve_keeps profile snap false
  | some session =>
    refine (Prog.obeys_bind _ _).2 (keeps_publish ?_)
    dsimp only
    rw [hsnap]
    exact serve_keeps _ _ true

theorem attempt_keeps [Texts] : Keeps me Opened (attempt me profile) (.opening .off false) := by
  unfold attempt
  split_ifs
  · exact .inr rfl
  · refine (Prog.obeys_bind _ _).2 (keeps_publish ?_)
    refine (Prog.obeys_bind _ _).2 (keeps_setPhase rfl ?_)
    refine (Prog.obeys_bind _ _).2 (keeps_setPhase rfl ?_)
    refine (Prog.obeys_bind _ _).2 ((openUpstream_keeps profile).mono fun r stage hr => ?_)
    subst hr
    cases r with
    | ok ssh => exact resume_keeps profile _ rfl ssh
    | error e =>
      refine (Prog.obeys_bind _ _).2 (keeps_publish ?_)
      exact .inr rfl

theorem connect_keeps [Texts] : Keeps me Opened (connect me profile) .checking := by
  refine ⟨rfl, fun active => ?_⟩
  cases active with
  | true => exact .inl rfl
  | false => exact attempt_keeps profile

end Connect

section Disconnect
variable {me : ι}

/-- A call for the session that is being stopped, made if there is something to stop. -/
theorem keeps_stop {j : ι} {live live' : Live} {present : Bool}
    (ho : allowed me o (.releasing (some (j, live)) false))
    (hsome : present = true → ∀ a, follow o a (.releasing (some (j, live)) false) =
      .releasing (some (j, live')) false) (hnone : present = false → live = live')
    (hpost : post () (.releasing (some (j, live')) false)) :
    Keeps me post (onlyIf present (Prog.perform o)) (.releasing (some (j, live)) false) := by
  refine keeps_onlyIf (fun h => ⟨ho, fun a => ?_⟩) fun h => ?_
  · rw [hsome h a]
    exact hpost
  · rw [hnone h]
    exact hpost

theorem release_keeps (session : ActiveSession ι)
    (hpost : post () (.releasing (some (session.id, .off)) false)) :
    Keeps me post (release session) (.releasing (some (session.id, session.live)) false) := by
  have hown {o : Op ι} {j : ι} {live : Live} (h : o.session = some session.id) (hj : j ∈ o.session) :
      ∃ live', some (session.id, live) = some (j, live') := by
    rw [h, Option.mem_some_iff] at hj
    exact ⟨live, by rw [hj]⟩
  refine (Prog.obeys_bind _ _).2 ⟨fun _ => hown rfl, fun _ => ?_⟩
  refine (Prog.obeys_bind _ _).2 (keeps_stop (fun _ => hown rfl) (fun _ _ => rfl) (fun _ => rfl) ?_)
  refine (Prog.obeys_bind _ _).2 (keeps_stop (fun _ => hown rfl) (fun _ _ => rfl) (fun _ => rfl) ?_)
  have hhelper (h : session.helper = false) : session.live = ⟨session.ssh, true, false⟩ := by
    rw [ActiveSession.live, h]
  refine (Prog.obeys_bind _ _).2 (keeps_stop (fun _ => hown rfl) (fun _ _ => rfl) hhelper ?_)
  refine (Prog.obeys_bind _ _).2 ⟨fun _ => hown rfl, fun _ => ?_⟩
  have hssh (h : session.ssh = false) : (⟨session.ssh, false, false⟩ : Live) = .off := by
    rw [h]
    rfl
  exact keeps_stop (fun _ => hown rfl) (fun _ _ => rfl) hssh hpost

theorem disconnect_keeps : Keeps me Closed (disconnect : TunnelM ι _) .closing := by
  refine ⟨trivial, fun _ => ⟨rfl, fun _ => ⟨trivial, fun session => ?_⟩⟩⟩
  cases session with
  | none => exact ⟨rfl, fun _ => ⟨rfl, none, rfl, fun _ _ h => nomatch h⟩⟩
  | some s =>
    refine (Prog.obeys_bind (release s) _).2 (release_keeps s ?_)
    refine ⟨rfl, fun _ => ⟨rfl, _, rfl, ?_⟩⟩
    rintro j live ⟨⟩
    rfl

end Disconnect

/-- The stage in which a call begins. -/
def start : Request → Stage ι
  | .connect _ => .checking
  | .disconnect => .closing

theorem program_keeps [Texts] {me : ι} (req : Request) :
    Keeps me (Ended req) (program me req) (start req) := by
  cases req with
  | connect profile => exact connect_keeps profile
  | disconnect => exact disconnect_keeps

end EasyConnection.Tunnel
