import EasyConnection.Async.Past
import EasyConnection.Tunnel.Failure

/-! # From the profile to the chains

What `connect` asks of the helper is read off the profile and off the accesses that it has made
before. Together with the script that the helper installs, it says where a packet can go: out
only for a reason that the profile gives, and otherwise to a listener that the call has started.
A listener on `::1` and those for datagrams may be missing, when their address is taken.
-/
namespace EasyConnection.Tunnel
open Async Config Net Nftables

variable {ι : Type}

section Past

theorem view_remember (past accesses : List (Access ι)) :
    view Prog.remember past accesses = past ++ accesses := by
  induction accesses generalizing past with
  | nil => exact (List.append_nil past).symm
  | cons x xs ih =>
    refine (ih (Prog.remember x.1 x.2 past)).trans ?_
    rw [Prog.remember, List.append_assoc, List.singleton_append]

/-- What a call has been asked. -/
def Phase.request : Phase ι → Option Request
  | .idle => none
  | .busy req _ => some req
  | .returned req _ => some req

variable [DecidableEq ι] {pre : Op ι → List (Access ι) → Prop} {req : Request}
  {post : Except TunnelError ConnectionSnapshot → List (Access ι) → Prop}

/-- A step is an access of the call, or it leaves what the call has been asked, or the call
begins. -/
theorem request_step [Texts] {i : ι} {st st' : State ι} {e : Event ι} (hmoves : Moves st e st')
    (hreq : (st'.calls i).request = some req) :
    (made i st e = none ∧ ((st.calls i).request = some req ∨ st.calls i = .idle)) ∨
      ∃ o k a, st.calls i = .busy req (.call o k) ∧ made i st e = some ⟨o, a⟩ := by
  cases hmoves with
  | @call j req' hidle =>
    left
    by_cases hji : j = i
    · subst hji
      exact ⟨rfl, .inr hidle⟩
    · simp only [State.setCall, Function.update_of_ne (Ne.symm hji)] at hreq
      exact ⟨rfl, .inl hreq⟩
  | @work j env req' o k hbusy =>
    by_cases hji : j = i
    · subst hji
      simp only [State.setCall, Function.update_self] at hreq
      obtain rfl := Option.some.inj hreq
      exact .inr ⟨o, k, answer st.world env o, hbusy, by simp only [made, hbusy, if_true]⟩
    · simp only [State.setCall, Function.update_of_ne (Ne.symm hji)] at hreq
      exact .inl ⟨by simp only [made, hbusy, if_neg hji], .inl hreq⟩
  | @finish j req' r hret =>
    left
    by_cases hji : j = i
    · subst hji
      simp only [State.setCall, Function.update_self] at hreq
      exact ⟨rfl, .inl ((congrArg Phase.request hret).trans hreq)⟩
    · simp only [State.setCall, Function.update_of_ne (Ne.symm hji)] at hreq
      exact ⟨rfl, .inl hreq⟩
  | wake _ => exact .inl ⟨rfl, .inl hreq⟩
  | @pollRead j aborted stats _ =>
    obtain ⟨w, hw, -⟩ := st.pollRead_world j aborted stats
    rw [hw] at hreq
    exact .inl ⟨rfl, .inl hreq⟩
  | pollWrite _ => exact .inl ⟨rfl, .inl hreq⟩

/-- The accesses of a program that obeys `pre` are allowed, whatever other calls do between
them. -/
theorem warranted_of_obeys [Texts] {i : ι} {st₀ st : State ι} {es : List (Event ι)}
    (hprogram : (program i req).Obeys pre Prog.remember post []) (hidle : st₀.calls i = .idle)
    (hrun : run step st₀ es = some st) (hreq : (st.calls i).request = some req) :
    Prog.Warranted pre (trace i st₀ es) := by
  have hinv : Followed pre Prog.remember post [] req (st.calls i) (trace i st₀ es) ∧
      ((st.calls i).request = some req → Prog.Warranted pre (trace i st₀ es)) := by
    refine run_reached (I := fun es st =>
      Followed pre Prog.remember post [] req (st.calls i) (trace i st₀ es) ∧
        ((st.calls i).request = some req → Prog.Warranted pre (trace i st₀ es)))
      ?_ ?_ (Meets.of_forall (fun _ _ => trivial) st₀ es) hrun
    · intro es u e u' hu ⟨hfollowed, hold⟩ _ hstep
      have hmoves := step_moves hstep
      rw [trace_concat e hu]
      refine ⟨hfollowed.step hprogram hmoves, fun hreq => ?_⟩
      rcases request_step hmoves hreq with ⟨hnone, hreq | hidle⟩ | ⟨o, k, a, hbusy, hsome⟩
      · rw [hnone, Option.toList_none, List.append_nil]
        exact hold hreq
      · rw [hidle] at hfollowed
        rw [hnone, Option.toList_none, List.append_nil,
          show trace i st₀ es = [] from hfollowed]
        intro past x rest heq
        cases past <;> cases heq
      · rw [hbusy] at hfollowed hold
        rw [hsome]
        refine (hold rfl).append ?_
        have hpre := (hfollowed rfl).1
        rwa [view_remember] at hpre
    · rw [hidle]
      exact ⟨rfl, fun h => by cases h⟩
  exact hinv.2 hreq

end Past

section Intent
variable (me : ι) (profile : ConnectionConfig) (past : List (Access ι))

/-- The name was found to have the address. -/
def Resolved (host : String) (port : UInt16) (a : IpAddr) : Prop :=
  ∃ ips : List IpAddr, (⟨.lookupHost host port, .ok ips⟩ : Access ι) ∈ past ∧ a ∈ ips

def Spawned (t : Task) : Prop := (⟨.spawn me t, ()⟩ : Access ι) ∈ past

/-- The listener has its port, and its task has been started. -/
def Listening (t : Task) : Prop := (⟨.bind t, .ok ()⟩ : Access ι) ∈ past ∧ Spawned me past t

/-- The listener is there, or its address could not be bound. -/
def Attended (t : Task) : Prop :=
  Listening me past t ∨ ∃ e, (⟨.bind t, .error e⟩ : Access ι) ∈ past

/-- The server of the session: the one that the SSH connection was made to, or the profile's. -/
def Reached (e : Endpoint) : Prop :=
  (∃ route, (⟨.openSsh me route, .ok e⟩ : Access ι) ∈ past) ∨
    profile.protocol ≠ .ssh ∧ e = ⟨profile.host, profile.port⟩

/-- A network that the profile lets around the tunnel. -/
def Chosen [Texts] (net : IpNet) : Prop :=
  (∃ cidr ∈ profile.splitBypassCidrs, Texts.parseIpNet cidr = some net) ∨
  (∃ domain ∈ profile.splitBypassDomains, ∃ a, Resolved past (domainHost domain) 0 a ∧
    net = hostNet a) ∨
  net ∈ privateCidrs ∧ (profile.bypassPrivateNetworks = true ∨ profile.routingMode = .splitTunnel)

/-- The request to the helper says what the profile says, and the listeners that it names are
there. -/
structure Intended [Texts] (spec : Helper.ApplySpec) : Prop where
  wanted : wantsTun profile = true
  valid : spec.validate = .ok ()
  server : ∃ e, Reached me profile past e ∧ ∀ a ∈ spec.serverIps, Resolved past e.host e.port a
  bypass : ∀ net ∈ spec.bypass, Chosen profile past net
  transproxy : spec.transproxyPort = 13450 ∧ Listening me past .transproxy
  dns : spec.dnsPort = 13453 ∧ Listening me past .dnsIntercept
  udp : spec.udpPort = 0 ∨ spec.udpPort = 13451 ∧ Spawned me past .udpgwClient ∧
    Attended me past .udpIntercept
  ipv6 : spec.ipv6 = true → profile.ipv6 = true ∧ Attended me past .transproxyV6 ∧
    Attended me past .dnsInterceptV6 ∧ (spec.udpPort ≠ 0 → Attended me past .udpInterceptV6)
  killSwitch : spec.killSwitch = profile.killSwitch
  resolvers : spec.dnsServers ≠ [] ∧ ∀ s ∈ spec.dnsServers, (parseIpAddr s).isSome = true

def intends [Texts] (o : Op ι) (past : List (Access ι)) : Prop :=
  match o with
  | .apply i spec => i = me ∧ Intended me profile past spec
  | _ => True

/-- Whatever it is answered, the program asks the helper only for what is intended. -/
abbrev Acts [Texts] {α : Type} (post : α → List (Access ι) → Prop) (p : TunnelM ι α)
    (past : List (Access ι)) : Prop :=
  p.Obeys (intends me profile) Prog.remember post past

def Op.modest : Op ι → Prop
  | .apply _ _ => False
  | _ => True

variable {me profile past} {past' : List (Access ι)}

theorem Op.modest.intends [Texts] {o : Op ι} (ho : o.modest) : intends me profile o past := by
  cases o <;> trivial

theorem Resolved.mono {host : String} {port : UInt16} {a : IpAddr}
    (h : Resolved past host port a) (hpast : past ⊆ past') : Resolved past' host port a := by
  obtain ⟨ips, hmem, ha⟩ := h
  exact ⟨ips, hpast hmem, ha⟩

theorem Reached.mono {e : Endpoint} (h : Reached me profile past e) (hpast : past ⊆ past') :
    Reached me profile past' e := by
  rcases h with ⟨route, hmem⟩ | h
  · exact .inl ⟨route, hpast hmem⟩
  · exact .inr h

theorem Attended.mono {t : Task} (h : Attended me past t) (hpast : past ⊆ past') :
    Attended me past' t := by
  rcases h with ⟨hbound, hspawned⟩ | ⟨e, hfailed⟩
  · exact .inl ⟨hpast hbound, hpast hspawned⟩
  · exact .inr ⟨e, hpast hfailed⟩

section Programs
variable [Texts] {α β : Type}

/-- A program that does not ask the helper for a tunnel. -/
theorem acts_modest {p : TunnelM ι α} (h : p.Only Op.modest) :
    Acts me profile (fun _ past' => past ⊆ past') p past := by
  induction p generalizing past with
  | ret a => exact List.Subset.refl past
  | call o k ih =>
    refine ⟨h.1.intends, fun x => (ih x (h.2 x)).mono fun _ past' hpast => ?_⟩
    exact List.Subset.trans Prog.subset_remember hpast

/-- A step that may fail, and does not ask for a tunnel. -/
theorem acts_then {x : ExceptT TunnelError (TunnelM ι) α} (hx : Prog.Only Op.modest x.run)
    {f : α → ExceptT TunnelError (TunnelM ι) β}
    {post : Except TunnelError β → List (Access ι) → Prop} (herror : ∀ e past', post (.error e) past')
    (hf : ∀ a past', past ⊆ past' → Acts me profile post (f a).run past') :
    Acts me profile post (x >>= f).run past := by
  refine (Prog.obeys_except_bind x f).2 ((acts_modest hx).mono fun r past' hpast => ?_)
  cases r with
  | ok a => exact hf a past' hpast
  | error e => exact herror e past'

/-- A listener without which there is no tunnel. -/
theorem acts_bind {t : Task} {message : String → TunnelError}
    {f : Unit → ExceptT TunnelError (TunnelM ι) β}
    {post : Except TunnelError β → List (Access ι) → Prop} (herror : ∀ e past', post (.error e) past')
    (hf : ∀ past', past ⊆ past' → (⟨.bind t, .ok ()⟩ : Access ι) ∈ past' →
      Acts me profile post (f ()).run past') :
    Acts me profile post (orElse (Call.bind t) message >>= f).run past := by
  refine (Prog.obeys_except_bind _ _).2 ((Prog.obeys_bind _ _).2 ⟨trivial, fun answer => ?_⟩)
  cases answer with
  | error e => exact herror (message e) _
  | ok _ => exact hf _ Prog.subset_remember Prog.mem_remember_self

theorem resolveServerIps_acts (host : String) (port : UInt16) :
    Acts me profile (fun r past' => past ⊆ past' ∧ ∀ ips, r = .ok ips →
      ips ≠ [] ∧ ∀ a ∈ ips, Resolved past' host port a)
      (resolveServerIps host port).run past := by
  refine (Prog.obeys_except_bind _ _).2 ((Prog.obeys_bind _ _).2 ⟨trivial, fun answer => ?_⟩)
  cases answer with
  | error e => exact ⟨Prog.subset_remember, fun _ h => by cases h⟩
  | ok ips =>
    change Acts me profile _ (ExceptT.run (if (ips.mergeSort IpAddr.le).dedup = [] then _ else _)) _
    split_ifs with hnone
    · exact ⟨Prog.subset_remember, fun _ h => by cases h⟩
    · refine ⟨Prog.subset_remember, fun ips' h => ?_⟩
      obtain rfl := Except.ok.inj h
      refine ⟨hnone, fun a ha => ⟨ips, Prog.mem_remember_self, ?_⟩⟩
      exact List.mem_mergeSort.1 (List.mem_dedup.1 ha)

theorem startUdpgwClient_acts (cfg : ConnectionConfig) :
    Acts me profile (fun started past' => past ⊆ past' ∧
      (started.handle = true → Spawned me past' .udpgwClient)) (startUdpgwClient me cfg) past := by
  unfold startUdpgwClient
  by_cases henabled : cfg.udpgw.enabled
  · simp only [henabled, Bool.not_true, Bool.false_eq_true, if_false]
    refine (Prog.obeys_bind _ _).2 ⟨trivial, fun answer => ?_⟩
    cases answer with
    | connected =>
      refine ⟨trivial, fun _ => ⟨?_, fun _ => Prog.mem_remember_self⟩⟩
      exact List.Subset.trans Prog.subset_remember Prog.subset_remember
    | failed e => exact ⟨Prog.subset_remember, fun h => by cases h⟩
    | unreachable e => exact ⟨Prog.subset_remember, fun h => by cases h⟩
  · simp only [henabled, Bool.not_false, if_true]
    exact ⟨List.Subset.refl past, fun h => by cases h⟩

theorem tunnelUdpgw_acts (cfg : ConnectionConfig) :
    Acts me profile (fun started past' => past ⊆ past' ∧
      (started.handle = true → Spawned me past' .udpgwClient)) (tunnelUdpgw me cfg) past := by
  unfold tunnelUdpgw
  split_ifs
  · exact startUdpgwClient_acts cfg
  · exact ⟨List.Subset.refl past, fun h => by cases h⟩

theorem spawnIfBound_acts (wanted : Bool) (t : Task) :
    Acts me profile (fun _ past' => past ⊆ past' ∧ (wanted = true → Attended me past' t))
      (spawnIfBound me wanted t) past := by
  unfold spawnIfBound
  split_ifs with hwanted
  · refine (Prog.obeys_bind _ _).2 ⟨trivial, fun answer => ?_⟩
    cases answer with
    | ok _ =>
      refine ⟨trivial, fun _ => ⟨?_, fun _ => .inl ⟨?_, Prog.mem_remember_self⟩⟩⟩
      · exact List.Subset.trans Prog.subset_remember Prog.subset_remember
      · exact Prog.subset_remember Prog.mem_remember_self
    | error e => exact ⟨Prog.subset_remember, fun _ => .inr ⟨e, Prog.mem_remember_self⟩⟩
  · exact ⟨List.Subset.refl past, fun h => absurd h hwanted⟩

/-- The listeners for the datagrams of other services. -/
theorem spawnUdp_acts (cfg : ConnectionConfig) (handle : Bool) :
    Acts me profile (fun _ past' => past ⊆ past' ∧ (handle = true →
        Attended me past' .udpIntercept ∧ (cfg.ipv6 = true → Attended me past' .udpInterceptV6)))
      (if handle then do
        spawnIfBound me true .udpIntercept
        spawnIfBound me cfg.ipv6 .udpInterceptV6
        Call.spawn me .udpgwReplies
      else return () : TunnelM ι Unit) past := by
  split_ifs with hhandle
  · refine (Prog.obeys_bind _ _).2 ((spawnIfBound_acts true .udpIntercept).mono ?_)
    rintro _ past₁ ⟨hpast₁, hudp⟩
    refine (Prog.obeys_bind _ _).2 ((spawnIfBound_acts cfg.ipv6 .udpInterceptV6).mono ?_)
    rintro _ past₂ ⟨hpast₂, hudp6⟩
    refine ⟨trivial, fun _ => ⟨fun _ h => Prog.subset_remember (hpast₂ (hpast₁ h)), fun _ => ?_⟩⟩
    exact ⟨((hudp rfl).mono hpast₂).mono Prog.subset_remember,
      fun h6 => (hudp6 h6).mono Prog.subset_remember⟩
  · exact ⟨List.Subset.refl past, fun h => absurd h hhandle⟩

theorem spawnIntercepts_acts (cfg : ConnectionConfig) (udpgw : StartedUdpgw) :
    Acts me profile (fun _ past' => past ⊆ past' ∧ Spawned me past' .transproxy ∧
        Spawned me past' .dnsIntercept ∧
        (cfg.ipv6 = true → Attended me past' .transproxyV6 ∧ Attended me past' .dnsInterceptV6) ∧
        (udpgw.handle = true → Attended me past' .udpIntercept ∧
          (cfg.ipv6 = true → Attended me past' .udpInterceptV6)))
      (spawnIntercepts me cfg udpgw) past := by
  refine (Prog.obeys_bind _ _).2 ⟨trivial, fun _ => ?_⟩
  refine (Prog.obeys_bind _ _).2 ⟨trivial, fun _ => ?_⟩
  refine (Prog.obeys_bind _ _).2 ((spawnIfBound_acts cfg.ipv6 .transproxyV6).mono ?_)
  rintro _ past₁ ⟨hpast₁, htcp6⟩
  refine (Prog.obeys_bind _ _).2 ((spawnIfBound_acts cfg.ipv6 .dnsInterceptV6).mono ?_)
  rintro _ past₂ ⟨hpast₂, hdns6⟩
  refine (spawnUdp_acts cfg udpgw.handle).mono ?_
  rintro _ past₃ ⟨hpast₃, hudp⟩
  have hlate : past₁ ⊆ past₃ := List.Subset.trans hpast₂ hpast₃
  refine ⟨fun _ h => hlate (hpast₁ (Prog.subset_remember (Prog.subset_remember h))), ?_, ?_,
    fun h6 => ⟨(htcp6 h6).mono hlate, (hdns6 h6).mono hpast₃⟩, hudp⟩
  · exact hlate (hpast₁ (Prog.subset_remember Prog.mem_remember_self))
  · exact hlate (hpast₁ Prog.mem_remember_self)

/-- Each network is that of an address which a domain was found to have. -/
theorem lookupDomains_acts (domains : List String) :
    Acts me profile (fun nets past' => past ⊆ past' ∧ ∀ net ∈ nets, ∃ domain ∈ domains, ∃ a,
      Resolved past' (domainHost domain) 0 a ∧ net = hostNet a) (lookupDomains domains) past := by
  induction domains generalizing past with
  | nil => exact ⟨List.Subset.refl past, fun _ h => by cases h⟩
  | cons domain rest ih =>
    have hhead : Acts me profile (fun nets past' => past ⊆ past' ∧ ∀ net ∈ nets, ∃ a,
        Resolved past' (domainHost domain) 0 a ∧ net = hostNet a) (domainNets domain) past := by
      unfold domainNets
      split_ifs
      · exact ⟨List.Subset.refl past, fun _ h => by cases h⟩
      · refine (Prog.obeys_bind _ _).2 ⟨trivial, fun answer => ?_⟩
        cases answer with
        | error e => exact ⟨Prog.subset_remember, fun _ h => by cases h⟩
        | ok ips =>
          refine ⟨Prog.subset_remember, fun net hnet => ?_⟩
          obtain ⟨a, ha, rfl⟩ := List.mem_map.1 hnet
          exact ⟨a, ⟨ips, Prog.mem_remember_self, ha⟩, rfl⟩
    refine (Prog.obeys_bind _ _).2 (hhead.mono ?_)
    rintro nets past₁ ⟨hpast₁, hnets⟩
    refine (Prog.obeys_bind _ _).2 (ih.mono ?_)
    rintro more past₂ ⟨hpast₂, hmore⟩
    refine ⟨List.Subset.trans hpast₁ hpast₂, fun net hnet => ?_⟩
    rcases List.mem_append.1 hnet with hnet | hnet
    · obtain ⟨a, ha, rfl⟩ := hnets net hnet
      exact ⟨domain, List.mem_cons_self, a, ha.mono hpast₂, rfl⟩
    · obtain ⟨domain', hdomain, hfound⟩ := hmore net hnet
      exact ⟨domain', List.mem_cons_of_mem _ hdomain, hfound⟩

theorem splitBypassNets_acts (cfg : ConnectionConfig) :
    Acts me profile (fun nets past' => past ⊆ past' ∧ ∀ net ∈ nets, Chosen cfg past' net)
      (splitBypassNets cfg) past := by
  refine (Prog.obeys_bind _ _).2 ((lookupDomains_acts _).mono ?_)
  rintro nets past' ⟨hpast, hnets⟩
  refine ⟨hpast, fun net hnet => ?_⟩
  rcases List.mem_append.1 hnet with hnet | hnet
  · obtain ⟨cidr, hcidr, hparse⟩ := List.mem_filterMap.1 hnet
    exact .inl ⟨cidr, hcidr, hparse⟩
  · exact .inr (.inl (hnets net hnet))

end Programs

section Connect
variable {session : Endpoint}

/-- The profile with the server of the session. -/
def onServer (profile : ConnectionConfig) (session : Endpoint) : ConnectionConfig :=
  { profile with host := session.host, port := session.port }

/-- A profile that was accepted gives a request that the helper accepts. -/
theorem tunnelSpec_valid [Texts] (hvalid : validateConnection profile = .ok ()) {ips : List IpAddr}
    (hips : ips ≠ []) (nets : List IpNet) (policy : Dns.DnsPolicy) (servers : List String)
    (udpgw : StartedUdpgw) :
    (tunnelSpec (onServer profile session) ips nets policy servers udpgw).validate = .ok () := by
  have hmtu : 576 ≤ profile.mtu.getD 1280 ∧ profile.mtu.getD 1280 ≤ 9000 := by
    cases hsome : profile.mtu with
    | none => decide
    | some mtu => exact validateConnection_mtu hvalid mtu hsome
  simp [Helper.ApplySpec.validate, tunnelSpec, onServer, hips, hmtu]

theorem resolvers_parse [Texts] (hvalid : validateConnection profile = .ok ()) :
    ∀ s ∈ Dns.resolveServers (Dns.effectivePolicy true (.parse profile.dns.mode.text))
      profile.dns.servers, (parseIpAddr s).isSome = true := by
  unfold Dns.resolveServers
  split
  · exact fun _ h => by cases h
  · split_ifs
    · exact validateConnection_dns hvalid
    · decide

/-- What `applyTunnel` is given, with all that has been done before it. -/
theorem tunnelSpec_intended [Texts] (hvalid : validateConnection profile = .ok ())
    (hwanted : wantsTun profile = true) (hreached : Reached me profile past session)
    {ips : List IpAddr} (hips : ips ≠ [])
    (hresolved : ∀ a ∈ ips, Resolved past session.host session.port a) {nets : List IpNet}
    (hnets : ∀ net ∈ nets, Chosen profile past net) (htcp : Listening me past .transproxy)
    (hdns : Listening me past .dnsIntercept) {udpgw : StartedUdpgw}
    (hclient : udpgw.handle = true → Spawned me past .udpgwClient)
    (h6 : profile.ipv6 = true → Attended me past .transproxyV6 ∧ Attended me past .dnsInterceptV6)
    (hudp : udpgw.handle = true → Attended me past .udpIntercept ∧
      (profile.ipv6 = true → Attended me past .udpInterceptV6)) :
    Intended me profile past (tunnelSpec (onServer profile session) ips nets
      (Dns.effectivePolicy true (.parse profile.dns.mode.text))
      (Dns.resolveServers (Dns.effectivePolicy true (.parse profile.dns.mode.text))
        profile.dns.servers) udpgw) where
  wanted := hwanted
  valid := tunnelSpec_valid hvalid hips ..
  server := ⟨session, hreached, hresolved⟩
  bypass net hnet := by
    unfold Helper.ApplySpec.bypass at hnet
    split_ifs at hnet with hprivate
    · rcases List.mem_append.1 hnet with hnet | hnet
      · exact hnets net hnet
      · refine .inr (.inr ⟨hnet, ?_⟩)
        rcases Bool.or_eq_true_iff.1 hprivate with hset | hsplit
        · exact .inl hset
        · exact .inr (eq_of_beq hsplit)
    · exact hnets net hnet
  transproxy := ⟨rfl, htcp⟩
  dns := ⟨rfl, hdns⟩
  udp := by
    cases hhandle : udpgw.handle with
    | false => exact .inl (by simp only [tunnelSpec, hhandle, Bool.false_eq_true, if_false])
    | true =>
      exact .inr ⟨by simp only [tunnelSpec, hhandle, if_true], hclient hhandle, (hudp hhandle).1⟩
  ipv6 hset := by
    refine ⟨hset, (h6 hset).1, (h6 hset).2, fun hport => ?_⟩
    cases hhandle : udpgw.handle with
    | false => exact absurd (by simp only [tunnelSpec, hhandle, Bool.false_eq_true, if_false]) hport
    | true => exact (hudp hhandle).2 hset
  killSwitch := rfl
  resolvers := ⟨(Dns.tunnel_configures _ _).2, resolvers_parse hvalid⟩

theorem applyTunnel_acts [Texts] {spec : Helper.ApplySpec} (h : Intended me profile past spec) :
    Acts me profile (fun _ _ => True) (applyTunnel me spec).run past := by
  refine (Prog.obeys_bind _ _).2 ⟨⟨rfl, h⟩, fun answer => ?_⟩
  cases answer with
  | error e => exact ⟨trivial, fun _ => trivial⟩
  | ok message =>
    refine (Prog.obeys_bind _ _).2 ⟨trivial, fun answer => ?_⟩
    cases answer with
    | error e => exact ⟨trivial, fun _ => trivial⟩
    | ok _ => exact ⟨trivial, fun _ => trivial⟩

theorem startFullTunnel_acts [Texts] (hvalid : validateConnection profile = .ok ())
    (hwanted : wantsTun profile = true) (hreached : Reached me profile past session) :
    Acts me profile (fun _ _ => True) (startFullTunnel me (onServer profile session)).run past := by
  refine acts_then (only_orElse (Prog.only_perform trivial) _) (fun _ _ => trivial)
    fun _ past hpast => ?_
  replace hreached := hreached.mono hpast
  refine (Prog.obeys_except_bind _ _).2 ((resolveServerIps_acts _ _).mono ?_)
  rintro (e | ips) past ⟨hpast, hips⟩
  · trivial
  replace hreached := hreached.mono hpast
  obtain ⟨hips, hresolved⟩ := hips ips rfl
  refine acts_then (only_orElse (Prog.only_perform trivial) _) (fun _ _ => trivial)
    fun _ past₁ hpast₁ => ?_
  refine acts_then (only_orElse (Prog.only_perform trivial) _) (fun _ _ => trivial)
    fun _ past₂ hpast₂ => ?_
  refine acts_bind (fun _ _ => trivial) fun past₃ hpast₃ hbound => ?_
  refine acts_bind (fun _ _ => trivial) fun past₄ hpast₄ hbound' => ?_
  refine (Prog.obeys_except_bind _ _).2 ((Prog.obeys_lift _).2 ((tunnelUdpgw_acts _).mono ?_))
  rintro udpgw past₅ ⟨hpast₅, hclient⟩
  refine (Prog.obeys_except_bind _ _).2 ((Prog.obeys_lift _).2 ((spawnIntercepts_acts _ _).mono ?_))
  rintro _ past₆ ⟨hpast₆, htcp, hdns, h6, hudp⟩
  refine (Prog.obeys_except_bind _ _).2 ((Prog.obeys_lift _).2 ((splitBypassNets_acts _).mono ?_))
  rintro nets past₇ ⟨hpast₇, hnets⟩
  have hlate : past₄ ⊆ past₇ := fun _ h => hpast₇ (hpast₆ (hpast₅ h))
  have hearly : past ⊆ past₇ := fun _ h => hlate (hpast₄ (hpast₃ (hpast₂ (hpast₁ h))))
  have hserves : udpgw.handle = true → Spawned me past₇ .udpgwClient :=
    fun h => hpast₇ (hpast₆ (hclient h))
  have hchosen : ∀ net ∈ nets, Chosen profile past₇ net := hnets
  have hspec := tunnelSpec_intended hvalid hwanted (hreached.mono hearly) hips
    (fun a ha => (hresolved a ha).mono hearly) hchosen
    ⟨hlate (hpast₄ hbound), hpast₇ htcp⟩ ⟨hlate hbound', hpast₇ hdns⟩ hserves
    (fun hset => ⟨(h6 hset).1.mono hpast₇, (h6 hset).2.mono hpast₇⟩)
    (fun h => ⟨(hudp h).1.mono hpast₇, fun hset => ((hudp h).2 hset).mono hpast₇⟩)
  refine (Prog.obeys_except_bind _ _).2 ((applyTunnel_acts hspec).mono fun r _ _ => ?_)
  cases r <;> trivial

theorem commit_modest (cfg : ConnectionConfig) (snap : ConnectionSnapshot) (ssh : Bool)
    (addrs : String × String) (mode : Mode) :
    (commit me cfg snap ssh addrs mode).Only Op.modest :=
  ⟨trivial, fun _ => ⟨trivial, fun _ => ⟨trivial, fun _ => ⟨trivial, fun _ => trivial⟩⟩⟩⟩

theorem setPhase_modest (state : ConnectionState) (phase : ConnectionPhase) :
    (setPhase state phase : TunnelM ι Unit).Only Op.modest :=
  ⟨trivial, fun _ => ⟨trivial, fun _ => trivial⟩⟩

theorem disconnectIf_modest (ssh : Bool) :
    (onlyIf ssh (Call.disconnectSsh me) : TunnelM ι Unit).Only Op.modest := by
  cases ssh with
  | false => trivial
  | true => exact ⟨trivial, fun _ => trivial⟩

theorem rollBack_modest (snap : ConnectionSnapshot) (ssh : Bool) (e : TunnelError) :
    (rollBack me snap ssh e).Only Op.modest :=
  ⟨trivial, fun _ => (disconnectIf_modest ssh).bind fun _ => ⟨trivial, fun _ => trivial⟩⟩

theorem route_acts [Texts] (hvalid : validateConnection profile = .ok ())
    (hreached : Reached me profile past session) (snap : ConnectionSnapshot) (ssh : Bool)
    (addrs : String × String) :
    Acts me profile (fun _ _ => True) (route me (onServer profile session) snap ssh addrs) past := by
  unfold route
  split_ifs with hwanted
  · refine (Prog.obeys_bind _ _).2 ((acts_modest (setPhase_modest _ _)).mono fun _ past hpast => ?_)
    refine (Prog.obeys_bind _ _).2 ?_
    refine (startFullTunnel_acts hvalid hwanted (hreached.mono hpast)).mono fun r _ _ => ?_
    cases r with
    | ok tun => exact (acts_modest (commit_modest ..)).mono fun _ _ _ => trivial
    | error e => exact (acts_modest (rollBack_modest ..)).mono fun _ _ _ => trivial
  · refine (Prog.obeys_bind _ _).2 ((startUdpgwClient_acts _).mono fun _ _ _ => ?_)
    exact (acts_modest (commit_modest ..)).mono fun _ _ _ => trivial
  · exact (acts_modest (commit_modest ..)).mono fun _ _ _ => trivial

theorem serve_acts [Texts] (hvalid : validateConnection profile = .ok ())
    (hreached : Reached me profile past session) (snap : ConnectionSnapshot) (ssh : Bool) :
    Acts me profile (fun _ _ => True) (serve me (onServer profile session) snap ssh) past := by
  refine (Prog.obeys_bind _ _).2 ((acts_modest (setPhase_modest _ _)).mono fun _ past hpast => ?_)
  refine ⟨trivial, fun answer => ?_⟩
  cases answer with
  | ok addrs => exact route_acts hvalid ((hreached.mono hpast).mono Prog.subset_remember) snap ssh addrs
  | error e =>
    refine (Prog.obeys_bind (onlyIf ssh (Call.disconnectSsh me)) _).2 ?_
    exact (acts_modest (disconnectIf_modest ssh)).mono fun _ _ _ => trivial

/-- When the upstream is open, its server is known. -/
theorem openUpstream_acts [Texts] :
    Acts me profile (fun r past' => ∀ session, r = .ok session →
      Reached me profile past' (session.getD ⟨profile.host, profile.port⟩))
      (openUpstream me profile).run past := by
  have hssh (route : SshRoute) (past : List (Access ι)) :
      Acts me profile (fun r past' => ∀ session, r = .ok session →
        Reached me profile past' (session.getD ⟨profile.host, profile.port⟩))
        (do return some (← ExceptT.mk (Call.openSsh me route)) :
          ExceptT TunnelError (TunnelM ι) (Option Endpoint)).run past := by
    refine (Prog.obeys_except_bind _ _).2 ⟨trivial, fun answer => ?_⟩
    cases answer with
    | error e => exact fun _ h => by cases h
    | ok e =>
      intro session h
      obtain rfl := Except.ok.inj h
      exact .inl ⟨route, Prog.mem_remember_self⟩
  unfold openUpstream
  cases hprotocol : profile.protocol with
  | socks => exact fun _ h => by cases h
  | shadowsocks | vless =>
    refine acts_then (only_orElse (Prog.only_perform trivial) _) (fun _ _ _ h => by cases h) ?_
    intro _ past' _ session h
    obtain rfl := Except.ok.inj h
    exact .inr ⟨by rw [hprotocol]; decide, rfl⟩
  | ssh =>
    cases profile.smartLinkSecret with
    | some linkRef =>
      exact acts_then (only_orElse (Prog.only_perform trivial) _) (fun _ _ _ h => by cases h)
        fun link past' _ => hssh (.smart link) past'
    | none =>
      refine acts_then (Prog.only_perform trivial) (fun _ _ _ h => by cases h) fun _ past' _ => ?_
      split_ifs
      · exact hssh .direct past'
      · exact acts_then (only_orElse (Prog.only_perform trivial) _) (fun _ _ _ h => by cases h)
          fun _ past' _ => hssh .overTransport past'

theorem resume_acts [Texts] (hvalid : validateConnection profile = .ok ())
    (snap : ConnectionSnapshot) {session : Option Endpoint}
    (hreached : Reached me profile past (session.getD ⟨profile.host, profile.port⟩)) :
    Acts me profile (fun _ _ => True) (resume me profile snap session) past := by
  cases session with
  | none => exact serve_acts hvalid hreached snap false
  | some session =>
    exact ⟨trivial, fun _ => serve_acts hvalid (hreached.mono Prog.subset_remember) _ true⟩

/-- `connect` with an accepted profile asks the helper only for what is intended. -/
theorem connect_acts [Texts] (hvalid : validateConnection profile = .ok ()) :
    Acts me profile (fun _ _ => True) (connect me profile) past := by
  refine ⟨trivial, fun active => ?_⟩
  cases active with
  | true => trivial
  | false =>
    change Acts me profile _ (attempt me profile) _
    unfold attempt
    split_ifs
    · trivial
    · refine (Prog.obeys_bind _ _).2 ⟨trivial, fun _ => ?_⟩
      refine (Prog.obeys_bind _ _).2 ((acts_modest (setPhase_modest _ _)).mono fun _ _ _ => ?_)
      refine (Prog.obeys_bind _ _).2 ((acts_modest (setPhase_modest _ _)).mono fun _ _ _ => ?_)
      refine (Prog.obeys_bind _ _).2 (openUpstream_acts.mono fun r past' hr => ?_)
      cases r with
      | ok session => exact resume_acts hvalid _ (hr session rfl)
      | error e => exact ⟨trivial, fun _ => trivial⟩

end Connect

section Packets
variable (me profile past) (p : Packet)

/-- Why the first packet of a flow meets its fate. -/
inductive Justified [Texts] : Fate → Prop where
  | rejected : Justified .rejected
  | inside (h : p.oif = "lo" ∨ p.oif = tunName ∨ p.dst.isLoopback = true) : Justified (.sent p)
  | server {e : Endpoint} (he : Reached me profile past e)
      (h : Resolved past e.host e.port p.dst) : Justified (.sent p)
  | bypass {net : IpNet} (hnet : Chosen profile past net) (h : net.contains p.dst = true) :
      Justified (.sent p)
  | tcp (hproto : p.proto = .tcp) (hfam : IsV4 p.dst = true)
      (h : Listening me past .transproxy) : Justified (.sent (p.redirectTo 13450))
  | tcpV6 (hproto : p.proto = .tcp) (hfam : IsV4 p.dst = false) (h6 : profile.ipv6 = true)
      (h : Attended me past .transproxyV6) : Justified (.sent (p.redirectTo 13450))
  | dns (hproto : p.proto = .udp) (hport : p.dport = 53) (hfam : IsV4 p.dst = true)
      (h : Listening me past .dnsIntercept) : Justified (.sent (p.redirectTo 13453))
  | dnsV6 (hproto : p.proto = .udp) (hport : p.dport = 53) (hfam : IsV4 p.dst = false)
      (h6 : profile.ipv6 = true) (h : Attended me past .dnsInterceptV6) :
      Justified (.sent (p.redirectTo 13453))
  | udp (hproto : p.proto = .udp) (hport : p.dport ≠ 53) (hfam : IsV4 p.dst = true)
      (hclient : Spawned me past .udpgwClient) (h : Attended me past .udpIntercept) :
      Justified (.sent (p.redirectTo 13451))
  | udpV6 (hproto : p.proto = .udp) (hport : p.dport ≠ 53) (hfam : IsV4 p.dst = false)
      (h6 : profile.ipv6 = true) (hclient : Spawned me past .udpgwClient)
      (h : Attended me past .udpInterceptV6) : Justified (.sent (p.redirectTo 13451))

variable {me profile past p} {spec : Helper.ApplySpec}

/-- A flow that the request redirects comes to the listener of its family. -/
theorem Intended.redirected [Texts] (h : Intended me profile past spec)
    (hproto : p.proto = .tcp ∨ p.proto = .udp) {port : UInt16}
    (hport : interceptPort spec.tableArgs p = some port)
    (hfam : spec.ipv6 = true ∨ IsV4 p.dst = true) :
    Justified me profile past p (.sent (p.redirectTo port)) := by
  have hfamily : IsV4 p.dst = true ∨ IsV4 p.dst = false ∧ spec.ipv6 = true := by
    cases hv4 : IsV4 p.dst with
    | true => exact .inl rfl
    | false => exact .inr ⟨rfl, hfam.resolve_right (by simp [hv4])⟩
  obtain ⟨htcp, htransproxy⟩ := h.transproxy
  obtain ⟨hdns, hintercept⟩ := h.dns
  unfold interceptPort at hport
  rcases hproto with hproto | hproto
  · rw [hproto] at hport
    obtain rfl := (Option.some.inj hport).symm.trans htcp
    rcases hfamily with hv4 | ⟨hv6, hset⟩
    · exact .tcp hproto hv4 htransproxy
    · exact .tcpV6 hproto hv6 (h.ipv6 hset).1 (h.ipv6 hset).2.1
  · rw [hproto] at hport
    dsimp only at hport
    by_cases h53 : p.dport = 53
    · rw [if_pos h53] at hport
      obtain rfl := (Option.some.inj hport).symm.trans hdns
      rcases hfamily with hv4 | ⟨hv6, hset⟩
      · exact .dns hproto h53 hv4 hintercept
      · exact .dnsV6 hproto h53 hv6 (h.ipv6 hset).1 (h.ipv6 hset).2.2.1
    · rw [if_neg h53] at hport
      rcases h.udp with hzero | ⟨hudp, hclient, hattended⟩
      · rw [if_pos (show spec.tableArgs.udpPort = 0 from hzero)] at hport
        cases hport
      · have hne : spec.udpPort ≠ 0 := fun hzero => absurd (hudp.symm.trans hzero) (by decide)
        rw [if_neg (show spec.tableArgs.udpPort ≠ 0 from hne)] at hport
        obtain rfl := (Option.some.inj hport).symm.trans hudp
        rcases hfamily with hv4 | ⟨hv6, hset⟩
        · exact .udp hproto h53 hv4 hclient hattended
        · exact .udpV6 hproto h53 hv6 (h.ipv6 hset).1 hclient ((h.ipv6 hset).2.2.2 hne)

/-- The script of an intended request sends a packet out only for a reason that the profile gives,
and otherwise to a listener of its family. -/
theorem Intended.justified [Texts] (h : Intended me profile past spec)
    (hproto : p.proto = .tcp ∨ p.proto = .udp) :
    ∃ fate, flowUnder (renderTable spec.tableArgs) p = some fate ∧
      Justified me profile past p fate := by
  refine ⟨_, flowUnder_renderTable spec.tableArgs p, ?_⟩
  by_cases hexempt : Exempt spec.tableArgs p
  · rw [newFlow_exempt hexempt]
    rcases hexempt with hlo | htun | hloop | hserver | ⟨net, hnet, hin⟩
    · exact .inside (.inl hlo)
    · exact .inside (.inr (.inl htun))
    · exact .inside (.inr (.inr hloop))
    · obtain ⟨e, he, hresolved⟩ := h.server
      exact .server he (hresolved _ hserver)
    · exact .bypass (h.bypass net hnet) hin
  · rcases newFlow_caught hproto hexempt with hrejected | ⟨port, hport, hsent, hfam⟩
    · rw [hrejected]
      exact .rejected
    · rw [hsent]
      exact h.redirected hproto hport hfam

end Packets

end Intent

section Runs
variable [DecidableEq ι] {i : ι} {profile : ConnectionConfig}

/-- Among any other calls, a `connect` with a profile that the store accepts asks the helper for a
tunnel only if the profile wants one, with a request that the helper accepts. Under the script
that the helper installs for it, a new flow leaves the machine only for the session's server or a
network that the profile lets around the tunnel; otherwise it is refused, or comes to the port of
a listener of its family. The call has started this listener; one on `::1` or for datagrams may be
missing instead, if its address could not be bound. -/
theorem tunnel_follows_profile [Texts] (hvalid : validateConnection profile = .ok ())
    {st₀ st : State ι} {es : List (Event ι)} (hidle : st₀.calls i = .idle)
    (hrun : run step st₀ es = some st)
    (hreq : (st.calls i).request = some (.connect profile)) {past rest : List (Access ι)} {j : ι}
    {spec : Helper.ApplySpec} {a : Except String String}
    (htrace : trace i st₀ es = past ++ ⟨.apply j spec, a⟩ :: rest) :
    j = i ∧ wantsTun profile = true ∧ spec.validate = .ok () ∧
      spec.killSwitch = profile.killSwitch ∧
      (spec.dnsServers ≠ [] ∧ ∀ s ∈ spec.dnsServers, (parseIpAddr s).isSome = true) ∧
      ∀ p : Packet, p.proto = .tcp ∨ p.proto = .udp →
        ∃ fate, flowUnder (renderTable spec.tableArgs) p = some fate ∧
          Justified i profile past p fate := by
  have hprogram : Acts i profile (fun _ _ => True) (program i (.connect profile)) [] :=
    connect_acts hvalid
  obtain ⟨hj, h⟩ := warranted_of_obeys hprogram hidle hrun hreq past ⟨.apply j spec, a⟩ rest htrace
  exact ⟨hj, h.wanted, h.valid, h.killSwitch, h.resolvers, fun p hproto => h.justified hproto⟩

end Runs

def Access.asksTunnel : Access ι → Bool
  | ⟨.apply _ _, _⟩ => true
  | _ => false

/-- A profile whose traffic all goes through the tunnel. -/
def vpnProfile : ConnectionConfig :=
  { sshProfile with routingMode := .fullTunnel, killSwitch := true }

open Sample

theorem vpnProfile_followed : ∃ past rest spec a,
    trace .first State.initial (attemptRun vpnProfile 29 smooth) =
      past ++ ⟨.apply .first spec, a⟩ :: rest ∧
    spec.validate = .ok () ∧ spec.killSwitch = true ∧
    ∀ p : Packet, p.proto = .tcp → ∃ fate, flowUnder (renderTable spec.tableArgs) p = some fate ∧
      Justified .first vpnProfile past p fate := by
  have hend : (run step State.initial (attemptRun vpnProfile 29 smooth)).any (fun st =>
      (st.calls .first).request = some (.connect vpnProfile)) = true := by
    decide +kernel
  obtain ⟨st, hrun, hreq⟩ := (Option.any_eq_true _ _).1 hend
  have hasked : (trace .first State.initial (attemptRun vpnProfile 29 smooth)).any
      Access.asksTunnel = true := by
    decide +kernel
  obtain ⟨⟨o, a⟩, hmem, ho⟩ := List.any_eq_true.1 hasked
  obtain ⟨past, rest, htrace⟩ := List.append_of_mem hmem
  cases o with
  | apply j spec =>
    obtain ⟨rfl, -, hvalid, hkill, -, hpackets⟩ := tunnel_follows_profile
      (show Config.validateConnection vpnProfile = .ok () by decide +kernel) rfl hrun
      (of_decide_eq_true hreq) htrace
    exact ⟨past, rest, spec, a, htrace, hvalid, hkill, fun p hp => hpackets p (.inl hp)⟩
  | _ => cases ho

end EasyConnection.Tunnel
