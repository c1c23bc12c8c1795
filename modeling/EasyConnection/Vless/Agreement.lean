import EasyConnection.Vless.Engine

/-! # What the two engines are told

Each engine reads its configuration in its own way. What they read of the outbound is compared
as a connection. A profile that has passed the checks has one of five networks and one of three
kinds of security, and both engines are told the same.
-/
namespace EasyConnection.Vless
open Codec Config

section Reading

/-- The connection that an outbound describes. A host that is left out is empty. -/
structure Connection where
  server : String
  port : UInt64
  uuid : String
  flow : Option String
  network : String
  security : String
  serverName : Option String
  insecure : Option Bool
  reality : Option (String × String)
  path : Option String
  host : Option String
  serviceName : Option String
  deriving DecidableEq

def firstOutbound (config : Json) : Option Json :=
  ((config.get "outbounds").bind Json.asArray).bind List.head?

def strAt (names : List String) (v : Json) : Option String := (v.at? names).bind Json.asStr

def hasPath (network : String) : Bool := network ∈ ["ws", "httpupgrade"]

def readXray (config : Json) : Option Connection := do
  let out ← firstOutbound config
  let method ← strAt ["streamSettings", "method"] out
  let network := match method with
    | "raw" => "tcp"
    | "websocket" => "ws"
    | other => other
  let security ← strAt ["streamSettings", "security"] out
  let transport := fun name => strAt ["streamSettings", network ++ "Settings", name] out
  return {
    server := ← strAt ["settings", "address"] out
    port := ← (out.at? ["settings", "port"]).bind Json.asU64
    uuid := ← strAt ["settings", "id"] out
    flow := strAt ["settings", "flow"] out
    network := network
    security := security
    serverName := strAt ["streamSettings", security ++ "Settings", "serverName"] out
    insecure := (out.at? ["streamSettings", "tlsSettings", "allowInsecure"]).bind Json.asBool
    reality := do
      return (← strAt ["streamSettings", "realitySettings", "password"] out,
        ← strAt ["streamSettings", "realitySettings", "shortId"] out)
    path := if hasPath network then transport "path" else none
    host := if hasPath network then some ((transport "host").getD "") else none
    serviceName := transport "serviceName" }

def readSingBox (config : Json) : Option Connection := do
  let out ← firstOutbound config
  let network := (strAt ["transport", "type"] out).getD "tcp"
  let security := if (out.get "tls").isNone then "none"
    else if (out.at? ["tls", "reality"]).isSome then "reality" else "tls"
  let host := if network = "ws" then strAt ["transport", "headers", "Host"] out
    else strAt ["transport", "host"] out
  return {
    server := ← strAt ["server"] out
    port := ← (out.get "server_port").bind Json.asU64
    uuid := ← strAt ["uuid"] out
    flow := strAt ["flow"] out
    network := network
    security := security
    serverName := strAt ["tls", "server_name"] out
    insecure := if security = "tls" then (out.at? ["tls", "insecure"]).bind Json.asBool else none
    reality := do
      return (← strAt ["tls", "reality", "public_key"] out,
        ← strAt ["tls", "reality", "short_id"] out)
    path := if hasPath network then strAt ["transport", "path"] out else none
    host := if hasPath network then some (host.getD "") else none
    serviceName := strAt ["transport", "service_name"] out }

end Reading

section Built
variable (cfg : ConnectionConfig) (v : VlessSettings)

def networks : List String := ["tcp", "ws", "grpc", "httpupgrade", "xhttp"]

def securities : List String := ["none", "tls", "reality"]

def askedFlow (flow : String) : Option String :=
  if flow ≠ "" ∧ !equalsIgnoringCase flow "none" then some flow else none

/-- The connection that a profile asks for. -/
def connection (network security : String) : Connection where
  server := cfg.host
  port := cfg.port.toUInt64
  uuid := v.uuid
  flow := askedFlow v.flow
  network := network
  security := security
  serverName := if security = "none" then none else some (serverName cfg)
  insecure := if security = "tls" then some !cfg.tls.verify else none
  reality := if security = "reality" then
    v.realityPublicKey.map fun key => (key, v.realityShortId.getD "") else none
  path := if hasPath network then some (v.path.getD "/") else none
  host := if hasPath network then some (v.host.getD "") else none
  serviceName := if network = "grpc" then some (v.grpcServiceName.getD "") else none

variable {cfg v} {network security : String}

theorem flowMember_eq (flow : String) :
    flowMember flow = ((askedFlow flow).map fun flow => ("flow", Json.string flow)).toList := by
  rw [flowMember, askedFlow]
  split <;> rfl

theorem readXray_outbound (hnetwork : network ∈ networks) (hsecurity : security ∈ securities)
    (hkey : security = "reality" → v.realityPublicKey.isSome) (socksPort : UInt16) :
    ∃ outbound, xrayOutbound cfg v network security = .ok outbound ∧
      readXray (xrayConfig outbound socksPort) = some (connection cfg v network security) := by
  obtain ⟨_, _, flow, _, _, _, _, key, _, _, _, _⟩ := v
  simp only [networks, securities, List.mem_cons, List.not_mem_nil, or_false] at hnetwork hsecurity
  simp only [xrayOutbound, connection, flowMember_eq]
  generalize askedFlow flow = flow
  rcases hsecurity with rfl | rfl | rfl
  on_goal 3 => obtain ⟨key, rfl⟩ := Option.isSome_iff_exists.1 (hkey rfl)
  all_goals
    rcases hnetwork with rfl | rfl | rfl | rfl | rfl <;> cases flow
    all_goals
      refine ⟨_, rfl, ?_⟩
      rfl

theorem utlsMember_eq (fp : String) :
    ∃ utls : Option Json, utlsMember fp = (utls.map fun utls => ("utls", utls)).toList := by
  unfold utlsMember
  split
  · exact ⟨some _, rfl⟩
  · exact ⟨none, rfl⟩

theorem readSingBox_outbound (hnetwork : network ∈ networks) (hxhttp : network ≠ "xhttp")
    (hsecurity : security ∈ securities)
    (hkey : security = "reality" → v.realityPublicKey.isSome) (socksPort : UInt16) :
    ∃ outbound, singBoxOutbound cfg v network security = .ok outbound ∧
      readSingBox (singBoxConfig outbound socksPort) =
        some (connection cfg v network security) := by
  obtain ⟨_, _, flow, _, _, host, _, key, _, _, _, _⟩ := v
  simp only [networks, securities, List.mem_cons, List.not_mem_nil, or_false, hxhttp]
    at hnetwork hsecurity
  obtain ⟨utls, hutls⟩ := utlsMember_eq (fingerprint cfg.tls.fingerprint)
  simp only [singBoxOutbound, singBoxTlsSettings, connection, flowMember_eq, hutls]
  generalize askedFlow flow = flow
  rcases hnetwork with rfl | rfl | rfl | rfl
  -- only the headers of a WebSocket depend on whether there is a host
  on_goal 2 => cases host
  all_goals
    rcases hsecurity with rfl | rfl | rfl
    on_goal 2 => cases utls
    on_goal 4 =>
      obtain ⟨key, rfl⟩ := Option.isSome_iff_exists.1 (hkey rfl)
      cases utls
    all_goals
      cases flow
      all_goals
        refine ⟨_, rfl, ?_⟩
        rfl

end Built

section Accepted
variable (cfg : ConnectionConfig) {settings : VlessSettings}

/-- The transport decides where the settings ask for `tcp`. -/
def Overridden (settings : VlessSettings) : Prop :=
  toAsciiLowercase settings.network = "tcp" ∧ overridesNetwork cfg.transport

variable {cfg} in
theorem effectiveNetwork_of_overridden (h : Overridden cfg settings) :
    effectiveNetwork cfg settings.network = "ws" ∨
      effectiveNetwork cfg settings.network = "httpupgrade" := by
  have hmem := effectiveNetwork_of_overrides (List.mem_cons_of_mem _ (List.mem_singleton.2 h.1)) h.2
  simpa only [List.mem_cons, List.not_mem_nil, or_false] using hmem

variable {cfg} in
theorem effectiveNetwork_of_not_overridden (h : VlessAccepted settings)
    (ho : ¬Overridden cfg settings) :
    effectiveNetwork cfg settings.network = normalizeNetwork settings.network := by
  refine effectiveNetwork_eq_normalizeNetwork fun ⟨htcp, ht⟩ => ho ⟨?_, ht⟩
  have hname := h.network
  rcases List.mem_cons.1 htcp with hempty | htcp
  · rw [hempty] at hname
    exact absurd hname (by decide)
  · exact List.mem_singleton.1 htcp

/-- The names of a kind of security, in lower case, and what is in effect for each. -/
theorem effectiveSecurity_cases {value name : String} (hname : toAsciiLowercase value = name)
    (h : name ∈ ["none", "", "tls", "reality"]) :
    (name = "none" ∨ name = "") ∧
        (effectiveSecurity cfg value = "none" ∨ effectiveSecurity cfg value = "tls") ∨
      (name = "tls" ∨ name = "reality") ∧ effectiveSecurity cfg value = name := by
  by_cases hnone : name ∈ ["", "none"]
  · rw [← hname] at hnone
    have hmem := effectiveSecurity_of_none cfg hnone
    simp only [List.mem_cons, List.not_mem_nil, or_false, hname] at hmem hnone
    exact .inl ⟨hnone.symm, hmem⟩
  · rw [effectiveSecurity_eq_normalizeSecurity (hname ▸ hnone), normalizeSecurity_eq, hname]
    simp only [List.mem_cons, List.not_mem_nil, or_false] at h
    rcases h with rfl | rfl | rfl | rfl <;> simp_all

theorem effectiveNetwork_mem (h : VlessAccepted settings) :
    effectiveNetwork cfg settings.network ∈ networks := by
  simp only [networks, List.mem_cons, List.not_mem_nil, or_false]
  by_cases ho : Overridden cfg settings
  · rcases effectiveNetwork_of_overridden ho with hnetwork | hnetwork <;> simp [hnetwork]
  · have hnetwork := h.network
    simp only [List.mem_cons, List.not_mem_nil, or_false] at hnetwork
    rw [effectiveNetwork_of_not_overridden h ho, normalizeNetwork_eq]
    rcases hnetwork with hn | hn | hn | hn | hn | hn | hn <;> simp [hn]

theorem effectiveSecurity_mem (h : VlessAccepted settings) :
    effectiveSecurity cfg settings.security ∈ securities := by
  simp only [securities, List.mem_cons, List.not_mem_nil, or_false]
  rcases effectiveSecurity_cases cfg rfl h.security with ⟨-, hs | hs⟩ | ⟨hname, hs⟩ <;> simp_all

theorem effectiveSecurity_eq_reality (h : VlessAccepted settings) :
    effectiveSecurity cfg settings.security = "reality" ↔
      toAsciiLowercase settings.security = "reality" := by
  rcases effectiveSecurity_cases cfg rfl h.security with ⟨hn | hn, hs | hs⟩ | ⟨-, hs⟩
  all_goals simp_all

/-- The connection of a profile, with the network and the security that are in effect. -/
def asked (settings : VlessSettings) : Connection :=
  connection cfg (VlessSettings.filled settings cfg.tls) (effectiveNetwork cfg settings.network)
    (effectiveSecurity cfg settings.security)

variable {cfg}

theorem vlessSettings_eq (hsettings : cfg.settings = .vless settings) :
    vlessSettings cfg = .ok (VlessSettings.filled settings cfg.tls) := by
  rw [vlessSettings, hsettings]

theorem key_of_reality (h : VlessAccepted settings)
    (hs : effectiveSecurity cfg settings.security = "reality") :
    (VlessSettings.filled settings cfg.tls).realityPublicKey.isSome :=
  (h.reality ((effectiveSecurity_eq_reality cfg h).1 hs)).1

theorem buildXrayConfig_reads (hsettings : cfg.settings = .vless settings)
    (h : VlessAccepted settings) (socksPort : UInt16) :
    ∃ config, buildXrayConfig cfg socksPort = .ok config ∧
      readXray config = some (asked cfg settings) := by
  obtain ⟨outbound, hout, hread⟩ := readXray_outbound (effectiveNetwork_mem cfg h)
    (effectiveSecurity_mem cfg h) (key_of_reality h) socksPort
  refine ⟨_, ?_, hread⟩
  rw [buildXrayConfig, vlessSettings_eq hsettings]
  exact except_bind_eq_ok.2 ⟨_, rfl, except_bind_eq_ok.2 ⟨_, hout, rfl⟩⟩

/-- What sing-box cannot speak. -/
def SingBoxRefuses (cfg : ConnectionConfig) (settings : VlessSettings) : Prop :=
  effectiveNetwork cfg settings.network = "xhttp" ∨
    equalsIgnoringCase settings.flow "xtls-rprx-vision-udp443"

theorem buildSingBoxConfig_refuses (hsettings : cfg.settings = .vless settings)
    (hrefuses : SingBoxRefuses cfg settings) (socksPort : UInt16) :
    ∃ e, buildSingBoxConfig cfg socksPort = .error e := by
  rw [buildSingBoxConfig, vlessSettings_eq hsettings]
  by_cases hxhttp : effectiveNetwork cfg settings.network = "xhttp"
  · exact ⟨_, if_pos hxhttp⟩
  · have hflow := hrefuses.resolve_left hxhttp
    exact ⟨_, (if_neg hxhttp).trans (if_pos hflow)⟩

theorem buildSingBoxConfig_reads (hsettings : cfg.settings = .vless settings)
    (h : VlessAccepted settings) (hrefuses : ¬SingBoxRefuses cfg settings) (socksPort : UInt16) :
    ∃ config, buildSingBoxConfig cfg socksPort = .ok config ∧
      readSingBox config = some (asked cfg settings) := by
  obtain ⟨hxhttp, hflow⟩ := not_or.1 hrefuses
  obtain ⟨outbound, hout, hread⟩ := readSingBox_outbound (effectiveNetwork_mem cfg h) hxhttp
    (effectiveSecurity_mem cfg h) (key_of_reality h) socksPort
  refine ⟨_, ?_, hread⟩
  rw [buildSingBoxConfig, vlessSettings_eq hsettings]
  refine (if_neg hxhttp).trans ((if_neg hflow).trans ?_)
  exact except_bind_eq_ok.2 ⟨_, hout, rfl⟩

theorem readSingBox_of_built (hsettings : cfg.settings = .vless settings)
    (h : VlessAccepted settings) {socksPort : UInt16} {config : Json}
    (hbuilt : buildSingBoxConfig cfg socksPort = .ok config) :
    readSingBox config = some (asked cfg settings) := by
  have hrefuses : ¬SingBoxRefuses cfg settings := by
    intro hr
    obtain ⟨e, he⟩ := buildSingBoxConfig_refuses hsettings hr socksPort
    rw [he] at hbuilt
    cases hbuilt
  obtain ⟨config', hconfig, hread⟩ := buildSingBoxConfig_reads hsettings h hrefuses socksPort
  obtain rfl := Except.ok.inj (hbuilt.symm.trans hconfig)
  exact hread

/-- Xray always gets a configuration, sing-box unless it cannot speak what is asked, and both are
told of the same connection. -/
theorem engines_get_same_connection [Texts] (hcfg : validateConnection cfg = .ok ())
    (hprotocol : cfg.protocol = .vless) (socksPort : UInt16) :
    ∃ settings xray, cfg.settings = .vless settings ∧ buildXrayConfig cfg socksPort = .ok xray ∧
      ((∃ e, buildSingBoxConfig cfg socksPort = .error e) ↔
        effectiveNetwork cfg settings.network = "xhttp" ∨
          equalsIgnoringCase settings.flow "xtls-rprx-vision-udp443") ∧
      ∀ singBox, buildSingBoxConfig cfg socksPort = .ok singBox →
        readXray xray = some (asked cfg settings) ∧
          readSingBox singBox = some (asked cfg settings) := by
  obtain ⟨settings, hsettings, h⟩ := validateConnection_vless hcfg hprotocol
  obtain ⟨xray, hxray, hread⟩ := buildXrayConfig_reads hsettings h socksPort
  refine ⟨settings, xray, hsettings, hxray, ⟨fun ⟨e, he⟩ => ?_, fun hr => ?_⟩,
    fun singBox hbuilt => ?_⟩
  · by_contra hrefuses
    obtain ⟨config, hconfig, -⟩ := buildSingBoxConfig_reads hsettings h hrefuses socksPort
    rw [hconfig] at he
    cases he
  · exact buildSingBoxConfig_refuses hsettings hr socksPort
  · exact ⟨hread, readSingBox_of_built hsettings h hbuilt⟩

def realityProfile (transport : Transport) : ConnectionConfig :=
  { ConnectionConfig.newVless 1 0 "Home" "192.0.2.1" 443 "b831381d-6324-4d53-ad4f-8cda48b30811" with
    transport := transport
    tls := { TlsSettings.default with sni := some "example.com" }
    settings := .vless ⟨"b831381d-6324-4d53-ad4f-8cda48b30811", "none", "xtls-rprx-vision", "TCP",
      "reality", none, none, some "key", some "0a1b", none, none, none⟩ }

open Sample

theorem reality_profile_engines_agree :
    ∃ settings xray singBox, (realityProfile .direct).settings = .vless settings ∧
      buildXrayConfig (realityProfile .direct) 1080 = .ok xray ∧
      buildSingBoxConfig (realityProfile .direct) 1080 = .ok singBox ∧
      readXray xray = some (asked (realityProfile .direct) settings) ∧
      readSingBox singBox = some (asked (realityProfile .direct) settings) := by
  have hcfg : validateConnection (realityProfile .direct) = .ok () := by decide +kernel
  obtain ⟨settings, xray, hsettings, hxray, -, hagree⟩ := engines_get_same_connection hcfg rfl 1080
  exact ⟨settings, xray, _, hsettings, hxray, rfl, hagree _ rfl⟩

/-- The rules for a flow and for REALITY, of a connection. -/
structure Connection.Respects (c : Connection) : Prop where
  vision : ∀ flow, c.flow = some flow → toAsciiLowercase flow ∈ visionFlows →
    c.network = "tcp" ∧ c.security ∈ ["tls", "reality"]
  reality : c.security = "reality" → c.network ∈ ["tcp", "grpc", "xhttp"]

theorem askedFlow_vision {flow : String} (h : toAsciiLowercase flow ∈ visionFlows) :
    askedFlow flow = some flow := by
  refine if_pos ⟨?_, ?_⟩
  · rintro rfl
    exact absurd h (by decide)
  · rw [Bool.not_eq_true', ← Bool.not_eq_true, equalsIgnoringCase_eq_true]
    intro hnone
    rw [hnone] at h
    exact absurd h (by decide)

theorem askedFlow_eq_some {flow flow' : String} (h : askedFlow flow = some flow') : flow = flow' := by
  unfold askedFlow at h
  split at h
  · exact Option.some.inj h
  · cases h

theorem asked_respects (h : VlessAccepted settings) :
    (asked cfg settings).Respects ↔ ¬(Overridden cfg settings ∧
      (toAsciiLowercase settings.flow ∈ visionFlows ∨
        toAsciiLowercase settings.security = "reality")) := by
  constructor
  · rintro hr ⟨ho, hvision | hreality⟩
    · have htcp := (hr.vision settings.flow (askedFlow_vision hvision) hvision).1
      rcases effectiveNetwork_of_overridden ho with hn | hn
      all_goals exact absurd (hn.symm.trans htcp) (by decide)
    · have hmem := hr.reality ((effectiveSecurity_eq_reality cfg h).2 hreality)
      rcases effectiveNetwork_of_overridden ho with hn | hn
      all_goals
        rw [show (asked cfg settings).network = _ from hn] at hmem
        exact absurd hmem (by decide)
  · intro hc
    refine ⟨fun flow hflow hvision => ?_, fun hreality => ?_⟩
    · obtain rfl := askedFlow_eq_some hflow
      obtain ⟨hnetwork, hsecurity⟩ := h.vision hvision
      have hn := effectiveNetwork_of_not_overridden h fun ho => hc ⟨ho, .inl hvision⟩
      simp only [List.mem_cons, List.not_mem_nil, or_false] at hnetwork hsecurity
      refine ⟨hn.trans ?_, ?_⟩
      · rw [normalizeNetwork_eq]
        rcases hnetwork with hx | hx <;> simp [hx]
      · have hs := effectiveSecurity_cases cfg rfl h.security
        change effectiveSecurity cfg settings.security ∈ _
        rcases hsecurity with hx | hx <;> simp_all
    · have hlower := (effectiveSecurity_eq_reality cfg h).1 hreality
      have hn := effectiveNetwork_of_not_overridden h fun ho => hc ⟨ho, .inr hlower⟩
      have hnetwork := (h.reality hlower).2
      simp only [List.mem_cons, List.not_mem_nil, or_false] at hnetwork
      rw [show (asked cfg settings).network = _ from hn, normalizeNetwork_eq]
      rcases hnetwork with hx | hx | hx | hx <;> simp [hx]

/-- Both configurations keep the rules exactly when no transport takes the place of `tcp` under a
flow or REALITY. -/
theorem built_configs_respect_rules_iff [Texts] (hcfg : validateConnection cfg = .ok ())
    (hprotocol : cfg.protocol = .vless) (socksPort : UInt16) :
    ∃ settings, cfg.settings = .vless settings ∧
      (((∃ xray c, buildXrayConfig cfg socksPort = .ok xray ∧ readXray xray = some c ∧ c.Respects) ∧
          ∀ singBox, buildSingBoxConfig cfg socksPort = .ok singBox →
            ∃ c, readSingBox singBox = some c ∧ c.Respects) ↔
        ¬(toAsciiLowercase settings.network = "tcp" ∧
          cfg.transport ∈ [.webSocket, .wss, .httpUpgrade] ∧
          (toAsciiLowercase settings.flow ∈ ["xtls-rprx-vision", "xtls-rprx-vision-udp443"] ∨
            toAsciiLowercase settings.security = "reality"))) := by
  obtain ⟨settings, hsettings, h⟩ := validateConnection_vless hcfg hprotocol
  refine ⟨settings, hsettings, ?_⟩
  have hrules : (asked cfg settings).Respects ↔ _ := asked_respects h
  rw [Overridden, overridesNetwork, decide_eq_true_eq, and_assoc] at hrules
  rw [← visionFlows, ← hrules]
  obtain ⟨xray, hxray, hread⟩ := buildXrayConfig_reads hsettings h socksPort
  constructor
  · rintro ⟨⟨xray', c, hxray', hread', hc⟩, -⟩
    obtain rfl := Except.ok.inj (hxray.symm.trans hxray')
    obtain rfl := Option.some.inj (hread.symm.trans hread')
    exact hc
  · intro hc
    exact ⟨⟨xray, _, hxray, hread, hc⟩,
      fun singBox hbuilt => ⟨_, readSingBox_of_built hsettings h hbuilt, hc⟩⟩

theorem reality_profile_respects_rules :
    (∃ xray c, buildXrayConfig (realityProfile .direct) 1080 = .ok xray ∧
      readXray xray = some c ∧ c.Respects) ∧
    ∀ singBox, buildSingBoxConfig (realityProfile .direct) 1080 = .ok singBox →
      ∃ c, readSingBox singBox = some c ∧ c.Respects := by
  have hcfg : validateConnection (realityProfile .direct) = .ok () := by decide +kernel
  obtain ⟨settings, -, hiff⟩ := built_configs_respect_rules_iff hcfg rfl 1080
  exact hiff.2 fun h => absurd h.2.1 (by decide)

theorem vision_and_reality_over_websocket :
    validateConnection (realityProfile .wss) = .ok () ∧ (realityProfile .wss).protocol = .vless ∧
      ∃ xray singBox c, buildXrayConfig (realityProfile .wss) 1080 = .ok xray ∧
        buildSingBoxConfig (realityProfile .wss) 1080 = .ok singBox ∧
        readXray xray = some c ∧ readSingBox singBox = some c ∧
        c.flow = some "xtls-rprx-vision" ∧ c.security = "reality" ∧ c.network = "ws" := by
  exact ⟨by decide +kernel, rfl, _, _, _, rfl, rfl, rfl, rfl, rfl, rfl, rfl⟩

end Accepted

end EasyConnection.Vless
