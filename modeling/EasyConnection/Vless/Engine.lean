import EasyConnection.Codec.Json
import EasyConnection.Config.Validate

/-! # The configurations of the VLESS engines

VLESS is spoken by Xray or by sing-box, each with a configuration of its own that is built from
the profile. The network and the security of a connection are in the settings of the protocol,
but the transport of the profile has a say where these are at their defaults.
-/
namespace EasyConnection.Vless
open Codec Config

inductive VlessError where
  | config (message : String)
  deriving DecidableEq

def equalsIgnoringCase (s t : String) : Bool := eqIgnoreAsciiCase s.toList t.toList

theorem equalsIgnoringCase_eq_true {s t : String} :
    equalsIgnoringCase s t = true ↔ toAsciiLowercase s = toAsciiLowercase t := by
  simp [equalsIgnoringCase, eqIgnoreAsciiCase, toAsciiLowercase, String.ofList_inj]

theorem toAsciiLowercase_eq_empty {s : String} : toAsciiLowercase s = "" ↔ s = "" := by
  simp [toAsciiLowercase, String.ofList_eq_empty_iff]

/-- The settings, with path and host from the profile where they have none. -/
def VlessSettings.filled (settings : VlessSettings) (tls : TlsSettings) : VlessSettings :=
  { settings with host := settings.host.or tls.host, path := settings.path.or tls.path }

def vlessSettings (cfg : ConnectionConfig) : Except VlessError VlessSettings :=
  match cfg.settings with
  | .vless settings => .ok (VlessSettings.filled settings cfg.tls)
  | _ => .error (.config "not a VLESS profile")

section Effective

def normalizeNetwork (value : String) : String :=
  if value = "" || equalsIgnoringCase value "raw" || equalsIgnoringCase value "none" ||
      equalsIgnoringCase value "tcp" then "tcp"
  else if equalsIgnoringCase value "websocket" || equalsIgnoringCase value "ws" then "ws"
  else if equalsIgnoringCase value "http_upgrade" || equalsIgnoringCase value "httpupgrade" then
    "httpupgrade"
  else if equalsIgnoringCase value "grpc" then "grpc"
  else if equalsIgnoringCase value "xhttp" then "xhttp"
  else value

def normalizeSecurity (value : String) : String :=
  if value = "" || equalsIgnoringCase value "none" then "none"
  else if equalsIgnoringCase value "tls" then "tls"
  else if equalsIgnoringCase value "reality" then "reality"
  else value

def effectiveNetwork (cfg : ConnectionConfig) (configured : String) : String :=
  if configured = "" || equalsIgnoringCase configured "tcp" then
    match cfg.transport with
    | .webSocket | .wss => "ws"
    | .httpUpgrade => "httpupgrade"
    | _ => normalizeNetwork configured
  else normalizeNetwork configured

def effectiveSecurity (cfg : ConnectionConfig) (configured : String) : String :=
  if configured = "" || equalsIgnoringCase configured "none" then
    match cfg.transport with
    | .tls | .wss => "tls"
    | .httpUpgrade => if cfg.tls.sni.isSome || !cfg.tls.alpn.isEmpty then "tls" else "none"
    | _ => "none"
  else normalizeSecurity configured

theorem normalizeNetwork_eq (value : String) :
    normalizeNetwork value =
      if toAsciiLowercase value ∈ ["", "raw", "none", "tcp"] then "tcp"
      else if toAsciiLowercase value ∈ ["websocket", "ws"] then "ws"
      else if toAsciiLowercase value ∈ ["http_upgrade", "httpupgrade"] then "httpupgrade"
      else if toAsciiLowercase value = "grpc" then "grpc"
      else if toAsciiLowercase value = "xhttp" then "xhttp"
      else value := by
  simp only [normalizeNetwork, Bool.or_eq_true, decide_eq_true_eq, equalsIgnoringCase_eq_true,
    toAsciiLowercase_eq_empty, List.mem_cons, List.not_mem_nil, or_false, or_assoc]
  rfl

theorem normalizeSecurity_eq (value : String) :
    normalizeSecurity value =
      if toAsciiLowercase value ∈ ["", "none"] then "none"
      else if toAsciiLowercase value = "tls" then "tls"
      else if toAsciiLowercase value = "reality" then "reality"
      else value := by
  simp only [normalizeSecurity, Bool.or_eq_true, decide_eq_true_eq, equalsIgnoringCase_eq_true,
    toAsciiLowercase_eq_empty, List.mem_cons, List.not_mem_nil, or_false]
  rfl

/-- The transports that stand for a network of their own. -/
def overridesNetwork (transport : Transport) : Bool :=
  transport ∈ [.webSocket, .wss, .httpUpgrade]

theorem asks_tcp_iff {configured : String} :
    (configured = "" || equalsIgnoringCase configured "tcp") = true ↔
      toAsciiLowercase configured ∈ ["", "tcp"] := by
  simp only [Bool.or_eq_true, decide_eq_true_eq, equalsIgnoringCase_eq_true, List.mem_cons,
    List.not_mem_nil, or_false, toAsciiLowercase_eq_empty]
  rfl

theorem asks_none_iff {configured : String} :
    (configured = "" || equalsIgnoringCase configured "none") = true ↔
      toAsciiLowercase configured ∈ ["", "none"] := by
  simp only [Bool.or_eq_true, decide_eq_true_eq, equalsIgnoringCase_eq_true, List.mem_cons,
    List.not_mem_nil, or_false, toAsciiLowercase_eq_empty]
  rfl

variable {cfg : ConnectionConfig} {configured : String}

theorem effectiveNetwork_of_overrides (htcp : toAsciiLowercase configured ∈ ["", "tcp"])
    (hoverrides : overridesNetwork cfg.transport) :
    effectiveNetwork cfg configured ∈ ["ws", "httpupgrade"] := by
  rw [effectiveNetwork, if_pos (asks_tcp_iff.2 htcp)]
  split
  · decide
  · decide
  · decide
  · simp_all [overridesNetwork]

theorem effectiveNetwork_eq_normalizeNetwork
    (h : ¬(toAsciiLowercase configured ∈ ["", "tcp"] ∧ overridesNetwork cfg.transport)) :
    effectiveNetwork cfg configured = normalizeNetwork configured := by
  unfold effectiveNetwork
  split
  · rename_i htcp
    have hoverrides : ¬overridesNetwork cfg.transport := fun ho => h ⟨asks_tcp_iff.1 htcp, ho⟩
    split <;> simp_all [overridesNetwork]
  · rfl

theorem effectiveSecurity_eq_normalizeSecurity
    (h : toAsciiLowercase configured ∉ ["", "none"]) :
    effectiveSecurity cfg configured = normalizeSecurity configured := by
  rw [effectiveSecurity, if_neg (asks_none_iff.not.2 h)]

variable (cfg) in
theorem effectiveSecurity_of_none (h : toAsciiLowercase configured ∈ ["", "none"]) :
    effectiveSecurity cfg configured ∈ ["none", "tls"] := by
  rw [effectiveSecurity, if_pos (asks_none_iff.2 h)]
  cases cfg.transport <;> dsimp only <;> first | decide | split <;> decide

end Effective

section Builders
variable (cfg : ConnectionConfig) (v : VlessSettings)

def fingerprint : TlsFingerprintProfile → String
  | .chrome => "chrome"
  | .firefox => "firefox"
  | .safari => "safari"
  | .default => "chrome"
  | .custom => ""

def serverName : String := cfg.tls.sni.getD cfg.host

def alpnValue : Json := .array (cfg.tls.alpn.map .string)

def portValue (port : UInt16) : Json := .unsigned port.toUInt64

def flowMember (flow : String) : List (String × Json) :=
  if flow ≠ "" ∧ !equalsIgnoringCase flow "none" then [("flow", .string flow)] else []

def realityKey : Except VlessError String :=
  okOr (.config "Reality public key is missing") v.realityPublicKey

def xrayNetwork (network : String) : String :=
  match network with
  | "tcp" => "raw"
  | "ws" => "websocket"
  | other => other

def xrayTransport (network : String) : List (String × Json) :=
  let path := Json.string (v.path.getD "/")
  let host := Json.string (v.host.getD "")
  match network with
  | "ws" => [("wsSettings", .object [("path", path), ("host", host)])]
  | "grpc" => [("grpcSettings", .object [("serviceName", .string (v.grpcServiceName.getD ""))])]
  | "httpupgrade" => [("httpupgradeSettings", .object [("path", path), ("host", host)])]
  | "xhttp" =>
    [("xhttpSettings", .object [("path", path), ("host", host),
      ("mode", .string (v.xhttpMode.getD ""))])]
  | _ => []

def xrayTlsSettings : Json :=
  .object [("serverName", .string (serverName cfg)), ("allowInsecure", .bool !cfg.tls.verify),
    ("alpn", alpnValue cfg), ("fingerprint", .string (fingerprint cfg.tls.fingerprint))]

def xrayRealitySettings : Except VlessError Json := do
  let key ← realityKey v
  return .object [("serverName", .string (serverName cfg)),
    ("fingerprint", .string (fingerprint cfg.tls.fingerprint)), ("password", .string key),
    ("shortId", .string (v.realityShortId.getD "")), ("spiderX", .string (v.spiderX.getD "/"))]

def xraySecurity (security : String) : Except VlessError (List (String × Json)) :=
  if security = "tls" then .ok [("tlsSettings", xrayTlsSettings cfg)]
  else if security = "reality" then do return [("realitySettings", ← xrayRealitySettings cfg v)]
  else .ok []

def xrayOutbound (network security : String) : Except VlessError Json := do
  let settings := [("address", Json.string cfg.host), ("port", portValue cfg.port),
    ("id", .string v.uuid),
    ("encryption", .string (if v.encryption = "" then "none" else v.encryption))] ++
    flowMember v.flow
  let stream := [("method", Json.string (xrayNetwork network)), ("security", .string security)] ++
    xrayTransport v network ++ (← xraySecurity cfg v security)
  return .object [("tag", .string "vless-out"), ("protocol", .string "vless"),
    ("settings", .object settings), ("streamSettings", .object stream)]

def xrayConfig (outbound : Json) (socksPort : UInt16) : Json :=
  .object [("log", .object [("loglevel", .string "warning")]),
    ("inbounds", .array [.object [("listen", .string "127.0.0.1"), ("port", portValue socksPort),
      ("protocol", .string "socks"),
      ("settings", .object [("auth", .string "noauth"), ("udp", .bool false)])]]),
    ("outbounds", .array [outbound])]

def buildXrayConfig (socksPort : UInt16) : Except VlessError Json := do
  let v ← vlessSettings cfg
  let outbound ← xrayOutbound cfg v (effectiveNetwork cfg v.network)
    (effectiveSecurity cfg v.security)
  return xrayConfig outbound socksPort

def utlsMember (fp : String) : List (String × Json) :=
  if fp ≠ "" then [("utls", .object [("enabled", .bool true), ("fingerprint", .string fp)])] else []

def singBoxTlsSettings (security : String) : Except VlessError Json := do
  let reality ← if security = "reality" then do
      let key ← realityKey v
      pure [("reality", Json.object [("enabled", .bool true), ("public_key", .string key),
        ("short_id", .string (v.realityShortId.getD ""))])]
    else pure []
  return .object ([("enabled", .bool true), ("server_name", .string (serverName cfg)),
    ("insecure", .bool !cfg.tls.verify), ("alpn", alpnValue cfg)] ++
    utlsMember (fingerprint cfg.tls.fingerprint) ++ reality)

def singBoxTransport (network : String) : Except VlessError Json :=
  let path := Json.string (v.path.getD "/")
  match network with
  | "ws" => .ok (.object ([("type", .string "ws"), ("path", path)] ++
      match v.host with
      | some host => [("headers", .object [("Host", .string host)])]
      | none => []))
  | "grpc" => .ok (.object [("type", .string "grpc"),
      ("service_name", .string (v.grpcServiceName.getD ""))])
  | "httpupgrade" => .ok (.object [("type", .string "httpupgrade"), ("path", path),
      ("host", .string (v.host.getD ""))])
  | other => .error (.config ("sing-box transport `" ++ other ++ "` is not supported"))

def singBoxOutbound (network security : String) : Except VlessError Json := do
  let tls ← if security ≠ "none" then do pure [("tls", ← singBoxTlsSettings cfg v security)]
    else pure []
  let transport ← if network ≠ "tcp" then do pure [("transport", ← singBoxTransport v network)]
    else pure []
  return .object ([("type", .string "vless"), ("tag", .string "vless-out"),
    ("server", .string cfg.host), ("server_port", portValue cfg.port), ("uuid", .string v.uuid),
    ("network", .string "tcp")] ++ flowMember v.flow ++ tls ++ transport)

def singBoxConfig (outbound : Json) (socksPort : UInt16) : Json :=
  .object [("log", .object [("level", .string "warn")]),
    ("inbounds", .array [.object [("type", .string "socks"), ("tag", .string "socks-in"),
      ("listen", .string "127.0.0.1"), ("listen_port", portValue socksPort)]]),
    ("outbounds", .array [outbound]), ("route", .object [("final", .string "vless-out")])]

def buildSingBoxConfig (socksPort : UInt16) : Except VlessError Json := do
  let v ← vlessSettings cfg
  let network := effectiveNetwork cfg v.network
  let security := effectiveSecurity cfg v.security
  if network = "xhttp" then
    throw (.config "sing-box does not support the XHTTP V2Ray transport; select Xray")
  if equalsIgnoringCase v.flow "xtls-rprx-vision-udp443" then
    throw (.config "sing-box does not support xtls-rprx-vision-udp443; select Xray")
  let outbound ← singBoxOutbound cfg v network security
  return singBoxConfig outbound socksPort

end Builders

end EasyConnection.Vless
