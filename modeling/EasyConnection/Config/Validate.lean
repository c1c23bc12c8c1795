import EasyConnection.Codec.Fallible
import EasyConnection.Codec.Str
import EasyConnection.Config.Model
import EasyConnection.Net.Parse

/-! # Validation of profiles

The checks that a profile passes before it is stored, in the order in which they are made.
-/
namespace EasyConnection.Config
open Codec Net

inductive ConfigError where
  | validation (message : String)
  | notFound (id : String)
  | db (message : String)
  | json (message : String)
  | importError (message : String)
  deriving DecidableEq, Repr

def ConfigError.text : ConfigError → String
  | .validation message => "validation error: " ++ message
  | .notFound id => "not found: " ++ id
  | .db message => "database error: " ++ message
  | .json message => "JSON error: " ++ message
  | .importError message => "import error: " ++ message

/-- The characters of the Unicode category `Cc`. -/
def isControl (c : Char) : Bool := c.toNat < 0x20 || (0x7f ≤ c.toNat && c.toNat ≤ 0x9f)

def isBlank (s : String) : Bool := s.toList.all isWhitespace

def toAsciiLowercase (s : String) : String := String.ofList (s.toList.map Char.toLower)

def Protocol.debug : Protocol → String
  | .ssh => "Ssh"
  | .socks => "Socks"
  | .shadowsocks => "Shadowsocks"
  | .vless => "Vless"

def isHexDigit (c : Char) : Bool := (digitValue 16 c).isSome

/-- How texts are read and shown by what the program is linked with. -/
class Texts where
  /-- The `uuid` crate reads the text. -/
  isUuid : String → Bool
  /-- A network, as the `ipnet` crate reads it. -/
  parseIpNet : String → Option IpNet
  /-- A text in messages, as Rust's `Debug` shows it. -/
  debug : String → String

section Checks

/-- A check that ends the validation with a message. -/
def require (ok : Bool) (message : String) : Except ConfigError Unit :=
  if ok then .ok () else .error (.validation message)

def validateListen (listen : String) : Except ConfigError Unit :=
  require (listen ∈ ["127.0.0.1", "0.0.0.0", "::1", "::", "LAN"] || (parseIpAddr listen).isSome)
    ("invalid listen address: " ++ listen)

def validateSsh (cfg : ConnectionConfig) : Except ConfigError Unit := do
  require (cfg.smartLinkSecret.isSome || cfg.username.any fun u => !isBlank u)
    "SSH username is required"
  require (cfg.smartLinkSecret.isSome || cfg.username.all fun u =>
      u.utf8ByteSize ≤ 255 && !u.toList.any isControl)
    "SSH username is too long or contains control characters"

def validateShadowsocks (method : String) : Except ConfigError Unit := do
  require (!isBlank method) "Shadowsocks method is required"
  require (toAsciiLowercase method ∈ ["aes-128-gcm", "aes-256-gcm"])
    ("unsupported Shadowsocks method `" ++ method ++
      "`. Supported: aes-128-gcm, aes-256-gcm. SS2022 is not implemented in this phase.")

def validateReality (tls : TlsSettings) (settings : VlessSettings) (network : String) :
    Except ConfigError Unit := do
  require (settings.realityPublicKey.any fun key => !isBlank key)
    "VLESS Reality requires a public key (`pbk`)"
  require (tls.sni.any fun sni => !isBlank sni) "VLESS Reality requires a server name (`sni`)"
  require (network ∈ ["tcp", "raw", "grpc", "xhttp"])
    "VLESS Reality supports tcp, grpc, or xhttp transport"
  require (settings.realityShortId.all fun shortId =>
      shortId.utf8ByteSize ≤ 16 && shortId.utf8ByteSize % 2 == 0 && shortId.toList.all isHexDigit)
    "VLESS Reality short ID must be an even-length hexadecimal string of at most 16 characters"

def validateVless [Texts] (tls : TlsSettings) (settings : VlessSettings) :
    Except ConfigError Unit := do
  require (Texts.isUuid settings.uuid) "VLESS uuid must be a valid UUID"
  require (settings.encryption == "" || eqIgnoreAsciiCase settings.encryption.toList "none".toList)
    "VLESS encryption must be `none` for Xray/sing-box compatibility"
  let flow := toAsciiLowercase settings.flow
  require (flow ∈ ["", "none", "xtls-rprx-vision", "xtls-rprx-vision-udp443"])
    ("unsupported VLESS flow `" ++ flow ++ "`")
  let network := toAsciiLowercase settings.network
  require (network ∈ ["tcp", "raw", "ws", "websocket", "grpc", "httpupgrade", "xhttp"])
    ("unsupported VLESS network `" ++ network ++ "`")
  let security := toAsciiLowercase settings.security
  require (security ∈ ["none", "", "tls", "reality"])
    ("unsupported VLESS security `" ++ security ++ "`")
  require (flow ∉ ["xtls-rprx-vision", "xtls-rprx-vision-udp443"] ||
      (network ∈ ["tcp", "raw"] && security ∈ ["tls", "reality"]))
    "VLESS Vision requires tcp with tls or reality"
  if security = "reality" then validateReality tls settings network

def validateProtocol [Texts] (cfg : ConnectionConfig) : Except ConfigError Unit :=
  match cfg.protocol, cfg.settings with
  | .ssh, .ssh _ _ _ => validateSsh cfg
  | .shadowsocks, .shadowsocks method => validateShadowsocks method
  | .vless, .vless settings => validateVless cfg.tls settings
  | .socks, .socks => .ok ()
  | p, _ => .error (.validation ("protocol/settings mismatch for " ++ p.debug))

def validateTls [Texts] (tls : TlsSettings) : Except ConfigError Unit := do
  require (tls.sni.all fun sni =>
      sni.utf8ByteSize ≤ 255 && !sni.toList.any fun c => isControl c || isWhitespace c)
    "TLS SNI is too long or contains whitespace/control characters"
  require (tls.host.all fun host =>
      host.utf8ByteSize ≤ 255 && !host.toList.any fun c => c ∈ ['\r', '\n', '\x00'])
    "transport Host header is too long or contains forbidden characters"
  require (tls.path.all fun path =>
      path.toList.head? == some '/' && path.utf8ByteSize ≤ 2048 &&
        !path.toList.any fun c => c ∈ ['\r', '\n', '\x00'])
    ("WebSocket/HTTP Upgrade path must start with `/`, be at most 2048 bytes, and contain no " ++
      "control line breaks")
  tls.alpn.forM fun alpn =>
    require (alpn != "" && alpn.utf8ByteSize ≤ 255 &&
        !alpn.toList.any fun c => isControl c || isWhitespace c)
      ("invalid TLS ALPN protocol: " ++ Texts.debug alpn)

end Checks

def validateConnection [Texts] (cfg : ConnectionConfig) : Except ConfigError Unit := do
  require (!isBlank cfg.name) "name is required"
  require (cfg.name.utf8ByteSize ≤ 128 && !cfg.name.toList.any isControl)
    "name must be at most 128 characters and contain no control characters"
  require (!isBlank cfg.host) "host is required"
  require (cfg.host.utf8ByteSize ≤ 255 && !cfg.host.toList.any (fun c => isControl c || isWhitespace c)
      && '/' ∉ cfg.host.toList)
    ("host must be at most 255 characters and contain no whitespace, control characters, or " ++
      "path separators")
  require (cfg.port != 0) "port must be 1–65535"
  require (cfg.mtu.all fun mtu => 576 ≤ mtu && mtu ≤ 9000) "MTU must be between 576 and 9000"
  require (cfg.proxy.socksPort != 0 && cfg.proxy.httpProxyPort != 0) "proxy ports must be non-zero"
  require (cfg.proxy.socksPort != cfg.proxy.httpProxyPort)
    "SOCKS and HTTP proxy ports must be different"
  validateListen cfg.proxy.listen
  validateProtocol cfg
  require (!cfg.udpgw.enabled || cfg.protocol == .ssh) "UDPGW is supported only for SSH profiles"
  validateTls cfg.tls
  cfg.dns.servers.forM fun server =>
    require (parseIpAddr server).isSome ("invalid DNS server address: " ++ server)
  cfg.splitBypassCidrs.forM fun cidr =>
    require (Texts.parseIpNet cidr).isSome ("invalid split-bypass CIDR: " ++ cidr)
  cfg.splitBypassDomains.forM fun domain =>
    require (!isBlank domain && ' ' ∉ domain.toList) ("invalid split-bypass domain: " ++ domain)

section Accepted

theorem require_eq_ok {ok : Bool} {message : String} : require ok message = .ok () ↔ ok = true := by
  cases ok with
  | true => exact ⟨fun _ => rfl, fun _ => rfl⟩
  | false => exact ⟨fun h => (nomatch h), fun h => (nomatch h)⟩

/-- What the checks of the TLS settings say about settings that pass them. -/
structure TlsAccepted (tls : TlsSettings) : Prop where
  sni : ∀ sni, tls.sni = some sni → ∀ c ∈ sni.toList, isControl c = false
  host : ∀ host, tls.host = some host → ∀ c ∈ host.toList, c ∉ ['\r', '\n', '\x00']
  path : ∀ path, tls.path = some path →
    path.toList.head? = some '/' ∧ ∀ c ∈ path.toList, c ∉ ['\r', '\n', '\x00']
  alpn : ∀ alpn ∈ tls.alpn,
    alpn ≠ "" ∧ ∀ c ∈ alpn.toList, isControl c = false ∧ isWhitespace c = false

variable {tls : TlsSettings}

theorem validateTls_accepted [Texts] (h : validateTls tls = .ok ()) : TlsAccepted tls := by
  obtain ⟨_, hsni, h⟩ := except_bind_eq_ok.1 h
  obtain ⟨_, hhost, h⟩ := except_bind_eq_ok.1 h
  obtain ⟨_, hpath, halpn⟩ := except_bind_eq_ok.1 h
  rw [require_eq_ok] at hsni hhost hpath
  rw [forM_eq_ok] at halpn
  refine ⟨fun sni hs => ?_, fun host hs => ?_, fun path hs => ?_, fun alpn ha => ?_⟩
  · rw [hs] at hsni
    simp_all
  · rw [hs] at hhost
    simp_all
  · rw [hs] at hpath
    simp_all
  · have hentry := require_eq_ok.1 (halpn alpn ha)
    simp_all

variable {cfg : ConnectionConfig}

/-- A profile that passes the checks has TLS settings that pass theirs. -/
theorem validateConnection_tls [Texts] (h : validateConnection cfg = .ok ()) :
    TlsAccepted cfg.tls := by
  unfold validateConnection at h
  simp only [except_bind_eq_ok] at h
  obtain ⟨_, -, _, -, _, -, _, -, _, -, _, -, _, -, _, -, _, -, _, -, _, -, _, htls, -⟩ := h
  exact validateTls_accepted htls

theorem validateConnection_host [Texts] (h : validateConnection cfg = .ok ()) :
    ∀ c ∈ cfg.host.toList, isControl c = false := by
  unfold validateConnection at h
  simp only [except_bind_eq_ok] at h
  obtain ⟨_, -, _, -, _, -, _, hhost, -⟩ := h
  rw [require_eq_ok] at hhost
  simp_all

theorem validateConnection_mtu [Texts] (h : validateConnection cfg = .ok ()) :
    ∀ mtu, cfg.mtu = some mtu → 576 ≤ mtu ∧ mtu ≤ 9000 := by
  unfold validateConnection at h
  simp only [except_bind_eq_ok] at h
  obtain ⟨_, -, _, -, _, -, _, -, _, -, _, hmtu, -⟩ := h
  rw [require_eq_ok] at hmtu
  intro mtu hsome
  rw [hsome] at hmtu
  simpa using hmtu

theorem validateConnection_dns [Texts] (h : validateConnection cfg = .ok ()) :
    ∀ server ∈ cfg.dns.servers, (parseIpAddr server).isSome = true := by
  unfold validateConnection at h
  simp only [except_bind_eq_ok] at h
  obtain ⟨_, -, _, -, _, -, _, -, _, -, _, -, _, -, _, -, _, -, _, -, _, -, _, -, _, hdns, -⟩ := h
  rw [forM_eq_ok] at hdns
  exact fun server hserver => require_eq_ok.1 (hdns server hserver)

def visionFlows : List String := ["xtls-rprx-vision", "xtls-rprx-vision-udp443"]

/-- What the checks of VLESS settings say about settings that pass them. -/
structure VlessAccepted (settings : VlessSettings) : Prop where
  flow : toAsciiLowercase settings.flow ∈ ["", "none"] ++ visionFlows
  network : toAsciiLowercase settings.network ∈
    ["tcp", "raw", "ws", "websocket", "grpc", "httpupgrade", "xhttp"]
  security : toAsciiLowercase settings.security ∈ ["none", "", "tls", "reality"]
  vision : toAsciiLowercase settings.flow ∈ visionFlows →
    toAsciiLowercase settings.network ∈ ["tcp", "raw"] ∧
      toAsciiLowercase settings.security ∈ ["tls", "reality"]
  reality : toAsciiLowercase settings.security = "reality" → settings.realityPublicKey.isSome ∧
    toAsciiLowercase settings.network ∈ ["tcp", "raw", "grpc", "xhttp"]

theorem validateReality_accepted {settings : VlessSettings} {network : String}
    (h : validateReality tls settings network = .ok ()) :
    settings.realityPublicKey.isSome ∧ network ∈ ["tcp", "raw", "grpc", "xhttp"] := by
  obtain ⟨_, hkey, h⟩ := except_bind_eq_ok.1 h
  obtain ⟨_, -, h⟩ := except_bind_eq_ok.1 h
  obtain ⟨_, hnetwork, -⟩ := except_bind_eq_ok.1 h
  rw [require_eq_ok] at hkey hnetwork
  obtain ⟨key, hsome, -⟩ := Option.any_eq_true _ _ |>.1 hkey
  exact ⟨Option.isSome_of_mem hsome, of_decide_eq_true hnetwork⟩

theorem validateVless_accepted [Texts] {settings : VlessSettings}
    (h : validateVless tls settings = .ok ()) : VlessAccepted settings := by
  obtain ⟨_, -, h⟩ := except_bind_eq_ok.1 h
  obtain ⟨_, -, h⟩ := except_bind_eq_ok.1 h
  obtain ⟨_, hflow, h⟩ := except_bind_eq_ok.1 h
  obtain ⟨_, hnetwork, h⟩ := except_bind_eq_ok.1 h
  obtain ⟨_, hsecurity, h⟩ := except_bind_eq_ok.1 h
  obtain ⟨_, hvision, h⟩ := except_bind_eq_ok.1 h
  rw [require_eq_ok] at hflow hnetwork hsecurity hvision
  simp only [decide_eq_true_eq, Bool.or_eq_true, Bool.and_eq_true] at hflow hnetwork hsecurity hvision
  refine ⟨hflow, hnetwork, hsecurity, fun hin => ?_, fun hreality => ?_⟩
  · exact hvision.resolve_left (not_not_intro hin)
  · rw [if_pos hreality] at h
    exact validateReality_accepted h

/-- A VLESS profile that passes the checks has VLESS settings that pass theirs. -/
theorem validateConnection_vless [Texts] (h : validateConnection cfg = .ok ())
    (hprotocol : cfg.protocol = .vless) :
    ∃ settings, cfg.settings = .vless settings ∧ VlessAccepted settings := by
  unfold validateConnection at h
  simp only [except_bind_eq_ok] at h
  obtain ⟨_, -, _, -, _, -, _, -, _, -, _, -, _, -, _, -, _, -, _, hvless, -⟩ := h
  rw [validateProtocol, hprotocol] at hvless
  cases hsettings : cfg.settings with
  | vless settings =>
    rw [hsettings] at hvless
    exact ⟨settings, rfl, validateVless_accepted hvless⟩
  | _ =>
    rw [hsettings] at hvless
    cases hvless

end Accepted

example [Texts] : validateConnection { ConnectionConfig.newSsh 1 0 "Home" "192.0.2.1" 22 with
    username := some "alice" } = .ok () := by
  rfl

end EasyConnection.Config

namespace EasyConnection.Sample

/-- The UUIDs of the examples. None of them has a network, or a text that is shown. -/
scoped instance : Config.Texts where
  isUuid s := s ∈ ["b831381d-6324-4d53-ad4f-8cda48b30811", "00000000-0000-0000-0000-000000000000"]
  parseIpNet _ := none
  debug s := s

end EasyConnection.Sample
