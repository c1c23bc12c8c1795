import Mathlib.Data.List.Basic

/-! # Connection profiles

A profile is stored as one document. Secrets are not part of it: it holds references into the
vault, in five places.
-/
namespace EasyConnection.Config

abbrev Uuid : Type := BitVec 128

/-- Seconds since the epoch. -/
abbrev Time : Type := ℕ

structure SecretRef where
  id : String
  deriving DecidableEq, Repr

inductive Protocol where
  | ssh
  | socks
  | shadowsocks
  | vless
  deriving DecidableEq, Repr

inductive Transport where
  | direct
  | tls
  | webSocket
  | wss
  | httpUpgrade
  deriving DecidableEq, Repr

inductive DnsMode where
  | system
  | tunnel
  | custom
  | remote
  deriving DecidableEq, Repr

/-- The name of the mode in lower case. -/
def DnsMode.text : DnsMode → String
  | .system => "system"
  | .tunnel => "tunnel"
  | .custom => "custom"
  | .remote => "remote"

inductive RoutingMode where
  | proxyOnly
  | fullTunnel
  | splitTunnel
  deriving DecidableEq, Repr

def RoutingMode.text : RoutingMode → String
  | .proxyOnly => "proxy_only"
  | .fullTunnel => "full_tunnel"
  | .splitTunnel => "split_tunnel"

inductive DnsOverTcp where
  | auto
  | on
  | off
  deriving DecidableEq, Repr

inductive TlsFingerprintProfile where
  | default
  | chrome
  | firefox
  | safari
  | custom
  deriving DecidableEq, Repr

inductive HostKeyPolicy where
  | strict
  | ask
  | tofu
  deriving DecidableEq, Repr

inductive AuthMethod where
  | password (secret : Option SecretRef)
  | privateKey (path : Option String) (passphrase keyMaterial : Option SecretRef)
  | agent
  | none
  deriving DecidableEq, Repr

/-- The vault references of an authentication. -/
def AuthMethod.secretRefs : AuthMethod → List SecretRef
  | .password secret => secret.toList
  | .privateKey _ passphrase keyMaterial => passphrase.toList ++ keyMaterial.toList
  | .agent => []
  | .none => []

structure VlessSettings where
  uuid : String
  encryption : String
  flow : String
  network : String
  security : String
  host : Option String
  path : Option String
  realityPublicKey : Option String
  realityShortId : Option String
  grpcServiceName : Option String
  xhttpMode : Option String
  spiderX : Option String
  deriving DecidableEq, Repr

inductive ProtocolSettings where
  | ssh (keepaliveSecs connectTimeoutSecs : UInt64) (hostKeyPolicy : HostKeyPolicy)
  | socks
  | shadowsocks (method : String)
  | vless (settings : VlessSettings)
  deriving DecidableEq, Repr

structure DnsSettings where
  mode : DnsMode
  servers : List String
  dnsOverTcp : DnsOverTcp
  deriving DecidableEq, Repr

structure UdpgwSettings where
  enabled : Bool
  host : String
  port : UInt16
  transparentDns : Bool
  deriving DecidableEq, Repr

structure TlsSettings where
  sni : Option String
  alpn : List String
  verify : Bool
  fingerprint : TlsFingerprintProfile
  path : Option String
  host : Option String
  deriving DecidableEq, Repr

structure ZoneInfo where
  id : String
  name : String
  iso : Option String
  deriving DecidableEq, Repr

structure ZonesCache where
  hash : Option String
  zones : List ZoneInfo
  fetchedAt : Time
  https : Bool
  deriving DecidableEq, Repr

structure ProxyShareSettings where
  socksPort : UInt16
  httpProxyPort : UInt16
  listen : String
  requireAuth : Bool
  authSecret : Option SecretRef
  deriving DecidableEq, Repr

structure ConnectionConfig where
  id : Uuid
  name : String
  protocol : Protocol
  transport : Transport
  host : String
  port : UInt16
  username : Option String
  authentication : AuthMethod
  dns : DnsSettings
  ipv6 : Bool
  mtu : Option UInt16
  mss : Option UInt16
  routingMode : RoutingMode
  autoReconnect : Bool
  udpgw : UdpgwSettings
  tls : TlsSettings
  proxy : ProxyShareSettings
  settings : ProtocolSettings
  bypassPrivateNetworks : Bool
  killSwitch : Bool
  splitBypassCidrs : List String
  splitBypassDomains : List String
  selectedZone : Option String
  smartLinkSecret : Option SecretRef
  zonesCache : Option ZonesCache
  notes : Option String
  createdAt : Time
  updatedAt : Time
  deriving DecidableEq, Repr

def DnsSettings.default : DnsSettings := ⟨.system, [], .auto⟩

def UdpgwSettings.default : UdpgwSettings := ⟨false, "127.0.0.1", 7300, false⟩

def TlsSettings.default : TlsSettings := ⟨none, [], true, .default, none, none⟩

def ProxyShareSettings.default : ProxyShareSettings := ⟨1080, 8080, "127.0.0.1", false, none⟩

namespace ConnectionConfig

def newSsh (id : Uuid) (now : Time) (name host : String) (port : UInt16) : ConnectionConfig where
  id := id
  name := name
  protocol := .ssh
  transport := .direct
  host := host
  port := port
  username := none
  authentication := .password none
  dns := .default
  ipv6 := false
  mtu := none
  mss := none
  routingMode := .proxyOnly
  autoReconnect := true
  udpgw := .default
  tls := .default
  proxy := .default
  settings := .ssh 30 15 .strict
  bypassPrivateNetworks := true
  killSwitch := false
  splitBypassCidrs := []
  splitBypassDomains := []
  selectedZone := none
  smartLinkSecret := none
  zonesCache := none
  notes := none
  createdAt := now
  updatedAt := now

def newSmart (id : Uuid) (now : Time) (name host : String) (port : UInt16)
    (linkSecret : SecretRef) : ConnectionConfig :=
  { newSsh id now name host port with
    username := none
    authentication := .none
    smartLinkSecret := some linkSecret
    settings := .ssh 30 15 .tofu }

def newShadowsocks (id : Uuid) (now : Time) (name host : String) (port : UInt16)
    (method : String) : ConnectionConfig :=
  { newSsh id now name host port with
    protocol := .shadowsocks
    settings := .shadowsocks method }

def newVless (id : Uuid) (now : Time) (name host : String) (port : UInt16) (uuid : String) :
    ConnectionConfig :=
  { newSsh id now name host port with
    protocol := .vless
    authentication := .none
    settings := .vless ⟨uuid, "none", "", "tcp", "none", none, none, none, none, none, none, none⟩ }

end ConnectionConfig

structure ExportDocument where
  version : UInt32
  profile : ConnectionConfig
  deriving DecidableEq, Repr

def configVersion : UInt32 := 1

/-- The references of an authentication are dropped, its kind is kept. -/
def AuthMethod.typeOnly : AuthMethod → AuthMethod
  | .password _ => .password Option.none
  | .privateKey path _ _ => .privateKey path Option.none Option.none
  | .agent => .agent
  | .none => .none

namespace ConnectionConfig

def exportSafe (cfg : ConnectionConfig) : ExportDocument where
  version := configVersion
  profile := { cfg with
    authentication := cfg.authentication.typeOnly
    proxy := { cfg.proxy with authSecret := none }
    smartLinkSecret := none }

/-- The vault references of a profile. -/
def secretRefs (cfg : ConnectionConfig) : List SecretRef :=
  cfg.authentication.secretRefs ++ cfg.proxy.authSecret.toList ++ cfg.smartLinkSecret.toList

end ConnectionConfig

end EasyConnection.Config
