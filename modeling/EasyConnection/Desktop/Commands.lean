import EasyConnection.Core.Controller

/-! # The commands of the desktop application

The window calls commands by name, with texts for everything that is not a number or a flag. A
profile is shown to it as a flat record, and comes back as the arguments of an update, most of
which may be missing.
-/
namespace EasyConnection.Desktop
open Async Codec Config EasyConnection.Core

section Dto

structure ZoneDto where
  id : String
  name : String
  iso : Option String
  deriving DecidableEq

structure ProxyDto where
  socksPort : UInt16
  httpProxyPort : UInt16
  listen : String
  deriving DecidableEq

structure ProfileDto where
  id : String
  name : String
  protocol : String
  transport : String
  host : String
  port : UInt16
  username : Option String
  ipv6 : Bool
  routingMode : String
  killSwitch : Bool
  bypassPrivateNetworks : Bool
  tofu : Bool
  dnsMode : String
  dnsServers : List String
  udpgwEnabled : Bool
  udpgwHost : String
  udpgwPort : UInt16
  udpgwTransparentDns : Bool
  tlsSni : Option String
  tlsAlpn : List String
  tlsVerify : Bool
  tlsFingerprint : String
  tlsPath : Option String
  tlsHost : Option String
  ssMethod : Option String
  vlessUuid : Option String
  vlessEncryption : Option String
  vlessFlow : Option String
  splitBypassCidrs : List String
  splitBypassDomains : List String
  selectedZone : Option String
  isSmart : Bool
  zones : List ZoneDto
  proxy : ProxyDto
  deriving DecidableEq

def debugTransport : Transport → String
  | .direct => "Direct"
  | .tls => "Tls"
  | .webSocket => "WebSocket"
  | .wss => "Wss"
  | .httpUpgrade => "HttpUpgrade"

def debugFingerprint : TlsFingerprintProfile → String
  | .default => "Default"
  | .chrome => "Chrome"
  | .firefox => "Firefox"
  | .safari => "Safari"
  | .custom => "Custom"

def isTofu : ProtocolSettings → Bool
  | .ssh _ _ .tofu => true
  | _ => false

def ssMethod : ProtocolSettings → Option String
  | .shadowsocks method => some method
  | _ => none

def vlessSettings : ProtocolSettings → Option VlessSettings
  | .vless settings => some settings
  | _ => none

def toDto (cfg : ConnectionConfig) : ProfileDto where
  id := uuidText cfg.id
  name := cfg.name
  protocol := toAsciiLowercase cfg.protocol.debug
  transport := toAsciiLowercase (debugTransport cfg.transport)
  host := cfg.host
  port := cfg.port
  username := cfg.username
  ipv6 := cfg.ipv6
  routingMode := cfg.routingMode.text
  killSwitch := cfg.killSwitch
  bypassPrivateNetworks := cfg.bypassPrivateNetworks
  tofu := isTofu cfg.settings
  dnsMode := cfg.dns.mode.text
  dnsServers := cfg.dns.servers
  udpgwEnabled := cfg.udpgw.enabled
  udpgwHost := cfg.udpgw.host
  udpgwPort := cfg.udpgw.port
  udpgwTransparentDns := cfg.udpgw.transparentDns
  tlsSni := cfg.tls.sni
  tlsAlpn := cfg.tls.alpn
  tlsVerify := cfg.tls.verify
  tlsFingerprint := toAsciiLowercase (debugFingerprint cfg.tls.fingerprint)
  tlsPath := cfg.tls.path
  tlsHost := cfg.tls.host
  ssMethod := ssMethod cfg.settings
  vlessUuid := (vlessSettings cfg.settings).map VlessSettings.uuid
  vlessEncryption := (vlessSettings cfg.settings).map VlessSettings.encryption
  vlessFlow := (vlessSettings cfg.settings).map VlessSettings.flow
  splitBypassCidrs := cfg.splitBypassCidrs
  splitBypassDomains := cfg.splitBypassDomains
  selectedZone := cfg.selectedZone
  isSmart := cfg.smartLinkSecret.isSome
  zones := cfg.zonesCache.elim [] fun cache =>
    cache.zones.map fun zone => ⟨zone.id, zone.name, zone.iso⟩
  proxy := ⟨cfg.proxy.socksPort, cfg.proxy.httpProxyPort, cfg.proxy.listen⟩

end Dto

section Arguments

structure CommonArgs where
  socksPort : Option UInt16
  httpPort : Option UInt16
  routingMode : Option String
  killSwitch : Option Bool
  bypassPrivateNetworks : Option Bool
  ipv6 : Option Bool
  dnsMode : Option String
  dnsServers : Option String
  deriving DecidableEq

structure ShareArgs where
  listen : Option String
  splitBypassCidrs : Option String
  splitBypassDomains : Option String
  deriving DecidableEq

structure TlsArgs where
  transport : Option String
  sni : Option String
  alpn : Option String
  verify : Option Bool
  fingerprint : Option String
  path : Option String
  host : Option String
  deriving DecidableEq

structure UdpgwArgs where
  enabled : Option Bool
  host : Option String
  port : Option UInt16
  transparentDns : Option Bool
  deriving DecidableEq

/-- The arguments of an update. -/
structure UpdateProfile where
  id : String
  name : String
  host : String
  port : UInt16
  username : Option String
  password : Option String
  tofu : Option Bool
  common : CommonArgs
  udpgw : UdpgwArgs
  tls : TlsArgs
  method : Option String
  uuid : Option String
  encryption : Option String
  flow : Option String
  share : ShareArgs
  deriving DecidableEq

/-- The arguments of a new SSH profile. -/
structure AddSshProfile where
  name : String
  host : String
  port : UInt16
  username : String
  password : String
  tofu : Option Bool
  common : CommonArgs
  udpgw : UdpgwArgs
  tls : TlsArgs
  share : ShareArgs
  deriving DecidableEq

/-- The arguments of a new Shadowsocks profile. -/
structure AddSsProfile where
  name : String
  host : String
  port : UInt16
  method : String
  password : String
  common : CommonArgs
  tls : TlsArgs
  share : ShareArgs
  deriving DecidableEq

def parseTransport (s : String) : Except String Transport :=
  match toAsciiLowercase s with
  | "direct" => .ok .direct
  | "tls" => .ok .tls
  | "websocket" | "ws" => .ok .webSocket
  | "wss" => .ok .wss
  | "http_upgrade" | "http-upgrade" | "upgrade" => .ok .httpUpgrade
  | other => .error ("Unknown transport `" ++ other ++
      "`. Use direct, tls, websocket, wss, or http_upgrade.")

def parseFingerprint (s : String) : Except String TlsFingerprintProfile :=
  match toAsciiLowercase s with
  | "default" => .ok .default
  | "chrome" => .ok .chrome
  | "firefox" => .ok .firefox
  | "safari" => .ok .safari
  | "custom" => .ok .custom
  | other => .error ("Unknown fingerprint `" ++ other ++
      "`. Use default, chrome, firefox, safari, or custom.")

def parseDnsMode (mode : String) : Except String DnsMode :=
  match mode with
  | "system" => .ok .system
  | "tunnel" => .ok .tunnel
  | "custom" => .ok .custom
  | "remote" => .ok .remote
  | other => .error ("Unknown DNS mode `" ++ other ++ "`. Use system, tunnel, or custom.")

/-- The items of a list that is written with any of the separators. -/
def listItems (seps : List Char) (raw : String) : List String :=
  (parts seps raw.toList).map String.ofList

def parseDnsServers (raw : String) : List String := listItems [',', ' ', '\n'] raw

/-- A text that may be left blank. -/
def unlessBlank (s : String) : Option String := if isBlank s then none else some s

def applyTransportTls (cfg : ConnectionConfig) (args : TlsArgs) :
    Except String ConnectionConfig := do
  let transport ← args.transport.elim (.ok cfg.transport) parseTransport
  let fingerprint ← args.fingerprint.elim (.ok cfg.tls.fingerprint) parseFingerprint
  return { cfg with
    transport
    tls := {
      sni := (args.sni.map unlessBlank).getD cfg.tls.sni
      alpn := (args.alpn.map (listItems [',', ' '])).getD cfg.tls.alpn
      verify := args.verify.getD cfg.tls.verify
      fingerprint
      path := (args.path.map unlessBlank).getD cfg.tls.path
      host := (args.host.map unlessBlank).getD cfg.tls.host } }

/-- The routing mode of the window is not used: the dashboard has its own. -/
def applyCommon (cfg : ConnectionConfig) (args : CommonArgs) : Except String ConnectionConfig := do
  let mode ← args.dnsMode.elim (.ok cfg.dns.mode) parseDnsMode
  return { cfg with
    proxy := { cfg.proxy with
      socksPort := args.socksPort.getD cfg.proxy.socksPort
      httpProxyPort := args.httpPort.getD cfg.proxy.httpProxyPort }
    killSwitch := args.killSwitch.getD cfg.killSwitch
    bypassPrivateNetworks := args.bypassPrivateNetworks.getD cfg.bypassPrivateNetworks
    ipv6 := args.ipv6.getD cfg.ipv6
    routingMode := .proxyOnly
    dns := { cfg.dns with
      mode
      servers := (args.dnsServers.map parseDnsServers).getD cfg.dns.servers } }

/-- The address to listen on, unless the text is blank. -/
def listenAddress (raw : String) : Option String :=
  if isBlank raw then none
  else some (if eqIgnoreAsciiCase (trim raw.toList) "lan".toList then "0.0.0.0" else trimmed raw)

def applyShareAndSplit (cfg : ConnectionConfig) (args : ShareArgs) : ConnectionConfig :=
  { cfg with
    proxy := { cfg.proxy with listen := (args.listen.bind listenAddress).getD cfg.proxy.listen }
    splitBypassCidrs := (args.splitBypassCidrs.map parseDnsServers).getD cfg.splitBypassCidrs
    splitBypassDomains :=
      (args.splitBypassDomains.map parseDnsServers).getD cfg.splitBypassDomains }

def applyUdpgw (cfg : ConnectionConfig) (args : UdpgwArgs) : ConnectionConfig :=
  { cfg with
    udpgw := {
      enabled := args.enabled.getD cfg.udpgw.enabled
      host := (args.host.filter (· ≠ "")).getD cfg.udpgw.host
      port := (args.port.filter (· ≠ 0)).getD cfg.udpgw.port
      transparentDns := args.transparentDns.getD cfg.udpgw.transparentDns } }

/-- The settings of the protocol. Those of VLESS follow the transport's host and path. -/
def applySettings (args : UpdateProfile) (tls : TlsSettings) : ProtocolSettings → ProtocolSettings
  | .ssh keepaliveSecs connectTimeoutSecs hostKeyPolicy =>
    .ssh keepaliveSecs connectTimeoutSecs
      ((args.tofu.map fun tofu => if tofu then .tofu else .strict).getD hostKeyPolicy)
  | .shadowsocks method => .shadowsocks (args.method.getD method)
  | .vless settings => .vless { settings with
      uuid := args.uuid.getD settings.uuid
      encryption := args.encryption.getD settings.encryption
      flow := args.flow.getD settings.flow
      host := tls.host
      path := tls.path }
  | .socks => .socks

/-- Another server has other zones. -/
def moveTo (cfg : ConnectionConfig) (host : String) (port : UInt16) : ConnectionConfig :=
  if cfg.host ≠ host ∨ cfg.port ≠ port then
    { cfg with zonesCache := none, selectedZone := none, host, port }
  else { cfg with host, port }

/-- The profile with the arguments of an update applied to it. -/
def edited (cfg : ConnectionConfig) (args : UpdateProfile) : Except String ConnectionConfig := do
  let cfg := moveTo cfg args.host args.port
  let cfg := { cfg with name := args.name, username := args.username.or cfg.username }
  let cfg ← applyCommon cfg args.common
  let cfg := applyShareAndSplit cfg args.share
  let cfg ← applyTransportTls cfg args.tls
  let cfg := applyUdpgw cfg args.udpgw
  return { cfg with settings := applySettings args cfg.tls cfg.settings }

/-- A new SSH profile, without its password. -/
def AddSshProfile.build (args : AddSshProfile) (id : Uuid) (created : Time) :
    Except String ConnectionConfig := do
  let cfg := { ConnectionConfig.newSsh id created args.name args.host args.port with
    username := some args.username }
  let cfg ← applyCommon cfg args.common
  let cfg := applyShareAndSplit cfg args.share
  let cfg ← applyTransportTls cfg args.tls
  return applyUdpgw cfg args.udpgw

/-- A new Shadowsocks profile, without its password. -/
def AddSsProfile.build (args : AddSsProfile) (id : Uuid) (created : Time) :
    Except String ConnectionConfig := do
  let cfg := ConnectionConfig.newShadowsocks id created args.name args.host args.port args.method
  let cfg ← applyCommon cfg args.common
  let cfg := applyShareAndSplit cfg args.share
  applyTransportTls cfg args.tls

def withPolicy (tofu : Bool) : ProtocolSettings → ProtocolSettings
  | .ssh keepaliveSecs connectTimeoutSecs _ =>
    .ssh keepaliveSecs connectTimeoutSecs (if tofu then .tofu else .strict)
  | settings => settings

end Arguments

section Commands

/-- What a command fails with: a message of its own, or the text of an error of the controller. -/
inductive CommandError where
  | message (text : String)
  | core (e : CoreError)
  deriving DecidableEq

abbrev CommandM := ExceptT CommandError (Prog Op Ans)

def ofCore {α : Type} (x : CoreM α) : CommandM α :=
  ExceptT.mk do return (← x.run).mapError .core

def ofExcept {α : Type} (r : Except String α) : CommandM α :=
  ExceptT.mk (pure (r.mapError .message))

/-- The functions of the libraries. -/
structure Library where
  core : Core.Library
  parseUuid : String → Except String Uuid

variable (L : Library)

def getProfile (id : String) : CommandM ProfileDto := do
  let id ← ofExcept (L.parseUuid id)
  return toDto (← ofCore (Core.getProfile id))

def addSshProfile [Texts] (args : AddSshProfile) : CommandM ProfileDto := do
  let id ← ofCore newId
  let created ← ofCore now
  let cfg ← ofExcept (args.build id created)
  let secret ← ofCore (putSecret args.password)
  return toDto (← ofCore (saveProfile { cfg with
    authentication := .password (some secret)
    settings := withPolicy (args.tofu.getD true) cfg.settings }))

def addSsProfile [Texts] (args : AddSsProfile) : CommandM ProfileDto := do
  let id ← ofCore newId
  let created ← ofCore now
  let cfg ← ofExcept (args.build id created)
  let secret ← ofCore (putSecret args.password)
  return toDto (← ofCore (saveProfile { cfg with authentication := .password (some secret) }))

/-- The password that an update has to store. -/
def UpdateProfile.newPassword (args : UpdateProfile) : Option String :=
  args.password.filter (· ≠ "")

def updateSshProfile [Texts] (args : UpdateProfile) : CommandM ProfileDto := do
  let id ← ofExcept (L.parseUuid args.id)
  let cfg ← ofCore (Core.getProfile id)
  let cfg ← ofExcept (edited cfg args)
  let saved ← ofCore (saveProfile cfg)
  match args.newPassword with
  | some password => return toDto (← ofCore (setPasswordSecret id password))
  | none => return toDto saved

def fetchZones (id : String) : CommandM ProfileDto := do
  let id ← ofExcept (L.parseUuid id)
  let _ ← ofCore (Core.fetchZones L.core id)
  return toDto (← ofCore (Core.getProfile id))

def importSmartLink (link : String) : CommandM ProfileDto := do
  return toDto (← ofCore (Core.importSmartLink L.core link))

def setSelectedZone (id : String) (zoneId : Option String) : CommandM ProfileDto := do
  let id ← ofExcept (L.parseUuid id)
  return toDto (← ofCore (Core.setSelectedZone id zoneId))

end Commands

end EasyConnection.Desktop

namespace EasyConnection.Sample

/-- The id of the profile in the samples. -/
def seven : String := Core.uuidText 7

def library : Desktop.Library :=
  ⟨coreLibrary [], fun id => if id = seven then .ok 7 else .error "invalid character"⟩

end EasyConnection.Sample
