import EasyConnection.Desktop.Commands

/-! # The form for a connection

The page shows the fields that go with the chosen protocol and transport. A field that is not
shown has no entry in the data of the form, and its argument is the one for an empty field. The
numbers of the form are kept as numbers, since a number that is written out is read back as it was.
-/
namespace EasyConnection.Desktop
open Config

section Conversions

inductive ProtocolKind where
  | ssh
  | shadowsocks
  | vless
  deriving DecidableEq

inductive TransportKind where
  | direct
  | tls
  | websocket
  | wss
  | httpUpgrade
  deriving DecidableEq

def TransportKind.text : TransportKind → String
  | .direct => "direct"
  | .tls => "tls"
  | .websocket => "websocket"
  | .wss => "wss"
  | .httpUpgrade => "http_upgrade"

def fingerprintText : TlsFingerprintProfile → String
  | .default => "default"
  | .chrome => "chrome"
  | .firefox => "firefox"
  | .safari => "safari"
  | .custom => "custom"

def asDnsMode (value : String) : DnsMode :=
  if value = "custom" then .custom
  else if value = "remote" then .remote
  else if value = "tunnel" then .tunnel
  else .system

def asProtocol (value : String) : ProtocolKind :=
  if value = "shadowsocks" then .shadowsocks
  else if value = "vless" then .vless
  else .ssh

def asTransport (value : String) : TransportKind :=
  if value = "tls" then .tls
  else if value = "websocket" then .websocket
  else if value = "wss" then .wss
  else if value = "http_upgrade" then .httpUpgrade
  else .direct

def asFingerprint (value : String) : TlsFingerprintProfile :=
  if value = "chrome" then .chrome
  else if value = "firefox" then .firefox
  else if value = "safari" then .safari
  else if value = "custom" then .custom
  else .default

def needsTlsFields : TransportKind → Bool
  | .tls | .wss | .httpUpgrade => true
  | .direct | .websocket => false

def needsPath : TransportKind → Bool
  | .websocket | .wss | .httpUpgrade => true
  | .direct | .tls => false

/-- The operator `||` on a text that may be missing: an empty one counts as missing. -/
def textOr (value : Option String) (fallback : String) : String :=
  match value with
  | none => fallback
  | some s => if s = "" then fallback else s

def joined (items : List String) : String :=
  String.ofList (", ".toList.intercalate (items.map String.toList))

end Conversions

section Page

/-- What the fields start with. -/
structure Defaults where
  name : String
  host : String
  port : UInt16
  username : String
  socksPort : UInt16
  httpPort : UInt16
  tofu : Bool
  killSwitch : Bool
  bypassPrivate : Bool
  dnsServers : String
  udpgwHost : String
  udpgwPort : UInt16
  udpgwDns : Bool
  tlsSni : String
  tlsAlpn : String
  tlsPath : String
  tlsHost : String
  ssMethod : String
  vlessUuid : String
  vlessEncryption : String
  vlessFlow : String
  shareLan : Bool
  splitCidrs : String
  splitDomains : String
  deriving DecidableEq

structure Form where
  advanced : Bool
  protocol : ProtocolKind
  transport : TransportKind
  dnsMode : DnsMode
  ipv6 : Bool
  udpgw : Bool
  tlsVerify : Bool
  fingerprint : TlsFingerprintProfile
  defaults : Defaults
  deriving DecidableEq

/-- The form as it is when a profile has been loaded for editing. -/
def load (profile : ProfileDto) : Form where
  advanced := profile.killSwitch || !profile.bypassPrivateNetworks || profile.ipv6 ||
    profile.udpgwEnabled || (profile.dnsMode != "" && profile.dnsMode != "system") ||
    (profile.transport != "" && profile.transport != "direct") ||
    profile.proxy.listen == "0.0.0.0" || !profile.splitBypassCidrs.isEmpty ||
    !profile.splitBypassDomains.isEmpty
  protocol := asProtocol profile.protocol
  transport := asTransport profile.transport
  dnsMode := asDnsMode profile.dnsMode
  ipv6 := profile.ipv6
  udpgw := profile.udpgwEnabled
  tlsVerify := profile.tlsVerify
  fingerprint := asFingerprint profile.tlsFingerprint
  defaults :=
    { name := profile.name
      host := profile.host
      port := profile.port
      username := textOr profile.username ""
      socksPort := profile.proxy.socksPort
      httpPort := profile.proxy.httpProxyPort
      tofu := profile.tofu
      killSwitch := profile.killSwitch
      bypassPrivate := profile.bypassPrivateNetworks
      dnsServers := joined profile.dnsServers
      udpgwHost := textOr (some profile.udpgwHost) "127.0.0.1"
      udpgwPort := if profile.udpgwPort = 0 then 7300 else profile.udpgwPort
      udpgwDns := profile.udpgwTransparentDns
      tlsSni := textOr profile.tlsSni ""
      tlsAlpn := joined profile.tlsAlpn
      tlsPath := textOr profile.tlsPath "/"
      tlsHost := textOr profile.tlsHost ""
      ssMethod := textOr profile.ssMethod "aes-256-gcm"
      vlessUuid := textOr profile.vlessUuid ""
      vlessEncryption := textOr profile.vlessEncryption "none"
      vlessFlow := textOr profile.vlessFlow ""
      shareLan := profile.proxy.listen == "0.0.0.0" || profile.proxy.listen == "::"
      splitCidrs := joined profile.splitBypassCidrs
      splitDomains := joined profile.splitBypassDomains }

/-- The fields with a text or a check mark. -/
inductive Control where
  | name
  | host
  | username
  | ssMethod
  | vlessUuid
  | password
  | tlsSni
  | tlsAlpn
  | tlsPath
  | tlsHost
  | vlessEncryption
  | vlessFlow
  | tofu
  | shareLan
  | splitCidrs
  | splitDomains
  | bypassPrivate
  | killSwitch
  | dnsServers
  | udpgwHost
  | udpgwDns
  deriving DecidableEq

/-- The value of a text field, which cannot hold line breaks. -/
def oneLine (s : String) : String :=
  String.ofList (s.toList.filter fun c => c ≠ '\n' && c ≠ '\r')

def checkbox (control : Control) (checked : Bool) : List (Control × String) :=
  if checked then [(control, "on")] else []

/-- A choice that is not among the options is shown as the first one. -/
def selectValue (options : List String) (value : String) : String :=
  if value ∈ options then value else options.headD ""

def Form.basicFields (f : Form) : List (Control × String) :=
  [(.name, oneLine f.defaults.name), (.host, oneLine f.defaults.host)] ++
    match f.protocol with
    | .ssh =>
      [(.username, oneLine f.defaults.username), (.password, "")] ++
        checkbox .tofu f.defaults.tofu
    | .shadowsocks =>
      [(.ssMethod, selectValue ["aes-256-gcm", "aes-128-gcm"] f.defaults.ssMethod),
        (.password, "")]
    | .vless =>
      [(.vlessUuid, oneLine f.defaults.vlessUuid),
        (.vlessEncryption, textOr (some f.defaults.vlessEncryption) "none"),
        (.vlessFlow, f.defaults.vlessFlow)]

def Form.transportFields (f : Form) : List (Control × String) :=
  (if needsTlsFields f.transport then
    [(.tlsSni, oneLine f.defaults.tlsSni), (.tlsAlpn, oneLine f.defaults.tlsAlpn)] else []) ++
  if needsPath f.transport then
    [(.tlsPath, oneLine f.defaults.tlsPath), (.tlsHost, oneLine f.defaults.tlsHost)] else []

def Form.advancedFields (f : Form) : List (Control × String) :=
  checkbox .shareLan f.defaults.shareLan ++
  [(.splitCidrs, oneLine f.defaults.splitCidrs), (.splitDomains, oneLine f.defaults.splitDomains)] ++
  checkbox .bypassPrivate f.defaults.bypassPrivate ++
  checkbox .killSwitch f.defaults.killSwitch ++
  (if f.dnsMode ≠ .system then [(.dnsServers, oneLine f.defaults.dnsServers)] else []) ++
  if f.protocol = .ssh ∧ f.udpgw then
    (.udpgwHost, oneLine f.defaults.udpgwHost) :: checkbox .udpgwDns f.defaults.udpgwDns else []

/-- The data of the form when nothing has been changed in it. -/
def Form.data (f : Form) : List (Control × String) :=
  f.basicFields ++ f.transportFields ++ if f.advanced then f.advancedFields else []

def Form.get (f : Form) (control : Control) (fallback : String) : String :=
  textOr (f.data.lookup control) fallback

def Form.isOn (f : Form) (control : Control) : Bool := f.data.lookup control == some "on"

/-- The arguments with which the page calls the update. -/
def Form.submit (f : Form) (id : String) : UpdateProfile where
  id := id
  name := f.get .name ""
  host := f.get .host ""
  port := f.defaults.port
  username := some (f.get .username f.defaults.username)
  password := if f.get .password "" = "" then none else some (f.get .password "")
  tofu := some (f.isOn .tofu)
  common :=
    { socksPort := some (if f.advanced then f.defaults.socksPort else 1080)
      httpPort := some (if f.advanced then f.defaults.httpPort else 8080)
      routingMode := some "proxy_only"
      killSwitch := some (f.isOn .killSwitch)
      bypassPrivateNetworks := some (if f.advanced then f.isOn .bypassPrivate else true)
      ipv6 := some f.ipv6
      dnsMode := some f.dnsMode.text
      dnsServers := some (f.get .dnsServers "") }
  udpgw :=
    { enabled := some (f.protocol == .ssh && f.udpgw)
      host := some (f.get .udpgwHost "127.0.0.1")
      port := some (if f.advanced && f.protocol == .ssh && f.udpgw then f.defaults.udpgwPort
        else 7300)
      transparentDns := some (f.isOn .udpgwDns) }
  tls :=
    { transport := some f.transport.text
      sni := some (f.get .tlsSni "")
      alpn := some (f.get .tlsAlpn "")
      verify := some f.tlsVerify
      fingerprint := some (fingerprintText f.fingerprint)
      path := some (f.get .tlsPath "/")
      host := some (f.get .tlsHost "") }
  method := some (f.get .ssMethod f.defaults.ssMethod)
  uuid := some (f.get .vlessUuid f.defaults.vlessUuid)
  encryption := some (f.get .vlessEncryption "none")
  flow := some (f.get .vlessFlow "")
  share :=
    { listen := some (if f.isOn .shareLan then "0.0.0.0" else "127.0.0.1")
      splitBypassCidrs := some (f.get .splitCidrs "")
      splitBypassDomains := some (f.get .splitDomains "") }

/-- A profile is opened for editing, and the form is sent as it is. -/
def editUnchanged [Texts] (L : Library) (id : String) : CommandM ProfileDto := do
  let profile ← getProfile L id
  updateSshProfile L ((load profile).submit id)

end Page

end EasyConnection.Desktop
