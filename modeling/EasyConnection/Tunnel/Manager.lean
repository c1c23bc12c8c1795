import EasyConnection.Async.Prog
import EasyConnection.Config.Validate
import EasyConnection.Dns.Policy
import EasyConnection.Helper.Spec
import EasyConnection.Tunnel.Snapshot
import Mathlib.Data.List.Dedup

/-! # The connection manager

`connect` and `disconnect` as programs over what they share: the slot for the active session,
the snapshot, and the things that a session runs. Each lock is taken for one call only, and a
program may be interrupted between any two calls. A session is named by the call of `connect`
that opened it.
-/
namespace EasyConnection.Tunnel
open Async Config Net

/-- What `connect` hands over to `disconnect`. The proxies and the poller are always there. -/
structure ActiveSession (ι : Type) where
  id : ι
  ssh : Bool
  helper : Bool
  tunStop : Bool
  tunTask : Bool
  deriving DecidableEq

structure Endpoint where
  host : String
  port : UInt16
  deriving DecidableEq

inductive SshRoute where
  | smart (link : String)
  | direct
  | overTransport
  deriving DecidableEq

/-- The tasks that a session's stop token ends. -/
inductive Task where
  | transproxy
  | dnsIntercept
  | transproxyV6
  | dnsInterceptV6
  | udpIntercept
  | udpInterceptV6
  | udpgwReplies
  | udpgwClient
  | drainTun
  deriving DecidableEq

inductive UdpgwAnswer where
  | connected
  | failed (e : String)
  | unreachable (e : String)
  deriving DecidableEq

inductive Op (ι : Type) where
  | inspect
  | take
  | store (s : ActiveSession ι)
  | readSnapshot
  | writeSnapshot (s : ConnectionSnapshot)
  | getSecret (r : SecretRef)
  | sshOptions
  | dial (e : Endpoint) (transport : Transport)
  | openSsh (i : ι) (route : SshRoute)
  | disconnectSsh (i : ι)
  | openShadowsocks
  | startVless
  | startProxies (i : ι) (listen : String) (socksPort httpPort : UInt16)
  | stopProxies (i : ι)
  | ensureHelper
  | connectHelper
  | ping
  | lookupHost (host : String) (port : UInt16)
  | bind (t : Task)
  | connectUdpgw (host : String) (port : UInt16)
  | spawn (i : ι) (t : Task)
  | apply (i : ι) (spec : Helper.ApplySpec)
  | fromOwnedFd
  | dropHelper (i : ι)
  | teardownHelper (i : ι)
  | cancelStop (i : ι)
  | abortTun (i : ι)
  | spawnPoller (i : ι)
  | stopPoller (i : ι)
  | now

def Ans {ι : Type} : Op ι → Type
  | .inspect => Bool
  | .take => Option (ActiveSession ι)
  | .store _ => Unit
  | .readSnapshot => ConnectionSnapshot
  | .writeSnapshot _ => Unit
  | .getSecret _ => Except String String
  | .sshOptions => Except TunnelError Unit
  | .dial _ _ => Except String Unit
  | .openSsh _ _ => Except TunnelError Endpoint
  | .disconnectSsh _ => Except String Unit
  | .openShadowsocks => Except String Unit
  | .startVless => Except String Unit
  | .startProxies _ _ _ _ => Except String (String × String)
  | .stopProxies _ => Unit
  | .ensureHelper => Except String Unit
  | .connectHelper => Except String Unit
  | .ping => Except String Unit
  | .lookupHost _ _ => Except String (List IpAddr)
  | .bind _ => Except String Unit
  | .connectUdpgw _ _ => UdpgwAnswer
  | .spawn _ _ => Unit
  | .apply _ _ => Except String String
  | .fromOwnedFd => Except String Unit
  | .dropHelper _ => Unit
  | .teardownHelper _ => Except String String
  | .cancelStop _ => Unit
  | .abortTun _ => Unit
  | .spawnPoller _ => Unit
  | .stopPoller _ => Unit
  | .now => Time

abbrev TunnelM (ι : Type) := Prog (Op ι) Ans

variable {ι : Type}

/-! The calls with the types of their answers spelled out. -/

namespace Call

abbrev inspect : TunnelM ι Bool := Prog.perform Op.inspect
abbrev take : TunnelM ι (Option (ActiveSession ι)) := Prog.perform Op.take
abbrev store (s : ActiveSession ι) : TunnelM ι Unit := Prog.perform (Op.store s)
abbrev readSnapshot : TunnelM ι ConnectionSnapshot := Prog.perform Op.readSnapshot
abbrev writeSnapshot (s : ConnectionSnapshot) : TunnelM ι Unit := Prog.perform (Op.writeSnapshot s)
abbrev getSecret (r : SecretRef) : TunnelM ι (Except String String) := Prog.perform (Op.getSecret r)
abbrev sshOptions : TunnelM ι (Except TunnelError Unit) := Prog.perform Op.sshOptions
abbrev dial (e : Endpoint) (t : Transport) : TunnelM ι (Except String Unit) :=
  Prog.perform (Op.dial e t)
abbrev openSsh (i : ι) (r : SshRoute) : TunnelM ι (Except TunnelError Endpoint) :=
  Prog.perform (Op.openSsh i r)
abbrev disconnectSsh (i : ι) : TunnelM ι (Except String Unit) := Prog.perform (Op.disconnectSsh i)
abbrev openShadowsocks : TunnelM ι (Except String Unit) := Prog.perform Op.openShadowsocks
abbrev startVless : TunnelM ι (Except String Unit) := Prog.perform Op.startVless
abbrev startProxies (i : ι) (listen : String) (socksPort httpPort : UInt16) :
    TunnelM ι (Except String (String × String)) :=
  Prog.perform (Op.startProxies i listen socksPort httpPort)
abbrev stopProxies (i : ι) : TunnelM ι Unit := Prog.perform (Op.stopProxies i)
abbrev ensureHelper : TunnelM ι (Except String Unit) := Prog.perform Op.ensureHelper
abbrev connectHelper : TunnelM ι (Except String Unit) := Prog.perform Op.connectHelper
abbrev ping : TunnelM ι (Except String Unit) := Prog.perform Op.ping
abbrev lookupHost (host : String) (port : UInt16) : TunnelM ι (Except String (List IpAddr)) :=
  Prog.perform (Op.lookupHost host port)
abbrev bind (t : Task) : TunnelM ι (Except String Unit) := Prog.perform (Op.bind t)
abbrev connectUdpgw (host : String) (port : UInt16) : TunnelM ι UdpgwAnswer :=
  Prog.perform (Op.connectUdpgw host port)
abbrev spawn (i : ι) (t : Task) : TunnelM ι Unit := Prog.perform (Op.spawn i t)
abbrev apply (i : ι) (spec : Helper.ApplySpec) : TunnelM ι (Except String String) :=
  Prog.perform (Op.apply i spec)
abbrev fromOwnedFd : TunnelM ι (Except String Unit) := Prog.perform Op.fromOwnedFd
abbrev dropHelper (i : ι) : TunnelM ι Unit := Prog.perform (Op.dropHelper i)
abbrev teardownHelper (i : ι) : TunnelM ι (Except String String) :=
  Prog.perform (Op.teardownHelper i)
abbrev cancelStop (i : ι) : TunnelM ι Unit := Prog.perform (Op.cancelStop i)
abbrev abortTun (i : ι) : TunnelM ι Unit := Prog.perform (Op.abortTun i)
abbrev spawnPoller (i : ι) : TunnelM ι Unit := Prog.perform (Op.spawnPoller i)
abbrev stopPoller (i : ι) : TunnelM ι Unit := Prog.perform (Op.stopPoller i)
abbrev now : TunnelM ι Time := Prog.perform Op.now

end Call

def publish (next : ConnectionSnapshot) : TunnelM ι Unit := Call.writeSnapshot next

def setPhase (state : ConnectionState) (phase : ConnectionPhase) : TunnelM ι Unit := do
  let snap ← Call.readSnapshot
  publish { snap with state := state, phase := phase }

/-- A call that may fail, with its error as the manager reports it. -/
def orElse {α ε : Type} (p : TunnelM ι (Except ε α)) (f : ε → TunnelError) :
    ExceptT TunnelError (TunnelM ι) α :=
  ExceptT.mk (do return (← p).mapError f)

/-- Make a call whose answer does not matter, if there is something to make it for. -/
def onlyIf {α : Type} (present : Bool) (p : TunnelM ι α) : TunnelM ι Unit :=
  if present then do
    let _ ← p
  else return ()

section Upstream
variable (i : ι) (profile : ConnectionConfig)

def openUpstream : ExceptT TunnelError (TunnelM ι) (Option Endpoint) :=
  match profile.protocol with
  | .ssh =>
    match profile.smartLinkSecret with
    | some linkRef => do
      let link ← orElse (Call.getSecret linkRef) fun e => .other ("Smart Config vault: " ++ e)
      let session ← ExceptT.mk (Call.openSsh i (.smart link))
      return some session
    | none => do
      ExceptT.mk Call.sshOptions
      if profile.transport = .direct then
        let session ← ExceptT.mk (Call.openSsh i .direct)
        return some session
      else
        orElse (Call.dial ⟨profile.host, profile.port⟩ profile.transport) fun e =>
          .other ("SSH transport: " ++ e)
        let session ← ExceptT.mk (Call.openSsh i .overTransport)
        return some session
  | .shadowsocks => do
    orElse Call.openShadowsocks .other
    return none
  | .vless => do
    orElse Call.startVless .other
    return none
  | .socks => throw (.unsupportedProtocol "SOCKS is a local listener, not a remote protocol")

end Upstream

def proxyBindAddr (listen : String) : String :=
  if listen ∈ ["", "127.0.0.1", "localhost"] then "127.0.0.1"
  else if listen ∈ ["LAN", "lan"] then "0.0.0.0"
  else listen

structure StartedUdpgw where
  handle : Bool
  status : String
  deriving DecidableEq

def startUdpgwClient (i : ι) (profile : ConnectionConfig) : TunnelM ι StartedUdpgw :=
  if !profile.udpgw.enabled then return ⟨false, "disabled"⟩
  else do
    let host := if profile.udpgw.host = "" then "127.0.0.1" else profile.udpgw.host
    let port := if profile.udpgw.port = 0 then 7300 else profile.udpgw.port
    match ← Call.connectUdpgw host port with
    | .connected =>
      Call.spawn i .udpgwClient
      return ⟨true, "connected " ++ label host port⟩
    | .failed e => return ⟨false, "failed " ++ label host port ++ ": " ++ e⟩
    | .unreachable e =>
      return ⟨false, "unreachable " ++ label host port ++ " (" ++ e ++
        "). Start badvpn-udpgw on the SSH host (often 127.0.0.1:7300)."⟩

section FullTunnel
variable (i : ι) (profile : ConnectionConfig)

def tunnelUdpgw : TunnelM ι StartedUdpgw :=
  if profile.protocol = .ssh then startUdpgwClient i profile
  else return ⟨false, "n/a (UDPGW is SSH-only)"⟩

def resolveServerIps (host : String) (port : UInt16) :
    ExceptT TunnelError (TunnelM ι) (List IpAddr) := do
  let ips ← orElse (Call.lookupHost host port) fun e =>
    .other ("Could not resolve " ++ label host port ++ " before applying routes: " ++ e)
  let ips := (ips.mergeSort IpAddr.le).dedup
  if ips = [] then throw (.other ("No addresses resolved for " ++ host)) else return ips

/-- The network of one address. -/
def hostNet : IpAddr → IpNet
  | .v4 a => .v4 a (Fin.last 32)
  | .v6 a => .v6 a (Fin.last 128)

/-- The name to look up, without blanks around it and dots at its end. -/
@[irreducible] def domainHost (domain : String) : String :=
  String.ofList ((Codec.trim domain.toList).reverse.dropWhile (· == '.')).reverse

def domainNets (domain : String) : TunnelM ι (List IpNet) :=
  if domainHost domain = "" then return []
  else do
    match ← Call.lookupHost (domainHost domain) 0 with
    | .ok ips => return ips.map hostNet
    | .error _ => return []

def lookupDomains : List String → TunnelM ι (List IpNet)
  | [] => return []
  | domain :: rest => do
    let nets ← domainNets domain
    return nets ++ (← lookupDomains rest)

def splitBypassNets [Texts] : TunnelM ι (List IpNet) := do
  let nets ← lookupDomains profile.splitBypassDomains
  return profile.splitBypassCidrs.filterMap Texts.parseIpNet ++ nets

/-- A listener that may be missing: its task runs only if the address could be bound. -/
def spawnIfBound (wanted : Bool) (t : Task) : TunnelM ι Unit :=
  if wanted then do
    match ← Call.bind t with
    | .ok _ => Call.spawn i t
    | .error _ => return ()
  else return ()

def spawnIntercepts (udpgw : StartedUdpgw) : TunnelM ι Unit := do
  Call.spawn i .transproxy
  Call.spawn i .dnsIntercept
  spawnIfBound i profile.ipv6 .transproxyV6
  spawnIfBound i profile.ipv6 .dnsInterceptV6
  if udpgw.handle then
    spawnIfBound i true .udpIntercept
    spawnIfBound i profile.ipv6 .udpInterceptV6
    Call.spawn i .udpgwReplies

structure StartedTun where
  dnsStatus : String
  udpgwStatus : String
  udpNote : String
  udpgwOk : Bool
  deriving DecidableEq

def dnsStatus (policy : Dns.DnsPolicy) (viaUdpgw : Bool) (servers : List String) : String :=
  let list := ", ".intercalate servers
  match policy with
  | .system => "system"
  | .custom =>
    if viaUdpgw then "custom via UDPGW (" ++ list ++ ")"
    else if profile.dns.dnsOverTcp = .off then "custom UDP only (" ++ list ++ ")"
    else "custom DNS-over-TCP (" ++ list ++ ")"
  | .remote | .tunnel =>
    if viaUdpgw then "tunnel UDPGW DNS (" ++ list ++ ")"
    else match profile.dns.dnsOverTcp with
      | .off => "tunnel DNS unavailable (dns_over_tcp=off, no UDPGW)"
      | .on => "tunnel DNS-over-TCP forced (" ++ list ++ ")"
      | .auto => "tunnel DNS-over-TCP fallback (" ++ list ++ ")"

def udpNote (udpgw : StartedUdpgw) : String :=
  if udpgw.handle then
    "UDP is redirected to :13451 and carried over SSH via UDPGW (" ++ udpgw.status ++
      "). Not every QUIC/game protocol survives this path."
  else if profile.udpgw.enabled then
    "UDPGW is enabled but not connected (" ++ udpgw.status ++
      "). Leftover UDP is rejected so apps can fall back to TCP."
  else
    "UDPGW is off. Leftover UDP is rejected; DNS uses DNS-over-TCP. " ++
      "Enable UDPGW if the server runs badvpn-udpgw."

def tunnelSpec (serverIps : List IpAddr) (extraBypass : List IpNet) (policy : Dns.DnsPolicy)
    (servers : List String) (udpgw : StartedUdpgw) : Helper.ApplySpec where
  tunName := Nftables.tunName
  tunAddr := 0x0affff02
  tunPrefix := 24
  mtu := profile.mtu.getD 1280
  serverIps := serverIps
  bypassPrivate := profile.bypassPrivateNetworks || profile.routingMode == .splitTunnel
  extraBypass := extraBypass
  ipv6 := profile.ipv6
  killSwitch := profile.killSwitch
  transproxyPort := 13450
  dnsPort := 13453
  dnsMode := policy.asStr
  dnsServers := servers
  udpPort := if udpgw.handle then 13451 else 0

/-- Ask the helper for the tunnel. The client is dropped when the descriptor is of no use. -/
def applyTunnel (spec : Helper.ApplySpec) : ExceptT TunnelError (TunnelM ι) Unit :=
  ExceptT.mk do
    match ← Call.apply i spec with
    | .error e =>
      Call.cancelStop i
      return .error (.helper e)
    | .ok _ =>
      match ← Call.fromOwnedFd with
      | .error e =>
        Call.dropHelper i
        return .error (.helper e)
      | .ok _ =>
        Call.spawn i .drainTun
        return .ok ()

def startFullTunnel [Texts] : ExceptT TunnelError (TunnelM ι) StartedTun := do
  orElse Call.ensureHelper .helper
  let serverIps ← resolveServerIps profile.host profile.port
  orElse Call.connectHelper .helper
  orElse Call.ping .helper
  orElse (Call.bind .transproxy) fun e =>
    .other ("cannot bind transparent TCP proxy 127.0.0.1:13450: " ++ e)
  orElse (Call.bind .dnsIntercept) fun e =>
    .other ("cannot bind DNS intercept 127.0.0.1:13453: " ++ e)
  let policy := Dns.effectivePolicy true (.parse profile.dns.mode.text)
  let servers := Dns.resolveServers policy profile.dns.servers
  let udpgw ← liftM (tunnelUdpgw i profile)
  liftM (spawnIntercepts i profile udpgw)
  let extraBypass ← liftM (splitBypassNets profile : TunnelM ι (List IpNet))
  applyTunnel i (tunnelSpec profile serverIps extraBypass policy servers udpgw)
  return {
    dnsStatus := dnsStatus profile policy (profile.udpgw.transparentDns && udpgw.handle) servers
    udpgwStatus := udpgw.status
    udpNote := udpNote profile udpgw
    udpgwOk := udpgw.handle }

end FullTunnel

/-- What the last part of `connect` knows about the tunnel. -/
structure Mode where
  helper : Bool
  tunStop : Bool
  dnsStatus : String
  udpgwStatus : String
  udpNote : Option String
  udpgwOk : Bool
  deriving DecidableEq

section Connect
variable (i : ι)

def readySnapshot (profile : ConnectionConfig) (snap : ConnectionSnapshot)
    (addrs : String × String) (mode : Mode) (now : Time) : ConnectionSnapshot :=
  { snap with
    state := if profile.udpgw.enabled && !mode.udpgwOk then .degraded else .connected
    phase := .ready
    socksEndpoint := some ("socks5://" ++ addrs.1)
    httpEndpoint := some ("http://" ++ addrs.2)
    connectedSince := some now
    lastError := none
    lastErrorDetail := none
    tunName := if mode.helper then some Nftables.tunName else none
    helperOk := mode.helper
    dnsStatus := mode.dnsStatus
    udpgwStatus := mode.udpgwStatus
    killSwitch := profile.killSwitch
    udpNote := mode.udpNote }

/-- The last part: the snapshot is published before the session is stored. -/
def commit (profile : ConnectionConfig) (snap : ConnectionSnapshot) (ssh : Bool)
    (addrs : String × String) (mode : Mode) :
    TunnelM ι (Except TunnelError ConnectionSnapshot) := do
  let now ← Call.now
  let snap := readySnapshot profile snap addrs mode now
  publish snap
  Call.spawnPoller i
  Call.store ⟨i, ssh, mode.helper, mode.tunStop, mode.helper⟩
  return .ok snap

/-- A tunnel that could not be set up is rolled back. -/
def rollBack (snap : ConnectionSnapshot) (ssh : Bool) (e : TunnelError) :
    TunnelM ι (Except TunnelError ConnectionSnapshot) := do
  Call.stopProxies i
  onlyIf ssh (Call.disconnectSsh i)
  publish (snap.failed e.text "Failed to configure system-wide routing" (fullTunnelError e.text))
  return .error e

/-- With the proxies running: set up the tunnel if the profile wants it. -/
def route [Texts] (profile : ConnectionConfig) (snap : ConnectionSnapshot) (ssh : Bool)
    (addrs : String × String) : TunnelM ι (Except TunnelError ConnectionSnapshot) :=
  if wantsTun profile then do
    setPhase .establishingTunnel .configuringRoutes
    match ← (startFullTunnel i profile).run with
    | .ok tun =>
      commit i profile snap ssh addrs
        ⟨true, true, tun.dnsStatus, tun.udpgwStatus, some tun.udpNote, tun.udpgwOk⟩
    | .error e => rollBack i snap ssh e
  else if profile.udpgw.enabled && ssh then do
    let started ← startUdpgwClient i profile
    commit i profile snap ssh addrs ⟨false, true, snap.dnsStatus, started.status,
      some ("Proxy-only does not intercept system UDP. UDPGW is connected for diagnostics only; " ++
        "use VPN mode for transparent UDP."), started.handle⟩
  else
    commit i profile snap ssh addrs
      ⟨false, false, snap.dnsStatus, snap.udpgwStatus, snap.udpNote, false⟩

/-- With the upstream open: start the proxies. A failure here is not published. -/
def serve [Texts] (profile : ConnectionConfig) (snap : ConnectionSnapshot) (ssh : Bool) :
    TunnelM ι (Except TunnelError ConnectionSnapshot) := do
  setPhase .establishingTunnel .establishingTunnel
  match ← Call.startProxies i (proxyBindAddr profile.proxy.listen) profile.proxy.socksPort
      profile.proxy.httpProxyPort with
  | .ok addrs => route i profile snap ssh addrs
  | .error e =>
    onlyIf ssh (Call.disconnectSsh i)
    return .error (.proxy e)

/-- With the session's endpoint, which Smart Config chooses only now. -/
def resume [Texts] (profile : ConnectionConfig) (snap : ConnectionSnapshot) :
    Option Endpoint → TunnelM ι (Except TunnelError ConnectionSnapshot)
  | some session => do
    let profile := { profile with host := session.host, port := session.port }
    let snap := { snap with serverLabel := some (label session.host session.port) }
    publish snap
    serve i profile snap true
  | none => serve i profile snap false

/-- Past the guard, with the lock released. -/
def attempt [Texts] (profile : ConnectionConfig) :
    TunnelM ι (Except TunnelError ConnectionSnapshot) :=
  if profile.protocol = .socks then
    return .error (.unsupportedProtocol ("inbound SOCKS profiles are not a tunnel protocol — " ++
      "use SSH, Shadowsocks, or VLESS"))
  else do
    let snap := connectingSnapshot profile
    publish snap
    setPhase .connecting .establishingTcp
    setPhase .authenticating .authenticating
    match ← (openUpstream i profile).run with
    | .ok ssh => resume i profile snap ssh
    | .error e =>
      publish (snap.failed e.text (shortConnectError e.text) e.text)
      return .error e

def connect [Texts] (profile : ConnectionConfig) :
    TunnelM ι (Except TunnelError ConnectionSnapshot) := do
  let active ← Call.inspect
  if active then return .error .alreadyConnected else attempt i profile

end Connect

/-- Stop what a session runs. Errors are only logged. -/
def release (session : ActiveSession ι) : TunnelM ι Unit := do
  Call.stopPoller session.id
  onlyIf session.tunStop (Call.cancelStop session.id)
  onlyIf session.tunTask (Call.abortTun session.id)
  onlyIf session.helper (Call.teardownHelper session.id)
  Call.stopProxies session.id
  onlyIf session.ssh (Call.disconnectSsh session.id)

def releaseTaken : Option (ActiveSession ι) → TunnelM ι Unit
  | some session => release session
  | none => return ()

def disconnect : TunnelM ι (Except TunnelError ConnectionSnapshot) := do
  setPhase .disconnecting .idle
  let active ← Call.take
  releaseTaken active
  publish .default
  return .ok .default

end EasyConnection.Tunnel
