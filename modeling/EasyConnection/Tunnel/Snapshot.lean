import EasyConnection.Config.Model

/-! # What the manager publishes

The snapshot tells the user interface the state of the connection. It is a value of its own,
kept beside the session that it is about.
-/
namespace EasyConnection.Tunnel
open Config

inductive ConnectionState where
  | disconnected
  | connecting
  | authenticating
  | establishingTunnel
  | connected
  | degraded
  | reconnecting
  | disconnecting
  | error
  deriving DecidableEq

/-- The states that tell the user that the tunnel is there. -/
def ConnectionState.isUp : ConnectionState → Bool
  | .connected => true
  | .degraded => true
  | _ => false

inductive ConnectionPhase where
  | idle
  | resolvingServer
  | establishingTcp
  | negotiatingTransport
  | authenticating
  | establishingTunnel
  | configuringRoutes
  | configuringDns
  | ready
  | reconnecting (attempt : UInt32)
  | failed (message : String)
  deriving DecidableEq

structure TrafficStats where
  bytesDown : UInt64
  bytesUp : UInt64
  rateDownBps : UInt64
  rateUpBps : UInt64
  activeFlows : UInt64
  deriving DecidableEq

structure ConnectionSnapshot where
  state : ConnectionState
  phase : ConnectionPhase
  profileId : Option Uuid
  profileName : Option String
  socksEndpoint : Option String
  httpEndpoint : Option String
  connectedSince : Option Time
  lastError : Option String
  lastErrorDetail : Option String
  stats : TrafficStats
  ipv6 : Bool
  routingMode : String
  dnsStatus : String
  udpgwStatus : String
  serverLabel : Option String
  latencyMs : Option UInt64
  tunName : Option String
  helperOk : Bool
  udpNote : Option String
  killSwitch : Bool
  deriving DecidableEq

namespace ConnectionSnapshot

def default : ConnectionSnapshot where
  state := .disconnected
  phase := .idle
  profileId := none
  profileName := none
  socksEndpoint := none
  httpEndpoint := none
  connectedSince := none
  lastError := none
  lastErrorDetail := none
  stats := ⟨0, 0, 0, 0, 0⟩
  ipv6 := false
  routingMode := "proxy_only"
  dnsStatus := "system"
  udpgwStatus := "disabled"
  serverLabel := none
  latencyMs := none
  tunName := none
  helperOk := false
  udpNote := none
  killSwitch := false

/-- A connection that could not be made. -/
def failed (snap : ConnectionSnapshot) (message short detail : String) : ConnectionSnapshot :=
  { snap with
    state := .error
    phase := .failed message
    lastError := some short
    lastErrorDetail := some detail }

end ConnectionSnapshot

def wantsTun (profile : ConnectionConfig) : Bool := profile.routingMode != .proxyOnly

def label (host : String) (port : UInt16) : String := host ++ ":" ++ toString port

/-- The first snapshot of an attempt. -/
def connectingSnapshot (profile : ConnectionConfig) : ConnectionSnapshot :=
  { ConnectionSnapshot.default with
    state := .connecting
    phase := .resolvingServer
    profileId := some profile.id
    profileName := some profile.name
    serverLabel := some (label profile.host profile.port)
    ipv6 := profile.ipv6
    routingMode := profile.routingMode.text
    dnsStatus := profile.dns.mode.text
    udpgwStatus := if profile.udpgw.enabled then "connecting" else "disabled"
    killSwitch := profile.killSwitch
    udpNote := if wantsTun profile then
      some ("TCP is intercepted. UDP needs a remote badvpn-udpgw (enable it on the profile).")
      else none }

inductive TunnelError where
  | notConnected
  | alreadyConnected
  | unsupportedProtocol (message : String)
  | ssh (message : String)
  | proxy (message : String)
  | helper (message : String)
  | config (message : String)
  | secrets (message : String)
  | other (message : String)
  deriving DecidableEq

def TunnelError.text : TunnelError → String
  | .notConnected => "not connected"
  | .alreadyConnected => "already connected"
  | .unsupportedProtocol m => "unsupported protocol for this phase: " ++ m
  | .ssh m => "SSH error: " ++ m
  | .proxy m => "proxy error: " ++ m
  | .helper m => "privileged helper: " ++ m
  | .config m => "config error: " ++ m
  | .secrets m => "secrets error: " ++ m
  | .other m => m

/-- The first line, without the carriage return that may end it. -/
def shortConnectError (detail : String) : String :=
  match detail.toList.span (· != '\n') with
  | ([], []) => "connect failed"
  | (line, []) => String.ofList line
  | (line, _ :: _) => String.ofList (if line.getLast? = some '\r' then line.dropLast else line)

def fullTunnelError (detail : String) : String :=
  "VPN / full-tunnel mode could not be started.\n\n" ++ detail ++ "\n\nPossible causes:\n" ++
    "• polkit elevation was denied or cancelled\n" ++
    "• pkexec / polkitd is not installed\n" ++
    "• privileged helper failed to start\n" ++
    "• /dev/net/tun or nftables is unavailable\n\n" ++
    "The desktop app will prompt for authentication via pkexec when needed.\n" ++
    "Manual fallback:\n  sudo easy-helper --allow-uid $(id -u)\n" ++
    "or: sudo scripts/install-helper.sh\n\n" ++
    "Proxy-only mode still works without the helper."

end EasyConnection.Tunnel
