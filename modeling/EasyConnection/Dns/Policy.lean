import Mathlib.Data.List.Basic

/-! # DNS policy

Which servers to use, and whether the helper may touch systemd-resolved.
-/
namespace EasyConnection.Dns

inductive DnsPolicy where
  | system
  | tunnel
  | custom
  | remote
  deriving DecidableEq

namespace DnsPolicy

def parse (mode : String) : DnsPolicy :=
  if mode = "custom" then .custom
  else if mode = "remote" then .remote
  else if mode = "system" then .system
  else .tunnel

def asStr : DnsPolicy → String
  | .system => "system"
  | .tunnel => "tunnel"
  | .custom => "custom"
  | .remote => "remote"

end DnsPolicy

/-- System DNS would leak through the LAN resolver, so a tunnel upgrades it to tunnel DNS. -/
def effectivePolicy (routingIsTunnel : Bool) (configured : DnsPolicy) : DnsPolicy :=
  if routingIsTunnel ∧ configured = .system then .tunnel else configured

def defaultDnsServers : List String := ["1.1.1.1", "8.8.8.8"]

def resolveServers (policy : DnsPolicy) (configured : List String) : List String :=
  match policy with
  | .system => []
  | _ => if configured ≠ [] then configured else defaultDnsServers

def shouldConfigureResolved (policy : DnsPolicy) : Bool := policy != .system

/-- A tunnel always points systemd-resolved at some server. -/
theorem tunnel_configures (configured : DnsPolicy) (servers : List String) :
    shouldConfigureResolved (effectivePolicy true configured) = true ∧
      resolveServers (effectivePolicy true configured) servers ≠ [] := by
  cases configured <;> by_cases hs : servers = [] <;>
    simp [effectivePolicy, shouldConfigureResolved, resolveServers, defaultDnsServers, hs]

end EasyConnection.Dns
