import EasyConnection.Net.Address

/-! # The rules of `table inet easy`

`renderTable` prints two chains. Each printed line is kept as a rule, a list of conditions and a
verdict, so that the text and the meaning of a table come from the same list.
-/
namespace EasyConnection.Nftables
open Net

inductive Proto where
  | tcp
  | udp
  | other (number : UInt8)
  deriving DecidableEq

inductive CtState where
  | new
  | established
  | related
  | invalid
  | untracked
  deriving DecidableEq

inductive Dest where
  | addr (a : IpAddr)
  | net (n : IpNet)
  deriving DecidableEq

inductive Match where
  | ctState (states : List CtState)
  | oifname (name : String)
  | daddr (d : Dest)
  | l4proto (p : Proto)
  | ipProtocol (p : Proto)
  | udpDport (port : UInt16)
  | nfprotoIpv6
  deriving DecidableEq

inductive Verdict where
  | ret
  | redirect (port : UInt16)
  | accept
  | reject
  deriving DecidableEq

structure Rule where
  conditions : List Match
  verdict : Verdict
  deriving DecidableEq

def Proto.text : Proto → String
  | .tcp => "tcp"
  | .udp => "udp"
  | .other number => toString number

def CtState.text : CtState → String
  | .new => "new"
  | .established => "established"
  | .related => "related"
  | .invalid => "invalid"
  | .untracked => "untracked"

def Dest.words : Dest → List String
  | .addr (.v4 a) => ["ip", "daddr", v4Text a]
  | .addr (.v6 a) => ["ip6", "daddr", v6Text a]
  | .net (.v4 a len) => ["ip", "daddr", (IpNet.v4 a len).text]
  | .net (.v6 a len) => ["ip6", "daddr", (IpNet.v6 a len).text]

def Match.words : Match → List String
  | .ctState states => ["ct", "state", ",".intercalate (states.map CtState.text)]
  | .oifname name => ["oifname", "\"" ++ name ++ "\""]
  | .daddr d => d.words
  | .l4proto p => ["meta", "l4proto", p.text]
  | .ipProtocol p => ["ip", "protocol", p.text]
  | .udpDport port => ["udp", "dport", toString port]
  | .nfprotoIpv6 => ["meta", "nfproto", "ipv6"]

def Verdict.words : Verdict → List String
  | .ret => ["return"]
  | .redirect port => ["redirect", "to", ":" ++ toString port]
  | .accept => ["accept"]
  | .reject => ["reject", "with", "icmpx", "type", "admin-prohibited"]

def Rule.words (r : Rule) : List String := r.conditions.flatMap Match.words ++ r.verdict.words

def Rule.text (r : Rule) : String := "    " ++ " ".intercalate r.words ++ "\n"

def tunName : String := "easy0"

def nftTable : String := "easy"

/-- The arguments of `renderTable`. -/
structure TableArgs where
  serverIps : List IpAddr
  bypass : List IpNet
  killSwitch : Bool
  transproxyPort : UInt16
  dnsPort : UInt16
  ipv6 : Bool
  udpPort : UInt16
  deriving DecidableEq

namespace TableArgs
variable (t : TableArgs)

/-- The lines that both chains share: loopback, the TUN, the servers and the bypass list. -/
def exemptions (v : Verdict) : List Rule :=
  [⟨[.oifname "lo"], v⟩, ⟨[.oifname tunName], v⟩,
    ⟨[.daddr (.net loopbackV4)], v⟩, ⟨[.daddr (.addr loopbackV6)], v⟩] ++
  t.serverIps.map (fun ip => ⟨[.daddr (.addr ip)], v⟩) ++
  t.bypass.map (fun net => ⟨[.daddr (.net net)], v⟩)

/-- Without IPv6 only IPv4 is intercepted, since nothing listens on `::1` then. -/
def transport : Proto → Match := if t.ipv6 then .l4proto else .ipProtocol

def redirects : List Rule :=
  [⟨[t.transport .udp, .udpDport 53], .redirect t.dnsPort⟩,
    ⟨[t.transport .tcp], .redirect t.transproxyPort⟩] ++
  if t.udpPort ≠ 0 then [⟨[t.transport .udp], .redirect t.udpPort⟩] else []

def nat : List Rule := t.exemptions .ret ++ t.redirects

def rejects : List Rule :=
  (if !t.ipv6 then [⟨[.nfprotoIpv6], .reject⟩] else []) ++
  (if t.udpPort = 0 then [⟨[.l4proto .udp], .reject⟩] else []) ++
  (if t.killSwitch then [⟨[], .reject⟩] else [])

def filter : List Rule :=
  ⟨[.ctState [.established, .related]], .accept⟩ :: (t.exemptions .accept ++ t.rejects)

end TableArgs

/-- The script for `nft -f -`. -/
def renderTable (t : TableArgs) : String :=
  "table inet " ++ nftTable ++ " \x7b\n" ++
  "\n  chain output_nat \x7b\n    type nat hook output priority -100; policy accept;\n" ++
  String.join (t.nat.map Rule.text) ++ "  \x7d\n" ++
  "\n  chain output_filter \x7b\n    type filter hook output priority 0; policy accept;\n" ++
  String.join (t.filter.map Rule.text) ++ "  \x7d\n" ++
  "\x7d\n"

end EasyConnection.Nftables
