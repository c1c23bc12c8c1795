import EasyConnection.Nftables.Output

/-! # The request to bring a tunnel up

`ApplySpec` is what a client asks for; `validate` is what the helper checks before it acts.
The table that the helper installs for it decides where DNS datagrams go.
-/
namespace EasyConnection.Helper
open Net Nftables

structure ApplySpec where
  tunName : String
  tunAddr : BitVec 32
  tunPrefix : UInt8
  mtu : UInt16
  serverIps : List IpAddr
  bypassPrivate : Bool
  extraBypass : List IpNet
  ipv6 : Bool
  killSwitch : Bool
  transproxyPort : UInt16
  dnsPort : UInt16
  dnsMode : String
  dnsServers : List String
  udpPort : UInt16
  deriving DecidableEq

namespace ApplySpec

def validate (spec : ApplySpec) : Except String Unit :=
  if spec.tunName ≠ Nftables.tunName then
    .error ("refusing TUN name `" ++ spec.tunName ++ "` (only " ++ Nftables.tunName ++
      " is allowed)")
  else if ¬ (576 ≤ spec.mtu ∧ spec.mtu ≤ 9000) then
    .error "MTU must be between 576 and 9000"
  else if spec.tunPrefix > 32 then .error "invalid TUN prefix"
  else if spec.serverIps = [] then
    .error "server_ips must contain the resolved SSH endpoint"
  else if spec.transproxyPort = 0 ∨ spec.dnsPort = 0 then
    .error "intercept ports must be non-zero"
  else .ok ()

def bypass (spec : ApplySpec) : List IpNet :=
  if spec.bypassPrivate then spec.extraBypass ++ privateCidrs else spec.extraBypass

def tableArgs (spec : ApplySpec) : TableArgs where
  serverIps := spec.serverIps
  bypass := spec.bypass
  killSwitch := spec.killSwitch
  transproxyPort := spec.transproxyPort
  dnsPort := spec.dnsPort
  ipv6 := spec.ipv6
  udpPort := spec.udpPort

end ApplySpec

/-- Under the script for the request, the datagram goes to the local resolver or nowhere. -/
def DnsKept (spec : ApplySpec) (p : Packet) : Prop :=
  flowUnder (renderTable spec.tableArgs) p = some (.sent (p.redirectTo spec.dnsPort)) ∨
    flowUnder (renderTable spec.tableArgs) p = some .rejected

/-- A datagram to port 53 that leaves by an ordinary interface, neither to this machine nor to
a server. -/
def LanQuery (spec : ApplySpec) (p : Packet) : Prop :=
  p.proto = .udp ∧ p.dport = 53 ∧ p.oif ≠ "lo" ∧ p.oif ≠ tunName ∧
    p.dst.isLoopback = false ∧ p.dst ∉ spec.serverIps

instance (spec : ApplySpec) (p : Packet) : Decidable (LanQuery spec p) :=
  inferInstanceAs (Decidable (_ ∧ _))

theorem dnsKept_iff {spec : ApplySpec} {p : Packet} :
    DnsKept spec p ↔ newFlow spec.tableArgs.chains p = .sent (p.redirectTo spec.dnsPort) ∨
      newFlow spec.tableArgs.chains p = .rejected := by
  simp only [DnsKept, flowUnder_renderTable, Option.some.injEq]

theorem LanQuery.exempt_iff {spec : ApplySpec} {p : Packet} (h : LanQuery spec p) :
    Exempt spec.tableArgs p ↔ ∃ net ∈ spec.bypass, net.contains p.dst = true := by
  obtain ⟨_, _, hlo, htun, hloop, hserver⟩ := h
  simp [Exempt, ExemptDst, ApplySpec.tableArgs, hlo, htun, hloop, hserver]

/-- The script keeps a query to a LAN resolver exactly when the resolver is in no bypass
network. -/
theorem lan_query_kept_iff (spec : ApplySpec) (p : Packet) (hp : LanQuery spec p) :
    DnsKept spec p ↔ ∀ net ∈ spec.bypass, net.contains p.dst = false := by
  have hex := hp.exempt_iff
  rw [dnsKept_iff]
  constructor
  · intro hkept net hnet
    by_contra hin
    have hexempt : Exempt spec.tableArgs p := hex.2 ⟨net, hnet, by simpa using hin⟩
    rw [newFlow_exempt hexempt] at hkept
    rcases hkept with hsent | hrej
    · have hloop := IpAddr.isLoopback_loopback p.dst
      rw [Fate.sent.injEq] at hsent
      have hdst : p.dst = p.dst.loopback := congrArg Packet.dst hsent
      rw [← hdst, hp.2.2.2.2.1] at hloop
      cases hloop
    · cases hrej
  · intro hout
    have hnot : ¬ Exempt spec.tableArgs p := by
      rw [hex]
      rintro ⟨net, hnet, hin⟩
      rw [hout net hnet] at hin
      cases hin
    have hport : interceptPort spec.tableArgs p = some spec.dnsPort := by
      simp [interceptPort, hp.1, hp.2.1, ApplySpec.tableArgs]
    rcases newFlow_caught (.inr hp.1) hnot with hrej | ⟨port, hport', hsent, -⟩
    · exact .inr hrej
    · rw [hport, Option.some.injEq] at hport'
      exact .inl (hport' ▸ hsent)

/-- A full tunnel with the default ports that leaves private networks alone. -/
def sampleSpec : ApplySpec :=
  ⟨"easy0", 0x0affff02, 24, 1280, [.ofOctets 203 0 113 9], true, [], false, true, 13450, 13453,
    "tunnel", [], 0⟩

/-- A DNS query out of the physical interface. -/
def query (resolver : IpAddr) : Packet :=
  ⟨"eth0", .udp, .ofOctets 192 168 1 20, 40000, resolver, 53⟩

/-- A query to a public resolver is kept. -/
theorem lan_query_kept_public :
    LanQuery sampleSpec (query (.ofOctets 8 8 8 8)) ∧
      DnsKept sampleSpec (query (.ofOctets 8 8 8 8)) :=
  ⟨by decide, (lan_query_kept_iff sampleSpec (query (.ofOctets 8 8 8 8)) (by decide)).2
    (by decide)⟩

/-- A query to the resolver of a home network leaves as it is. -/
theorem lan_query_leaks :
    sampleSpec.validate = .ok () ∧ LanQuery sampleSpec (query (.ofOctets 192 168 1 1)) ∧
      flowUnder (renderTable sampleSpec.tableArgs) (query (.ofOctets 192 168 1 1)) =
        some (.sent (query (.ofOctets 192 168 1 1))) ∧
      ¬ DnsKept sampleSpec (query (.ofOctets 192 168 1 1)) := by
  rw [flowUnder_renderTable, dnsKept_iff]
  decide

end EasyConnection.Helper
