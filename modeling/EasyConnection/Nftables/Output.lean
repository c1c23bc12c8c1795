import EasyConnection.Nftables.Script
import EasyConnection.Ruleset.FirstMatch

/-! # What the two chains do to an outgoing packet

The nat chain sees the first packet of a flow and may redirect it to a local port. The filter
chain sees every packet after that, with the state that the connection tracker gives it.
-/
namespace EasyConnection.Nftables
open Net Ruleset

structure Packet where
  oif : String
  proto : Proto
  src : IpAddr
  sport : UInt16
  dst : IpAddr
  dport : UInt16
  deriving DecidableEq

def IsV4 : IpAddr → Bool
  | .v4 _ => true
  | .v6 _ => false

def Dest.covers : Dest → IpAddr → Bool
  | .addr a, b => b == a
  | .net n, b => n.contains b

def Match.holds (ct : CtState) (p : Packet) : Match → Bool
  | .ctState states => states.contains ct
  | .oifname name => p.oif == name
  | .daddr d => d.covers p.dst
  | .l4proto proto => p.proto == proto
  | .ipProtocol proto => IsV4 p.dst && p.proto == proto
  | .udpDport port => p.proto == .udp && p.dport == port
  | .nfprotoIpv6 => !IsV4 p.dst

def Rule.applies (ct : CtState) (p : Packet) (r : Rule) : Bool := r.conditions.all (Match.holds ct p)

def verdictOf (ct : CtState) (p : Packet) (rules : List Rule) : Option Verdict :=
  firstMatch (Rule.applies ct p) Rule.verdict rules

/-- The port that the nat chain redirects to; `return` and the policy leave the packet alone. -/
def natPort (c : Chains) (ct : CtState) (p : Packet) : Option UInt16 :=
  match verdictOf ct p c.nat with
  | some (.redirect port) => some port
  | _ => none

def accepts (c : Chains) (ct : CtState) (p : Packet) : Bool :=
  match verdictOf ct p c.filter with
  | some .reject => false
  | _ => true

namespace Packet

/-- A redirect writes the loopback address of the packet's family and the new port. -/
def redirectTo (p : Packet) (port : UInt16) : Packet :=
  { p with dst := p.dst.loopback, dport := port }

def translate (p : Packet) : Option UInt16 → Packet
  | none => p
  | some port => p.redirectTo port

end Packet

inductive Fate where
  | rejected
  | sent (p : Packet)
  deriving DecidableEq

/-- A packet whose flow has the given redirection, after the filter chain. -/
def filtered (c : Chains) (ct : CtState) (p : Packet) (port : Option UInt16) : Fate :=
  if accepts c ct (p.translate port) then .sent (p.translate port) else .rejected

/-- The first packet of a new flow. -/
def newFlow (c : Chains) (p : Packet) : Fate := filtered c .new p (natPort c .new p)

/-- The first packet of a new flow where `nft` has been given the script. -/
def flowUnder (script : String) (p : Packet) : Option Fate := (readTable script).map (newFlow · p)

/-- A destination that the table leaves alone. -/
def ExemptDst (t : TableArgs) (a : IpAddr) : Prop :=
  a.isLoopback = true ∨ a ∈ t.serverIps ∨ ∃ net ∈ t.bypass, net.contains a = true

/-- A packet that the table leaves alone. -/
def Exempt (t : TableArgs) (p : Packet) : Prop :=
  p.oif = "lo" ∨ p.oif = tunName ∨ ExemptDst t p.dst

instance (t : TableArgs) (a : IpAddr) : Decidable (ExemptDst t a) :=
  inferInstanceAs (Decidable (_ ∨ _ ∨ _))

instance (t : TableArgs) (p : Packet) : Decidable (Exempt t p) :=
  inferInstanceAs (Decidable (_ ∨ _ ∨ _))

/-- The local port meant for a flow, if there is one. -/
def interceptPort (t : TableArgs) (p : Packet) : Option UInt16 :=
  match p.proto with
  | .tcp => some t.transproxyPort
  | .udp => if p.dport = 53 then some t.dnsPort
      else if t.udpPort = 0 then none else some t.udpPort
  | .other _ => none

section Chains
variable (t : TableArgs) (ct : CtState) (p : Packet)

theorem verdictOf_exemptions (v : Verdict) :
    verdictOf ct p (t.exemptions v) = if Exempt t p then some v else none := by
  have hsame : ∀ r ∈ t.exemptions v, r.verdict = v := by
    intro r hr
    simp only [TableArgs.exemptions, List.mem_append, List.mem_map, List.mem_cons,
      List.not_mem_nil, or_false] at hr
    rcases hr with ((rfl | rfl | rfl | rfl) | ⟨_, _, rfl⟩) | ⟨_, _, rfl⟩ <;> rfl
  rw [verdictOf, firstMatch_uniform _ _ hsame]
  congr 1
  simp [TableArgs.exemptions, Rule.applies, Match.holds, Dest.covers, Exempt, ExemptDst,
    IpAddr.isLoopback, or_assoc]

theorem verdictOf_redirects :
    verdictOf ct p t.redirects =
      if t.ipv6 = true ∨ IsV4 p.dst = true then (interceptPort t p).map .redirect else none := by
  by_cases h6 : t.ipv6 = true <;> by_cases h4 : IsV4 p.dst = true <;>
    by_cases hu : t.udpPort = 0 <;> cases hp : p.proto <;>
    simp [verdictOf, TableArgs.redirects, TableArgs.transport, firstMatch_cons, Rule.applies,
      Match.holds, interceptPort, h6, h4, hu, hp] <;>
    by_cases hd : p.dport = 53 <;> simp [hd]

/-- The nat chain in one line. -/
theorem natPort_eq :
    natPort t.chains ct p = if ¬ Exempt t p ∧ (t.ipv6 = true ∨ IsV4 p.dst = true)
      then interceptPort t p else none := by
  rw [natPort, TableArgs.chains, TableArgs.nat, verdictOf, firstMatch_append, ← verdictOf, ← verdictOf,
    verdictOf_exemptions, verdictOf_redirects]
  by_cases hex : Exempt t p
  · simp [hex]
  · by_cases hfam : t.ipv6 = true ∨ IsV4 p.dst = true
    · cases hport : interceptPort t p <;> simp [hex, hfam]
    · simp [hex, hfam]

theorem verdictOf_rejects :
    verdictOf ct p t.rejects =
      if (t.ipv6 = false ∧ IsV4 p.dst = false) ∨ (t.udpPort = 0 ∧ p.proto = .udp) ∨
        t.killSwitch = true then some .reject else none := by
  have hsame : ∀ r ∈ t.rejects, r.verdict = .reject := by
    intro r hr
    simp only [TableArgs.rejects, List.mem_append] at hr
    rcases hr with (hr | hr) | hr <;> split at hr <;> simp_all
  rw [verdictOf, firstMatch_uniform _ _ hsame]
  congr 1
  by_cases h6 : t.ipv6 = true <;> by_cases hu : t.udpPort = 0 <;>
    by_cases hk : t.killSwitch = true <;>
    simp [TableArgs.rejects, Rule.applies, Match.holds, h6, hu, hk]

/-- The filter chain in one line. -/
theorem accepts_eq :
    accepts t.chains ct p = true ↔ (ct = .established ∨ ct = .related) ∨ Exempt t p ∨
      ¬ ((t.ipv6 = false ∧ IsV4 p.dst = false) ∨ (t.udpPort = 0 ∧ p.proto = .udp) ∨
        t.killSwitch = true) := by
  rw [accepts, TableArgs.chains, TableArgs.filter, verdictOf, firstMatch_cons, firstMatch_append,
    ← verdictOf, ← verdictOf, verdictOf_exemptions, verdictOf_rejects]
  by_cases hct : ct = .established ∨ ct = .related
  · have happ : Rule.applies ct p ⟨[.ctState [.established, .related]], .accept⟩ = true := by
      rcases hct with rfl | rfl <;> rfl
    simp [happ, hct]
  · have happ : Rule.applies ct p ⟨[.ctState [.established, .related]], .accept⟩ = false := by
      simpa [Rule.applies, Match.holds] using hct
    by_cases hex : Exempt t p
    · simp [happ, hex]
    · split_ifs <;> simp_all

end Chains

theorem exempt_redirectTo (t : TableArgs) (p : Packet) (port : UInt16) :
    Exempt t (p.redirectTo port) := by
  have hloop := IpAddr.isLoopback_loopback p.dst
  exact .inr (.inr (.inl hloop))

/-- A redirected packet passes the filter chain. -/
theorem filtered_redirect (t : TableArgs) (ct : CtState) (p : Packet) (port : UInt16) :
    filtered t.chains ct p (some port) = .sent (p.redirectTo port) := by
  have haccept : accepts t.chains ct (p.redirectTo port) = true := by
    rw [accepts_eq]
    exact .inr (.inl (exempt_redirectTo t p port))
  simp [filtered, Packet.translate, haccept]

/-- An exempt packet keeps its destination. -/
theorem newFlow_exempt {t : TableArgs} {p : Packet} (h : Exempt t p) : newFlow t.chains p = .sent p := by
  have haccept : accepts t.chains .new p = true := by
    rw [accepts_eq]
    exact .inr (.inl h)
  simp [newFlow, natPort_eq, h, filtered, Packet.translate, haccept]

/-- A redirected packet has another destination than before. -/
theorem redirectTo_ne {t : TableArgs} {p : Packet} (h : ¬ Exempt t p) (port : UInt16) :
    p.redirectTo port ≠ p := by
  intro heq
  exact h (heq ▸ exempt_redirectTo t p port)

/-- A new TCP or UDP flow that is not exempt goes to its local port or is rejected. -/
theorem newFlow_caught {t : TableArgs} {p : Packet} (hproto : p.proto = .tcp ∨ p.proto = .udp)
    (hex : ¬ Exempt t p) :
    newFlow t.chains p = .rejected ∨
      ∃ port, interceptPort t p = some port ∧ newFlow t.chains p = .sent (p.redirectTo port) ∧
        (t.ipv6 = true ∨ IsV4 p.dst = true) := by
  by_cases hfam : t.ipv6 = true ∨ IsV4 p.dst = true
  · cases hport : interceptPort t p with
    | some port =>
      refine .inr ⟨port, rfl, ?_, hfam⟩
      rw [newFlow, natPort_eq, if_pos ⟨hex, hfam⟩, hport, filtered_redirect]
    | none =>
      have hudp : t.udpPort = 0 ∧ p.proto = .udp := by
        rcases hproto with hp | hp
        · simp [interceptPort, hp] at hport
        · simp only [interceptPort, hp] at hport
          split_ifs at hport with _ hu
          exact ⟨hu, hp⟩
      left
      simp [newFlow, natPort_eq, hport, filtered, Packet.translate, accepts_eq, hex, hudp]
  · simp only [not_or, Bool.not_eq_true] at hfam
    left
    simp [newFlow, natPort_eq, hfam, filtered, Packet.translate, accepts_eq, hex]

theorem flowUnder_renderTable (t : TableArgs) (p : Packet) :
    flowUnder (renderTable t) p = some (newFlow t.chains p) := by
  rw [flowUnder, readTable_renderTable, Option.map_some]

/-- **No clear-text escape.** Under the script, a new TCP or UDP flow that is not exempt goes to
its local port or is rejected; it never leaves with the destination it was given. -/
theorem newFlow_no_escape (t : TableArgs) (p : Packet) (hproto : p.proto = .tcp ∨ p.proto = .udp)
    (hex : ¬ Exempt t p) :
    (flowUnder (renderTable t) p = some .rejected ∨
      ∃ port, interceptPort t p = some port ∧
        flowUnder (renderTable t) p = some (.sent (p.redirectTo port))) ∧
    flowUnder (renderTable t) p ≠ some (.sent p) := by
  simp only [flowUnder_renderTable, ne_eq, Option.some.injEq]
  rcases newFlow_caught hproto hex with hrej | ⟨port, hport, hredir, -⟩
  · exact ⟨.inl hrej, by simp [hrej]⟩
  · refine ⟨.inr ⟨port, hport, hredir⟩, fun hsent => ?_⟩
    rw [hredir, Fate.sent.injEq] at hsent
    exact redirectTo_ne hex port hsent

/-- The settings of a full tunnel with one server, private networks exempt. -/
def sampleTable : TableArgs :=
  ⟨[.ofOctets 203 0 113 9], privateCidrs, true, 13450, 13453, false, 0⟩

/-- A packet to a web server, leaving by the physical interface. -/
def samplePacket : Packet :=
  ⟨"eth0", .tcp, .ofOctets 192 168 1 20, 40000, .ofOctets 93 184 216 34, 443⟩

theorem newFlow_no_escape_https :
    flowUnder (renderTable sampleTable) samplePacket =
        some (.sent (samplePacket.redirectTo 13450)) ∧
      flowUnder (renderTable sampleTable) samplePacket ≠ some (.sent samplePacket) :=
  ⟨by rw [flowUnder_renderTable]; decide,
    (newFlow_no_escape sampleTable samplePacket (by decide) (by decide)).2⟩

end EasyConnection.Nftables
