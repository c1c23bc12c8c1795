import EasyConnection.Async.Fallback
import EasyConnection.Config.Model
import EasyConnection.Dns.Policy
import EasyConnection.Net.Display

/-! # Where a DNS query is sent

A query is sent through the UDPGW gateway to one server after another, and then, unless DNS over
TCP is off, over TCP to one server after another, until there is an answer.
-/
namespace EasyConnection.Dns
open Async Net Config

section Address

/-- A port up to the end of the text. -/
def readPort (cs : List Char) : Option UInt16 := do
  let cs ← readGiven ':' cs
  let (n, rest) ← readNumber 10 cs.length 65536 true cs
  if rest = [] then return UInt16.ofNat n else none

/-- The scope of an address is read and not used. -/
def readScope (cs : List Char) : Option (List Char) :=
  match readGiven '%' cs with
  | some cs => (readNumber 10 cs.length 4294967296 true cs).map Prod.snd
  | none => some cs

def readSocketAddrV6 (cs : List Char) : Option SocketAddr := do
  let cs ← readGiven '[' cs
  let (a, cs) ← readIpv6 cs
  let cs ← readScope cs
  let cs ← readGiven ']' cs
  let port ← readPort cs
  return ⟨.v6 a, port⟩

def parseSocketAddr (s : String) : Option SocketAddr :=
  match (readIpv4 s.toList).bind fun (a, rest) => (readPort rest).map (⟨.v4 a, ·⟩) with
  | some addr => some addr
  | none => readSocketAddrV6 s.toList

/-- The address of a server for the gateway: its text with a port, or else the text as an
address. -/
def gatewayDest (host : String) : Option SocketAddr :=
  match parseSocketAddr (host ++ ":53") with
  | some addr => some addr
  | none => (parseIpAddr host).map (⟨·, 53⟩)

/-- An address is printed without brackets. -/
theorem readGiven_bracket_text (a : IpAddr) {rest : List Char} (h : rest.head? ≠ some '[') :
    readGiven '[' (a.text.toList ++ rest) = none := by
  cases hcs : a.text.toList ++ rest with
  | nil => rfl
  | cons c cs =>
    rw [readGiven, if_neg]
    rintro rfl
    cases htext : a.text.toList with
    | nil =>
      rw [htext, List.nil_append] at hcs
      rw [hcs] at h
      exact h rfl
    | cons d ds =>
      rw [htext, List.cons_append, List.cons.injEq] at hcs
      have hparse := parseIpAddr_text a
      rw [← String.ofList_toList (s := a.text), htext, hcs.1, parseIpAddr_bracket] at hparse
      cases hparse

/-- Every address is reached at port 53 by the text that is printed for it. -/
theorem gatewayDest_text (a : IpAddr) : gatewayDest a.text = some ⟨a, 53⟩ := by
  rw [gatewayDest, parseSocketAddr, String.toList_append]
  cases a with
  | v4 a =>
    have hread : readIpv4 ((v4Text a).toList ++ ":53".toList) = some (a, ":53".toList) :=
      readIpv4_v4Text a (bounded_cons (show digitValue 10 ':' = none by decide))
    rw [IpAddr.text, hread]
    rfl
  | v6 a =>
    have hbracket := readGiven_bracket_text (.v6 a) (show ":53".toList.head? ≠ some '[' by decide)
    rw [readSocketAddrV6, hbracket, IpAddr.text, readIpv4_v6Text a (by decide)]
    have hparse := parseIpAddr_text (.v6 a)
    rw [IpAddr.text] at hparse
    change (parseIpAddr (v6Text a)).map _ = _
    rw [hparse]
    rfl

end Address

inductive Attempt where
  | gateway (dest : SocketAddr)
  | tcp (host : String)
  deriving DecidableEq

/-- The answer, if there is one. -/
def Attempt.Answer (_ : Attempt) : Type := Option (List UInt8)

abbrev ResolveM := Prog Attempt Attempt.Answer

/-- An empty answer of the gateway is none. -/
def accepted : (o : Attempt) → o.Answer → Option (List UInt8)
  | .gateway _, answer => answer.filter (· ≠ [])
  | .tcp _, answer => answer

def effectiveServers (servers : List String) : List String :=
  if servers = [] then defaultDnsServers else servers

def queryGateway : List String → ResolveM (Option (List UInt8))
  | [] => return none
  | host :: rest =>
    match gatewayDest host with
    | none => queryGateway rest
    | some dest => do
      match ← Prog.perform (Attempt.gateway dest) with
      | some resp => if resp ≠ [] then return some resp else queryGateway rest
      | none => queryGateway rest

def queryTcp : List String → ResolveM (Option (List UInt8))
  | [] => return none
  | host :: rest => do
    match ← Prog.perform (Attempt.tcp host) with
    | some resp => return some resp
    | none => queryTcp rest

def dnsOverTcpQuery (servers : List String) : ResolveM (Option (List UInt8)) :=
  queryTcp (effectiveServers servers)

def resolveDnsQuery (servers : List String) (udpgw : Bool) (dnsOverTcp : DnsOverTcp) :
    ResolveM (Option (List UInt8)) :=
  if udpgw then do
    match ← queryGateway (effectiveServers servers) with
    | some resp => return some resp
    | none => if dnsOverTcp = .off then return none else dnsOverTcpQuery servers
  else if dnsOverTcp = .off then return none
  else dnsOverTcpQuery servers

/-- What is tried, in this order. -/
def plan (servers : List String) (udpgw : Bool) (dnsOverTcp : DnsOverTcp) : List Attempt :=
  (if udpgw then ((effectiveServers servers).filterMap gatewayDest).map .gateway else []) ++
    if dnsOverTcp = .off then [] else (effectiveServers servers).map .tcp

section Plan

theorem queryGateway_eq (servers : List String) :
    queryGateway servers =
      Prog.firstSome accepted ((servers.filterMap gatewayDest).map .gateway) := by
  induction servers with
  | nil => rfl
  | cons host rest ih =>
    rw [queryGateway]
    split
    · next hnone => rw [ih, List.filterMap_cons_none hnone]
    · next dest hsome =>
      rw [List.filterMap_cons_some hsome, List.map_cons, Prog.firstSome]
      change Prog.call (Attempt.gateway dest) _ = _
      congr 1
      funext answer
      cases answer with
      | none => exact ih
      | some resp =>
        by_cases hresp : resp = []
        · subst hresp
          exact ih
        · change (if resp ≠ [] then pure (some resp) else queryGateway rest) = _
          have haccepted : accepted (.gateway dest) (some resp) = some resp := by
            simp [accepted, Option.filter, hresp]
          rw [if_pos hresp]
          unfold Prog.orNext
          rw [haccepted]
          rfl

theorem queryTcp_eq (servers : List String) :
    queryTcp servers = Prog.firstSome accepted (servers.map .tcp) := by
  induction servers with
  | nil => rfl
  | cons host rest ih =>
    change Prog.call (Attempt.tcp host) _ = Prog.call (Attempt.tcp host) _
    congr 1
    funext answer
    cases answer with
    | none => exact ih
    | some resp => rfl

/-- The code tries what is planned until it has an answer. -/
theorem resolveDnsQuery_eq (servers : List String) (udpgw : Bool) (dnsOverTcp : DnsOverTcp) :
    resolveDnsQuery servers udpgw dnsOverTcp =
      Prog.firstSome accepted (plan servers udpgw dnsOverTcp) := by
  unfold resolveDnsQuery plan dnsOverTcpQuery
  cases udpgw with
  | false =>
    rw [if_neg Bool.false_ne_true, if_neg Bool.false_ne_true, List.nil_append]
    split_ifs
    · rfl
    · exact queryTcp_eq _
  | true =>
    rw [if_pos rfl, if_pos rfl, Prog.firstSome_append, queryGateway_eq]
    congr 1
    funext r
    cases r with
    | some resp => rfl
    | none =>
      split_ifs
      · rfl
      · exact queryTcp_eq _

theorem mem_plan {servers : List String} {udpgw : Bool} {dnsOverTcp : DnsOverTcp} {o : Attempt}
    (h : o ∈ plan servers udpgw dnsOverTcp) :
    (∃ host ∈ effectiveServers servers, ∃ dest, o = .gateway dest ∧ udpgw = true ∧
      gatewayDest host = some dest) ∨
    ∃ host ∈ effectiveServers servers, o = .tcp host ∧ dnsOverTcp ≠ .off := by
  unfold plan at h
  rcases List.mem_append.1 h with h | h
  · left
    split_ifs at h with hudpgw
    · obtain ⟨dest, hdest, rfl⟩ := List.mem_map.1 h
      obtain ⟨host, hhost, hdest⟩ := List.mem_filterMap.1 hdest
      exact ⟨host, hhost, dest, rfl, hudpgw, hdest⟩
    · cases h
  · right
    split_ifs at h with hoff
    · cases h
    · obtain ⟨host, hhost, rfl⟩ := List.mem_map.1 h
      exact ⟨host, hhost, rfl, hoff⟩

/-- A server that is given by its address is asked through the gateway. -/
theorem gateway_mem_plan {servers : List String} {dnsOverTcp : DnsOverTcp} {a : IpAddr}
    (h : a.text ∈ effectiveServers servers) : .gateway ⟨a, 53⟩ ∈ plan servers true dnsOverTcp := by
  unfold plan
  rw [if_pos rfl]
  refine List.mem_append_left _ (List.mem_map_of_mem ?_)
  exact List.mem_filterMap.2 ⟨a.text, h, gatewayDest_text a⟩

/-- Whatever the gateway and the servers answer, a query goes first through the gateway to the
configured servers that are addresses, in their order, and only when all of these have failed over
TCP to the configured servers, in their order, and not at all if DNS over TCP is off. The first
answer is the result, and there is none only if everything planned has failed, the gateway for
every server given by its address among it. -/
theorem query_goes_by_plan {servers : List String} {udpgw : Bool} {dnsOverTcp : DnsOverTcp}
    {calls : List ((o : Attempt) × o.Answer)} {r : Option (List UInt8)}
    (h : Prog.Trace (resolveDnsQuery servers udpgw dnsOverTcp) calls r) :
    calls.map Sigma.fst <+: plan servers udpgw dnsOverTcp ∧
    Prog.Tried accepted (plan servers udpgw dnsOverTcp) calls r ∧
    (∀ c ∈ calls, (∃ host ∈ effectiveServers servers, ∃ dest, c.1 = .gateway dest ∧
        udpgw = true ∧ gatewayDest host = some dest) ∨
      ∃ host ∈ effectiveServers servers, c.1 = .tcp host ∧ dnsOverTcp ≠ .off) ∧
    (r = none → udpgw = true → ∀ a : IpAddr, a.text ∈ effectiveServers servers →
      .gateway ⟨a, 53⟩ ∈ calls.map Sigma.fst) := by
  rw [resolveDnsQuery_eq] at h
  obtain ⟨hfirst, hresult⟩ := Prog.Trace.firstSome h
  refine ⟨hfirst, hresult, fun c hc => mem_plan (hfirst.subset (List.mem_map_of_mem hc)), ?_⟩
  rintro rfl rfl a ha
  rw [hresult.1]
  exact gateway_mem_plan ha

/-- The gateway has no answer, and the first server has one over TCP. -/
theorem query_goes_to_tcp :
    [Attempt.gateway ⟨.ofOctets 1 1 1 1, 53⟩, .gateway ⟨.ofOctets 8 8 8 8, 53⟩, .tcp "1.1.1.1"] <+:
      plan [] true .auto := by
  have htrace : Prog.Trace (resolveDnsQuery [] true .auto)
      [⟨.gateway ⟨.ofOctets 1 1 1 1, 53⟩, some []⟩, ⟨.gateway ⟨.ofOctets 8 8 8 8, 53⟩, none⟩,
        ⟨.tcp "1.1.1.1", some [7]⟩] (some [7]) := by
    rw [resolveDnsQuery_eq]
    exact .call (.call (.call (.ret _)))
  exact (query_goes_by_plan htrace).1

end Plan

end EasyConnection.Dns
