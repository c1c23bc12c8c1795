import EasyConnection.Codec.Words
import EasyConnection.Net.Display
import EasyConnection.Nftables.Rules

/-! # The script as `nft` reads it

`readTable` reads the two chains back from their text, line by line and word by word.
-/
namespace EasyConnection.Nftables
open Net Codec

structure Chains where
  nat : List Rule
  filter : List Rule
  deriving DecidableEq

def TableArgs.chains (t : TableArgs) : Chains := ⟨t.nat, t.filter⟩

section Reader

def readState : String → Option CtState
  | "established" => some .established
  | "related" => some .related
  | _ => none

def readStates (word : String) : Option (List CtState) :=
  (word.toList.splitOn ',').mapM fun s => readState (String.ofList s)

def readProto : String → Option Proto
  | "tcp" => some .tcp
  | "udp" => some .udp
  | _ => none

def readQuoted (word : String) : Option String :=
  match splitOnce '"' word.toList with
  | some ([], rest) =>
    match splitOnce '"' rest with
    | some (name, []) => some (String.ofList name)
    | _ => none
  | _ => none

def netOf : IpAddr → ℕ → Option IpNet
  | .v4 a, n => if h : n < 33 then some (.v4 a ⟨n, h⟩) else none
  | .v6 a, n => if h : n < 129 then some (.v6 a ⟨n, h⟩) else none

/-- An address, or an address and the length of a prefix. -/
def readDest (word : String) : Option Dest :=
  match splitOnce '/' word.toList with
  | none => (parseIpAddr word).map .addr
  | some (addr, length) => do
    let net ← netOf (← parseIpAddr (String.ofList addr)) (← parseU16 length).toNat
    return .net net

def Dest.isV4 : Dest → Bool
  | .addr (.v4 _) => true
  | .net (.v4 _ _) => true
  | _ => false

/-- A rule with one more condition. -/
def given (m : Option Match) (r : Option Rule) : Option Rule := do
  let r ← r
  return ⟨(← m) :: r.conditions, r.verdict⟩

def readRule : List String → Option Rule
  | ["return"] => some ⟨[], .ret⟩
  | ["accept"] => some ⟨[], .accept⟩
  | ["reject", "with", "icmpx", "type", "admin-prohibited"] => some ⟨[], .reject⟩
  | ["redirect", "to", target] =>
    match target.toList with
    | ':' :: port => (parseU16 port).map fun port => ⟨[], .redirect port⟩
    | _ => none
  | "ct" :: "state" :: states :: rest => given ((readStates states).map .ctState) (readRule rest)
  | "oifname" :: name :: rest => given ((readQuoted name).map .oifname) (readRule rest)
  | "ip" :: "daddr" :: dest :: rest =>
    given (((readDest dest).filter (·.isV4)).map .daddr) (readRule rest)
  | "ip6" :: "daddr" :: dest :: rest =>
    given (((readDest dest).filter (!·.isV4)).map .daddr) (readRule rest)
  | "ip" :: "protocol" :: proto :: rest => given ((readProto proto).map .ipProtocol) (readRule rest)
  | "meta" :: "l4proto" :: proto :: rest => given ((readProto proto).map .l4proto) (readRule rest)
  | "meta" :: "nfproto" :: "ipv6" :: rest => given (some .nfprotoIpv6) (readRule rest)
  | "udp" :: "dport" :: port :: rest => given ((parseU16 port.toList).map .udpDport) (readRule rest)
  | _ => none

def readRules : List (List String) → Option (List Rule × List (List String))
  | ["\x7d"] :: rest => some ([], rest)
  | line :: rest => do
    let r ← readRule line
    let (rules, rest) ← readRules rest
    return (r :: rules, rest)
  | [] => none

def readChain (name : String) (hook : List String) :
    List (List String) → Option (List Rule × List (List String))
  | ["chain", name', "\x7b"] :: hook' :: rest =>
    if name' = name ∧ hook' = hook then readRules rest else none
  | _ => none

def readTable (script : String) : Option Chains :=
  match wordLines script.toList with
  | ["table", "inet", name, "\x7b"] :: rest => do
    let (nat, rest) ← readChain "output_nat"
      ["type", "nat", "hook", "output", "priority", "-100;", "policy", "accept;"] rest
    let (filter, rest) ← readChain "output_filter"
      ["type", "filter", "hook", "output", "priority", "0;", "policy", "accept;"] rest
    if name = nftTable ∧ rest = [["\x7d"]] then return ⟨nat, filter⟩ else none
  | _ => none

end Reader

section RoundTrip

/-- The rule is read back from its line. -/
def Reads (r : Rule) : Prop := readRule r.words = some r ∧ ∀ w ∈ r.words, IsWord w

instance (r : Rule) : Decidable (Reads r) := inferInstanceAs (Decidable (_ ∧ _))

theorem ipv6Char_text {a : IpAddr} {c : Char} (h : c ∈ a.text.toList) : ipv6Char c := by
  have hparse := parseIpAddr_text a
  cases a with
  | v4 a => exact ipv6Char_of_ipv4Char ((parseIpAddr_v4 hparse).1 c h)
  | v6 a => exact (parseIpAddr_v6 hparse).1 c h

theorem slash_not_mem_text (a : IpAddr) : '/' ∉ a.text.toList := fun h =>
  absurd (ipv6Char_text h) (by unfold ipv6Char; decide)

theorem isWord_of_ipv6Char {c : Char} (h : ipv6Char c) : isWhitespace c = false := by
  rcases h with h | rfl | rfl
  · rw [digitValue_isSome] at h
    simp only [isWhitespace, Bool.or_eq_false_iff, Bool.and_eq_false_iff, decide_eq_false_iff_not, beq_eq_false_iff_ne]
    omega
  · rfl
  · rfl

theorem isWord_text (a : IpAddr) : IsWord a.text := by
  refine ⟨fun h => ?_, fun c hc => isWord_of_ipv6Char (ipv6Char_text hc)⟩
  have hparse := parseIpAddr_text a
  rw [h, show parseIpAddr "" = none by decide] at hparse
  cases hparse

theorem readDest_addr (a : IpAddr) : readDest a.text = some (.addr a) := by
  rw [readDest, splitOnce_of_not_mem (slash_not_mem_text a), parseIpAddr_text]
  rfl

theorem parseU16_toString {n : ℕ} (h : n < 2 ^ 16) :
    parseU16 (toString n).toList = some (UInt16.ofNat n) := by
  have hn : (UInt16.ofNat n).toNat = n := by simpa using h
  rw [← parseU16_toDigits, hn]
  simp

theorem readDest_slash {a : IpAddr} {n : ℕ} {net : IpNet} (hn : n < 2 ^ 16) (hnet : netOf a n = some net) :
    readDest (a.text ++ "/" ++ toString n) = some (.net net) := by
  have hcut : (a.text ++ "/" ++ toString n).toList = a.text.toList ++ '/' :: (toString n).toList := by
    rw [String.toList_append, String.toList_append, List.append_assoc]
    rfl
  have hback : (UInt16.ofNat n).toNat = n := by simpa using hn
  rw [readDest, hcut, splitOnce_append (slash_not_mem_text a)]
  simp only [String.ofList_toList, parseIpAddr_text, parseU16_toString hn, Option.bind_eq_bind,
    Option.bind_some, hback, hnet]
  rfl

theorem readDest_net (n : IpNet) : readDest n.text = some (.net n) := by
  cases n with
  | v4 a len => exact readDest_slash (a := .v4 a) (by omega) (dif_pos len.isLt)
  | v6 a len => exact readDest_slash (a := .v6 a) (by omega) (dif_pos len.isLt)

theorem readRule_dest (d : Dest) (ws : List String) :
    readRule (d.words ++ ws) = given (some (.daddr d)) (readRule ws) := by
  rcases d with (a | a) | (⟨a, len⟩ | ⟨a, len⟩)
  · change given (((readDest (IpAddr.v4 a).text).filter _).map _) _ = _
    rw [readDest_addr]
    rfl
  · change given (((readDest (IpAddr.v6 a).text).filter _).map _) _ = _
    rw [readDest_addr]
    rfl
  · change given (((readDest (IpNet.v4 a len).text).filter _).map _) _ = _
    rw [readDest_net]
    rfl
  · change given (((readDest (IpNet.v6 a len).text).filter _).map _) _ = _
    rw [readDest_net]
    rfl

theorem isWord_append {s t : String} (hs : IsWord s) (ht : ∀ c ∈ t.toList, isWhitespace c = false) :
    IsWord (s ++ t) := by
  refine ⟨fun h => hs.1 (String.append_eq_empty_iff.1 h).1, fun c hc => ?_⟩
  rw [String.toList_append, List.mem_append] at hc
  exact hc.elim (hs.2 c) (ht c)

theorem isWord_digits (n : ℕ) : ∀ c ∈ (toString n).toList, isWhitespace c = false := by
  intro c hc
  have hmem : c ∈ Nat.toDigits 10 n := by simpa using hc
  have hdigit := isSome_of_mem_toDigits (by decide) (by decide) hmem
  exact isWord_of_ipv6Char (ipv6Char_of_ipv4Char (.inl hdigit))

theorem isWord_net (n : IpNet) : IsWord n.text := by
  have hslash (a : IpAddr) : IsWord (a.text ++ "/") :=
    isWord_append (isWord_text a) fun c hc => by rw [List.mem_singleton.1 hc]; rfl
  cases n with
  | v4 a len => exact isWord_append (hslash (.v4 a)) (isWord_digits len)
  | v6 a len => exact isWord_append (hslash (.v6 a)) (isWord_digits len)

theorem isWord_dest (d : Dest) : ∀ w ∈ d.words, IsWord w := by
  have hwords {x y z : String} (hx : IsWord x) (hy : IsWord y) (hz : IsWord z) :
      ∀ w ∈ [x, y, z], IsWord w := by simp [hx, hy, hz]
  rcases d with (a | a) | (⟨a, len⟩ | ⟨a, len⟩)
  · exact hwords (by decide) (by decide) (isWord_text (.v4 a))
  · exact hwords (by decide) (by decide) (isWord_text (.v6 a))
  · exact hwords (by decide) (by decide) (isWord_net (.v4 a len))
  · exact hwords (by decide) (by decide) (isWord_net (.v6 a len))

/-- The condition is read back, whatever follows it. -/
def Match.Reads (m : Match) : Prop :=
  (∀ ws, readRule (m.words ++ ws) = given (some m) (readRule ws)) ∧ ∀ w ∈ m.words, IsWord w

theorem Match.Reads.given {m : Match} (hm : m.Reads) {ms : List Match} {v : Verdict}
    (hr : Nftables.Reads ⟨ms, v⟩) : Nftables.Reads ⟨m :: ms, v⟩ := by
  have hwords : Rule.words ⟨m :: ms, v⟩ = m.words ++ Rule.words ⟨ms, v⟩ := by
    simp [Rule.words]
  rw [Nftables.Reads, hwords, hm.1, hr.1]
  exact ⟨rfl, List.forall_mem_append.2 ⟨hm.2, hr.2⟩⟩

theorem reads_daddr (d : Dest) : (Match.daddr d).Reads := ⟨readRule_dest d, isWord_dest d⟩

theorem reads_redirect (port : UInt16) : Reads ⟨[], .redirect port⟩ := by
  have hport : parseU16 (toString port).toList = some port := by
    change parseU16 (toString port.toNat).toList = _
    rw [parseU16_toString port.toNat_lt, UInt16.ofNat_toNat]
  have htarget : (":" ++ toString port).toList = ':' :: (toString port).toList := by
    rw [String.toList_append]
    rfl
  constructor
  · change (match (":" ++ toString port).toList with
      | ':' :: port => (parseU16 port).map fun port => (⟨[], .redirect port⟩ : Rule)
      | _ => none) = _
    rw [htarget]
    simp [hport]
  · have hword : IsWord (":" ++ toString port) := isWord_append (by decide) (isWord_digits port.toNat)
    simp [Rule.words, Verdict.words, hword, show IsWord "redirect" by decide, show IsWord "to" by decide]

theorem reads_exemptions (t : TableArgs) {v : Verdict} (hv : v = .ret ∨ v = .accept) :
    ∀ r ∈ t.exemptions v, Reads r := by
  have hread : Reads ⟨[], v⟩ := by rcases hv with rfl | rfl <;> decide
  simp only [TableArgs.exemptions, List.forall_mem_append, List.forall_mem_map, List.forall_mem_cons]
  refine ⟨⟨⟨?_, ?_, (reads_daddr _).given hread, (reads_daddr _).given hread, fun _ h => by cases h⟩,
    fun ip _ => (reads_daddr _).given hread⟩, fun net _ => (reads_daddr _).given hread⟩
  · rcases hv with rfl | rfl <;> decide
  · rcases hv with rfl | rfl <;> decide

theorem reads_redirects (t : TableArgs) : ∀ r ∈ t.redirects, Reads r := by
  have hudp : (t.transport .udp).Reads := by
    unfold TableArgs.transport
    split_ifs <;> exact ⟨fun _ => rfl, by decide⟩
  have htcp : (t.transport .tcp).Reads := by
    unfold TableArgs.transport
    split_ifs <;> exact ⟨fun _ => rfl, by decide⟩
  have hdns : (Match.udpDport 53).Reads := ⟨fun _ => rfl, by decide⟩
  simp only [TableArgs.redirects, List.forall_mem_append, List.forall_mem_cons]
  refine ⟨⟨hudp.given (hdns.given (reads_redirect _)), htcp.given (reads_redirect _),
    fun _ h => by cases h⟩, ?_⟩
  split_ifs
  · exact List.forall_mem_singleton.2 (hudp.given (reads_redirect _))
  · exact fun _ h => by cases h

theorem reads_rejects (t : TableArgs) : ∀ r ∈ t.rejects, Reads r := by
  simp only [TableArgs.rejects, List.forall_mem_append]
  refine ⟨⟨?_, ?_⟩, ?_⟩ <;> split_ifs <;> decide

theorem wordLines_text {r : Rule} (h : Reads r) (rest : List Char) :
    wordLines (r.text.toList ++ rest) = r.words :: wordLines rest := by
  have hcut : r.text.toList ++ rest = ("    " ++ " ".intercalate r.words).toList ++ '\n' :: rest := by
    rw [Rule.text, String.toList_append, List.append_assoc]
    rfl
  have hwords : words ("    " ++ " ".intercalate r.words).toList = r.words := by
    rw [String.toList_append]
    refine Eq.trans ?_ (words_intercalate h.2)
    change words (' ' :: ' ' :: ' ' :: ' ' :: _) = _
    simp only [words, parts_cons (List.mem_singleton.2 rfl)]
    rfl
  have hline : '\n' ∉ ("    " ++ " ".intercalate r.words).toList := by
    rw [String.toList_append, List.mem_append]
    exact not_or.2 ⟨by decide, newline_not_mem_intercalate h.2⟩
  have hne : words ("    " ++ " ".intercalate r.words).toList ≠ [] := by
    rw [hwords]
    exact fun hnil => absurd (hnil ▸ h.1) (by simp [readRule])
  rw [hcut, wordLines_cut, wordLines_line hline hne, hwords, List.singleton_append]

theorem wordLines_rules {rules : List Rule} (h : ∀ r ∈ rules, Reads r) (rest : List Char) :
    wordLines ((String.join (rules.map Rule.text)).toList ++ rest) =
      rules.map Rule.words ++ wordLines rest := by
  rw [String.toList_join, List.flatMap_map]
  induction rules with
  | nil => rfl
  | cons r rules ih =>
    obtain ⟨hr, hrules⟩ := List.forall_mem_cons.1 h
    rw [List.flatMap_cons, List.append_assoc, wordLines_text hr, ih hrules]
    rfl

theorem readRules_rules {rules : List Rule} (h : ∀ r ∈ rules, Reads r) (rest : List (List String)) :
    readRules (rules.map Rule.words ++ ["\x7d"] :: rest) = some (rules, rest) := by
  induction rules with
  | nil => rfl
  | cons r rules ih =>
    obtain ⟨hr, hrules⟩ := List.forall_mem_cons.1 h
    have hbrace : r.words ≠ ["\x7d"] := fun hnil => absurd (hnil ▸ hr.1) (by simp [readRule])
    rw [List.map_cons, List.cons_append, readRules, hr.1, ih hrules]
    · rfl
    · exact hbrace

theorem reads_nat (t : TableArgs) : ∀ r ∈ t.nat, Reads r :=
  List.forall_mem_append.2 ⟨reads_exemptions t (.inl rfl), reads_redirects t⟩

theorem reads_filter (t : TableArgs) : ∀ r ∈ t.filter, Reads r :=
  List.forall_mem_cons.2 ⟨by decide, List.forall_mem_append.2
    ⟨reads_exemptions t (.inr rfl), reads_rejects t⟩⟩

/-- The fixed lines of the script before, between and after the rules. -/
def natHead : String :=
  "table inet " ++ nftTable ++ " \x7b\n" ++
    "\n  chain output_nat \x7b\n    type nat hook output priority -100; policy accept;\n"

def filterHead : String :=
  "  \x7d\n" ++
    "\n  chain output_filter \x7b\n    type filter hook output priority 0; policy accept;\n"

def tableEnd : String := "  \x7d\n" ++ "\x7d\n"

theorem wordLines_renderTable (t : TableArgs) :
    wordLines (renderTable t).toList =
      wordLines natHead.toList ++ (t.nat.map Rule.words ++
        (wordLines filterHead.toList ++ (t.filter.map Rule.words ++ wordLines tableEnd.toList))) := by
  have hparts : renderTable t =
      natHead ++ (String.join (t.nat.map Rule.text) ++
        (filterHead ++ (String.join (t.filter.map Rule.text) ++ tableEnd))) := by
    unfold renderTable natHead filterHead tableEnd
    repeat rw [String.append_assoc]
  rw [hparts]
  simp only [String.toList_append]
  rw [wordLines_append (by decide), wordLines_rules (reads_nat t), wordLines_append (by decide),
    wordLines_rules (reads_filter t)]

/-- The script says what the chains are. -/
theorem readTable_renderTable (t : TableArgs) : readTable (renderTable t) = some t.chains := by
  have hnat : wordLines natHead.toList =
      [["table", "inet", nftTable, "\x7b"], ["chain", "output_nat", "\x7b"],
        ["type", "nat", "hook", "output", "priority", "-100;", "policy", "accept;"]] := by decide
  have hfilter : wordLines filterHead.toList =
      [["\x7d"], ["chain", "output_filter", "\x7b"],
        ["type", "filter", "hook", "output", "priority", "0;", "policy", "accept;"]] := by decide
  have hend : wordLines tableEnd.toList = [["\x7d"], ["\x7d"]] := by decide
  rw [readTable, wordLines_renderTable, hnat, hfilter, hend]
  simp only [List.cons_append, List.nil_append, readChain, and_self, if_true,
    readRules_rules (reads_nat t), readRules_rules (reads_filter t), Option.bind_eq_bind,
    Option.bind_some]
  rfl

end RoundTrip

end EasyConnection.Nftables
