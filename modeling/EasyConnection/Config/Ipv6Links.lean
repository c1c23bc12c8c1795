import EasyConnection.Config.SsLink
import EasyConnection.Config.VlessLink

/-! # IPv6 servers in links

The host of a URL keeps the brackets around an IPv6 address. Shadowsocks links are not read as
URLs, and only there is the host an address without them.
-/
namespace EasyConnection.Config
open Codec Net

inductive LinkKind where
  | ss
  | vless
  | ssh
  deriving DecidableEq, Repr

/-- A trimmed text begins with a scheme, in letters of either case. -/
def HasScheme (scheme raw : String) : Prop :=
  scheme.toList <+: (toAsciiLowercase (trimmed raw)).toList

/-- A link whose authority is an IPv6 address in brackets and a port. -/
inductive BracketedLink (L : ImportLibrary) (address : String) (port : UInt16) :
    LinkKind → String → Prop where
  | ss {method password name raw : String}
      (hmethod : toAsciiLowercase method ∈ ["aes-128-gcm", "aes-256-gcm"]) (hport : port ≠ 0)
      (hname : ValidName name)
      (hlink : SsLink method password ("[" ++ address ++ "]") port name raw)
      (hsize : raw.utf8ByteSize ≤ maxImportBytes) : BracketedLink L address port .ss raw
  | vless {raw : String} {url : Url} (hscheme : HasScheme "vless://" raw)
      (hurl : L.parseUrl (trimmed raw) = .ok url) (hhost : url.hostStr = some ("[" ++ address ++ "]"))
      (hport : url.port = some port) : BracketedLink L address port .vless raw
  | ssh {raw : String} {url : Url} (hscheme : HasScheme "ssh://" raw)
      (hurl : L.parseUrl (trimmed raw) = .ok url) (hhost : url.hostStr = some ("[" ++ address ++ "]"))
      (hport : url.port = some port) : BracketedLink L address port .ssh raw

section Dispatch
variable {L : ImportLibrary} {id : Uuid} {now : Time} {raw : String} {p : ParsedImport}

/-- What begins with a scheme does not begin with a brace. -/
theorem HasScheme.not_brace {scheme : String} {c : Char} (hscheme : HasScheme scheme raw)
    (hfirst : scheme.toList.head? = some c) (hc : c ≠ '\x7b') :
    (trim raw.toList).head? ≠ some '\x7b' := by
  intro hbrace
  obtain ⟨t, ht⟩ := List.head?_eq_some_iff.1 hbrace
  obtain ⟨u, hu⟩ := List.head?_eq_some_iff.1 hfirst
  obtain ⟨v, hv⟩ := hscheme
  rw [toAsciiLowercase, trimmed, ht, hu, String.toList_ofList, String.toList_ofList, List.map_cons,
    List.cons_append] at hv
  exact hc (List.cons.inj hv).1

theorem HasScheme.not_ss {scheme : String} (hscheme : HasScheme scheme raw)
    (hlength : 5 ≤ scheme.toList.length) (hss : ¬"ss://".toList <+: scheme.toList) :
    ¬HasScheme "ss://" raw :=
  fun h => hss (List.prefix_of_prefix_length_le h hscheme hlength)

/-- What is neither JSON nor a Shadowsocks link is read as a URL. -/
theorem parseImport_url [Texts] (hbrace : (trim raw.toList).head? ≠ some '\x7b')
    (hss : ¬HasScheme "ss://" raw) (h : parseImport L id now raw = .ok p) :
    HasScheme "vless://" raw ∧ parseVless L id now (trimmed raw) = .ok p ∨
      HasScheme "ssh://" raw ∧ parseSsh L id now (trimmed raw) = .ok p := by
  unfold parseImport at h
  by_cases hsize : maxImportBytes < raw.utf8ByteSize
  · rw [if_pos hsize] at h
    cases h
  by_cases hnil : trim raw.toList = []
  · rw [if_neg hsize, if_pos hnil] at h
    cases h
  rw [if_neg hsize, if_neg hnil, if_neg hbrace] at h
  split at h
  · rename_i hscheme
    exact absurd hscheme hss
  split at h
  · rename_i hscheme
    exact .inl ⟨hscheme, h⟩
  split at h
  · rename_i hscheme
    exact .inr ⟨hscheme, h⟩
  · cases h

theorem not_vless_and_ssh (hvless : HasScheme "vless://" raw) (hssh : HasScheme "ssh://" raw) :
    False :=
  absurd (List.prefix_of_prefix_length_le hssh hvless (by decide)) (by decide)

theorem parseVless_of_parseImport [Texts] (hscheme : HasScheme "vless://" raw)
    (h : parseImport L id now raw = .ok p) : parseVless L id now (trimmed raw) = .ok p := by
  have hbrace := hscheme.not_brace rfl (by decide)
  have hss := hscheme.not_ss (by decide) (by decide)
  rcases parseImport_url hbrace hss h with ⟨-, h⟩ | ⟨hssh, -⟩
  · exact h
  · exact (not_vless_and_ssh hscheme hssh).elim

theorem parseSsh_of_parseImport [Texts] (hscheme : HasScheme "ssh://" raw)
    (h : parseImport L id now raw = .ok p) : parseSsh L id now (trimmed raw) = .ok p := by
  have hbrace := hscheme.not_brace rfl (by decide)
  have hss := hscheme.not_ss (by decide) (by decide)
  rcases parseImport_url hbrace hss h with ⟨hvless, -⟩ | ⟨-, h⟩
  · exact (not_vless_and_ssh hvless hscheme).elim
  · exact h

theorem parseVless_host [Texts] {url : Url} (h : parseVless L id now raw = .ok p)
    (hurl : L.parseUrl raw = .ok url) : url.hostStr = some p.config.host := by
  obtain ⟨url', host, tls, hurl', hhost, -, hcfg, -⟩ := parseVless_eq_ok h
  obtain rfl := Except.ok.inj (hurl.symm.trans hurl')
  rw [hhost, hcfg.host]
  rfl

theorem parseSsh_host [Texts] {url : Url} (h : parseSsh L id now raw = .ok p)
    (hurl : L.parseUrl raw = .ok url) : url.hostStr = some p.config.host := by
  unfold parseSsh at h
  rw [hurl] at h
  obtain ⟨_, hparsed, h⟩ := except_bind_eq_ok.1 h
  obtain rfl := Except.ok.inj hparsed
  obtain ⟨host, hhost, h⟩ := except_bind_eq_ok.1 h
  by_cases huser : url.username = ""
  · simp only [huser, if_true] at h
    cases h
  · simp only [huser, if_false] at h
    obtain ⟨_, -, hp⟩ := except_bind_eq_ok.1 h
    cases hp
    exact okOr_eq_ok.1 hhost

end Dispatch

section Addresses
variable {L : ImportLibrary} {id : Uuid} {now : Time} {raw : String}

/-- A host in brackets is no address. -/
theorem no_address_of_brackets {cfg : ConnectionConfig} {address : String} {a : IpAddr}
    (hhost : some ("[" ++ address ++ "]") = some cfg.host) : parseIpAddr cfg.host ≠ some a := by
  have hnone := parseIpAddr_bracket (address.toList ++ [']'])
  have heq : cfg.host = String.ofList ('[' :: (address.toList ++ [']'])) := by
    rw [← Option.some.inj hhost]
    exact String.toList_inj.1 (by simp)
  rw [heq, hnone]
  exact fun h => by cases h

/-- Exactly Shadowsocks links give the address. -/
theorem ipv6_host_imported_iff [Texts] (hL : DecodesBase64 L) {address : String} {a : BitVec 128}
    (haddress : parseIpAddr address = some (.v6 a)) {port : UInt16} {kind : LinkKind}
    (hlink : BracketedLink L address port kind raw) :
    (∃ p, parseImport L id now raw = .ok p ∧ parseIpAddr p.config.host = some (.v6 a) ∧
      p.config.port = port) ↔ kind = .ss := by
  cases hlink with
  | ss hmethod hport hname hlink hsize =>
    have hparsed : parseImport L id now raw = .ok _ :=
      hlink.parseImport_eq hmethod (.v6 haddress) hport hname hsize hL
    exact iff_of_true ⟨_, hparsed, haddress, rfl⟩ rfl
  | vless hscheme hurl hhost hport =>
    refine iff_of_false ?_ (by decide)
    rintro ⟨p, hp, hparsed, -⟩
    have hkept := parseVless_host (parseVless_of_parseImport hscheme hp) hurl
    exact no_address_of_brackets (hhost.symm.trans hkept) hparsed
  | ssh hscheme hurl hhost hport =>
    refine iff_of_false ?_ (by decide)
    rintro ⟨p, hp, hparsed, -⟩
    have hkept := parseSsh_host (parseSsh_of_parseImport hscheme hp) hurl
    exact no_address_of_brackets (hhost.symm.trans hkept) hparsed

open Sample

theorem bracketed_ss_link_gives_address :
    ∃ p, parseImport base64Library 1 0 "ss://aes-256-gcm:pw@[2001:db8::1]:8388#Home" = .ok p ∧
      parseIpAddr p.config.host = some (.v6 0x20010db8000000000000000000000001) ∧
      p.config.port = 8388 := by
  have haddress : parseIpAddr "2001:db8::1" = some (.v6 0x20010db8000000000000000000000001) := by
    decide
  have hlink : SsLink "aes-256-gcm" "pw" ("[" ++ "2001:db8::1" ++ "]") 8388 "Home"
      "ss://aes-256-gcm:pw@[2001:db8::1]:8388#Home" :=
    .clear (escaped_unreserved (List.all_eq_true.1 (by decide))) home_escaped
  exact (ipv6_host_imported_iff base64Library_decodes haddress
    (.ss (by decide) (by decide) home_valid hlink (by decide))).2 rfl

def bracketedLink : String := "vless://b831381d-6324-4d53-ad4f-8cda48b30811@[2001:db8::1]:443#Home"

/-- A library that knows a link with brackets. -/
def bracketLibrary : ImportLibrary :=
  { base64Library with
    parseUrl := fun raw =>
      if raw = bracketedLink then
        .ok ⟨"b831381d-6324-4d53-ad4f-8cda48b30811", none, some "[2001:db8::1]", some 443, [],
          some "Home"⟩
      else .error "relative URL without a base" }

theorem bracketed_vless_host_keeps_brackets :
    BracketedLink bracketLibrary "2001:db8::1" 443 .vless bracketedLink ∧
      parseIpAddr "2001:db8::1" = some (.v6 0x20010db8000000000000000000000001) ∧
      ∃ p, parseImport bracketLibrary 1 0 bracketedLink = .ok p ∧
        p.config.host = "[2001:db8::1]" ∧ parseIpAddr "[2001:db8::1]" = none := by
  refine ⟨.vless ?_ rfl rfl rfl, by decide +kernel, _, rfl, rfl, by decide +kernel⟩
  unfold HasScheme
  decide

end Addresses

end EasyConnection.Config
