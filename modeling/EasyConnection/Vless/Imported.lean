import EasyConnection.Config.VlessLink
import EasyConnection.Vless.Engine

/-! # Links and the engines

A link declares a network and a security. The import writes them into the settings and chooses a
transport by them, and the adapter of the engines reads all three. What it reads is what the link
declares, but for HTTP Upgrade, where a server name or ALPN is taken as the sign of TLS.
-/
namespace EasyConnection.Vless
open Codec Config

section Names

theorem normalizeNetwork_networkOf {v : String}
    (h : networkOf v ∈ ["tcp", "raw", "none", ""] ++ ["ws", "websocket"] ++
      ["httpupgrade", "http_upgrade"] ++ ["grpc", "xhttp"]) :
    normalizeNetwork (networkOf v) = normalizeNetwork v := by
  revert h
  rw [normalizeNetwork_eq v]
  unfold networkOf
  split
  case h_6 =>
    intro hmem
    simp only [List.cons_append, List.nil_append, List.mem_cons, List.not_mem_nil, or_false] at hmem
    rcases hmem with hname | hname | hname | hname | hname | hname | hname | hname | hname | hname
    all_goals rw [hname]; rfl
  all_goals
    rename_i hname
    intro _
    rw [hname]
    rfl

theorem normalizeSecurity_toAsciiLowercase {v : String}
    (h : toAsciiLowercase v ∈ ["none", "", "tls", "reality"]) :
    normalizeSecurity (toAsciiLowercase v) = normalizeSecurity v := by
  rw [normalizeSecurity_eq v]
  simp only [List.mem_cons, List.not_mem_nil, or_false] at h
  rcases h with hname | hname | hname | hname
  all_goals rw [hname]; rfl

end Names

section Effective
variable {cfg : ConnectionConfig} {network security : String} {tls : Bool}

theorem usesTls_eq_ok (h : usesTls security = .ok tls) :
    tls = false ∧ (security = "none" ∨ security = "") ∨
      tls = true ∧ (security = "tls" ∨ security = "reality") := by
  unfold usesTls at h
  split at h
  · rename_i hnone
    simp only [List.mem_cons, List.not_mem_nil, or_false] at hnone
    exact .inl ⟨(Except.ok.inj h).symm, hnone⟩
  split at h
  · rename_i htls
    simp only [List.mem_cons, List.not_mem_nil, or_false] at htls
    exact .inr ⟨(Except.ok.inj h).symm, htls⟩
  · cases h

theorem network_mem_of_chosen {transport : Transport} (h : ChosenTransport network tls transport) :
    network ∈ ["tcp", "raw", "none", ""] ++ ["ws", "websocket"] ++
      ["httpupgrade", "http_upgrade"] ++ ["grpc", "xhttp"] := by
  simp only [List.mem_append]
  rcases h with ⟨h, -⟩ | ⟨h, -⟩ | ⟨h, -⟩ | ⟨h, -⟩ <;> simp only [h, true_or, or_true]

theorem effectiveNetwork_of_chosen (h : ChosenTransport network tls cfg.transport) :
    effectiveNetwork cfg network = normalizeNetwork network := by
  refine effectiveNetwork_eq_normalizeNetwork fun ⟨htcp, hoverrides⟩ => ?_
  rcases h with ⟨hn, ht⟩ | ⟨hn, ht⟩ | ⟨hn, ht⟩ | ⟨hn, ht⟩
  · rw [ht] at hoverrides
    cases tls <;> exact absurd hoverrides (by decide)
  all_goals
    simp only [List.mem_cons, List.not_mem_nil, or_false] at hn
    rcases hn with rfl | rfl <;> exact absurd htcp (by decide)

theorem effectiveSecurity_of_plain (htransport : cfg.transport = .direct ∨ cfg.transport = .webSocket)
    (hsecurity : security = "none" ∨ security = "") : effectiveSecurity cfg security = "none" := by
  rcases hsecurity with rfl | rfl <;> rcases htransport with ht | ht
  all_goals
    rw [effectiveSecurity, ht]
    rfl

theorem effectiveSecurity_of_httpUpgrade (htransport : cfg.transport = .httpUpgrade)
    (hsecurity : security = "none" ∨ security = "") :
    effectiveSecurity cfg security = "none" ↔ ¬(cfg.tls.sni.isSome ∨ cfg.tls.alpn ≠ []) := by
  have heff : effectiveSecurity cfg security =
      if cfg.tls.sni.isSome || !cfg.tls.alpn.isEmpty then "tls" else "none" := by
    rcases hsecurity with rfl | rfl
    all_goals
      rw [effectiveSecurity, htransport]
      rfl
  rw [heff]
  split <;> simp_all

/-- The security is what the settings say, but for HTTP Upgrade. -/
theorem effectiveSecurity_of_chosen (h : ChosenTransport network tls cfg.transport)
    (htls : usesTls security = .ok tls) :
    effectiveSecurity cfg security = normalizeSecurity security ↔
      ¬(normalizeNetwork network = "httpupgrade" ∧ normalizeSecurity security = "none" ∧
        (cfg.tls.sni.isSome ∨ cfg.tls.alpn ≠ [])) := by
  rcases usesTls_eq_ok htls with ⟨rfl, hsecurity⟩ | ⟨rfl, hsecurity⟩
  · have hnone : normalizeSecurity security = "none" := by rcases hsecurity with rfl | rfl <;> rfl
    rw [hnone]
    rcases h with ⟨hn, ht⟩ | ⟨hn, ht⟩ | ⟨hn, ht⟩ | ⟨hn, ht⟩
    all_goals simp only [List.mem_cons, List.not_mem_nil, or_false] at hn
    · have hne : normalizeNetwork network ≠ "httpupgrade" := by
        rcases hn with rfl | rfl | rfl | rfl <;> decide
      simp [effectiveSecurity_of_plain (.inl ht) hsecurity, hne]
    · have hne : normalizeNetwork network ≠ "httpupgrade" := by rcases hn with rfl | rfl <;> decide
      simp [effectiveSecurity_of_plain (.inr ht) hsecurity, hne]
    · have heq : normalizeNetwork network = "httpupgrade" := by rcases hn with rfl | rfl <;> rfl
      rw [effectiveSecurity_of_httpUpgrade ht hsecurity]
      simp [heq]
    · have hne : normalizeNetwork network ≠ "httpupgrade" := by rcases hn with rfl | rfl <;> decide
      simp [effectiveSecurity_of_plain (.inl ht) hsecurity, hne]
  · have hne : normalizeSecurity security ≠ "none" := by
      rcases hsecurity with rfl | rfl <;> decide
    have heff : effectiveSecurity cfg security = normalizeSecurity security := by
      refine effectiveSecurity_eq_normalizeSecurity ?_
      rcases hsecurity with rfl | rfl <;> decide
    exact iff_of_true heff fun hbad => hne hbad.2.1

end Effective

section Imported
variable {L : ImportLibrary} {id : Uuid} {now : Time} {raw : String}

theorem normalizeNetwork_link {value : Option String} {network : String} {tls : Bool}
    {transport : Transport} (hvalue : network = (value.map networkOf).getD "tcp")
    (h : ChosenTransport network tls transport) :
    normalizeNetwork network = normalizeNetwork (value.getD "tcp") := by
  cases value with
  | none => rw [hvalue]; rfl
  | some v =>
    obtain rfl : network = networkOf v := hvalue
    exact normalizeNetwork_networkOf (network_mem_of_chosen h)

theorem normalizeSecurity_link {value : Option String} {security : String} {tls : Bool}
    (hvalue : security = (value.map toAsciiLowercase).getD "none")
    (h : usesTls security = .ok tls) :
    normalizeSecurity security = normalizeSecurity (value.getD "none") := by
  cases value with
  | none => rw [hvalue]; rfl
  | some v =>
    obtain rfl : security = toAsciiLowercase v := hvalue
    refine normalizeSecurity_toAsciiLowercase ?_
    rcases usesTls_eq_ok h with ⟨-, hs | hs⟩ | ⟨-, hs | hs⟩ <;> simp [hs]

/-- A link runs as it declares exactly when it is not HTTP Upgrade in the clear with a server name
or ALPN. -/
theorem link_runs_as_declared_iff [Texts] {p : ParsedImport} (h : parseVless L id now raw = .ok p) :
    ∃ url settings, L.parseUrl raw = .ok url ∧ p.config.settings = .vless settings ∧
      (effectiveNetwork p.config settings.network =
            normalizeNetwork ((declared .network url.queryPairs).getD "tcp") ∧
          effectiveSecurity p.config settings.security =
            normalizeSecurity ((declared .security url.queryPairs).getD "none") ↔
        ¬(normalizeNetwork ((declared .network url.queryPairs).getD "tcp") = "httpupgrade" ∧
          normalizeSecurity ((declared .security url.queryPairs).getD "none") = "none" ∧
          ((declared .sni url.queryPairs).isSome ∨
            (declared .alpn url.queryPairs).any fun v => alpnOf v ≠ []))) := by
  obtain ⟨url, host, tls, hurl, -, htls, hcfg, -⟩ := parseVless_eq_ok h
  refine ⟨url, _, hurl, hcfg.settings, ?_⟩
  rw [← normalizeNetwork_link (link_network url.username url.queryPairs) hcfg.transport,
    ← normalizeSecurity_link (link_security url.username url.queryPairs) htls,
    effectiveNetwork_of_chosen hcfg.transport, effectiveSecurity_of_chosen hcfg.transport htls]
  rw [eq_self, true_and]
  refine not_congr (and_congr_right fun _ => and_congr_right fun hnone => ?_)
  have hplain : tls = false := by
    rcases usesTls_eq_ok htls with ⟨hfalse, -⟩ | ⟨-, hs | hs⟩
    · exact hfalse
    all_goals
      rw [hs] at hnone
      exact absurd hnone (by decide)
  have hsni := (hcfg.sni hplain).trans (link_sni url.username url.queryPairs)
  have halpn := hcfg.alpn.trans (link_alpn url.username url.queryPairs)
  rw [hsni, halpn]
  cases declared .sni url.queryPairs <;> cases declared .alpn url.queryPairs <;> simp

def upgradeLinks : ImportLibrary :=
  linkLibrary [
    ("type=httpupgrade&sni=example.com", [("type", "httpupgrade"), ("sni", "example.com")]),
    ("type=httpupgrade&sni=example.com&security=tls",
      [("type", "httpupgrade"), ("sni", "example.com"), ("security", "tls")])]

def tlsUpgrade : String := wsLink "type=httpupgrade&sni=example.com&security=tls"

open Sample

theorem tls_upgrade_link_runs_as_declared :
    ∃ p settings, parseVless upgradeLinks 1 0 tlsUpgrade = .ok p ∧
      p.config.settings = .vless settings ∧
      effectiveNetwork p.config settings.network = "httpupgrade" ∧
      effectiveSecurity p.config settings.security = "tls" := by
  have hok : (parseVless upgradeLinks 1 0 tlsUpgrade).toBool = true := by decide +kernel
  cases hp : parseVless upgradeLinks 1 0 tlsUpgrade with
  | error e =>
    rw [hp] at hok
    cases hok
  | ok p =>
    obtain ⟨url, settings, hurl, hsettings, hiff⟩ := link_runs_as_declared_iff hp
    obtain rfl := Except.ok.inj hurl
    obtain ⟨hnetwork, hsecurity⟩ := hiff.2 (by decide)
    exact ⟨p, settings, rfl, hsettings, hnetwork, hsecurity⟩

theorem clear_upgrade_link_runs_over_tls :
    ∃ p settings, parseVless upgradeLinks 1 0 (wsLink "type=httpupgrade&sni=example.com") = .ok p ∧
      upgradeLinks.parseUrl (wsLink "type=httpupgrade&sni=example.com") =
        .ok (wsUrl [("type", "httpupgrade"), ("sni", "example.com")]) ∧
      declared .security [("type", "httpupgrade"), ("sni", "example.com")] = none ∧
      p.config.settings = .vless settings ∧
      effectiveSecurity p.config settings.security = "tls" ∧ normalizeSecurity "none" = "none" := by
  exact ⟨_, _, rfl, rfl, rfl, rfl, rfl, rfl⟩

end Imported

end EasyConnection.Vless
