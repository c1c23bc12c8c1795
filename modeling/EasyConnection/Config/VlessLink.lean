import EasyConnection.Config.Import
import Mathlib.Data.List.Nodup
import Mathlib.Data.List.Perm.Basic

/-! # VLESS links

The parameters of a link are updates of the TLS settings and of the settings of the protocol. Each
has a place of its own, so two of them commute, and the last value of a parameter is what counts.
-/
namespace EasyConnection.Config
open Codec

section Updates

def ConnectionConfig.withVless (cfg : ConnectionConfig) (s : TlsSettings × VlessSettings) :
    ConnectionConfig :=
  { cfg with tls := s.1, settings := .vless s.2 }

/-- What a parameter with a value does to the settings. -/
def Param.write (p : Param) (v : String) (s : TlsSettings × VlessSettings) :
    TlsSettings × VlessSettings :=
  match p with
  | .encryption => (s.1, { s.2 with encryption := v })
  | .flow => (s.1, { s.2 with flow := v })
  | .path => ({ s.1 with path := some v }, { s.2 with path := some v })
  | .host => ({ s.1 with host := some v }, { s.2 with host := some v })
  | .sni => ({ s.1 with sni := some v }, s.2)
  | .fingerprint => ({ s.1 with fingerprint := fingerprintOf v }, s.2)
  | .security => (s.1, { s.2 with security := toAsciiLowercase v })
  | .network => (s.1, { s.2 with network := networkOf v })
  | .publicKey => (s.1, { s.2 with realityPublicKey := some v })
  | .shortId => (s.1, { s.2 with realityShortId := some v })
  | .serviceName => (s.1, { s.2 with grpcServiceName := some v })
  | .mode => (s.1, { s.2 with xhttpMode := some v })
  | .spiderX => (s.1, { s.2 with spiderX := some v })
  | .alpn => ({ s.1 with alpn := alpnOf v }, s.2)
  | .insecure =>
    ({ s.1 with verify :=
        if v = "1" ∨ eqIgnoreAsciiCase v.toList "true".toList then false else s.1.verify }, s.2)
  | .other => s

def writePair (s : TlsSettings × VlessSettings) (pair : String × String) :
    TlsSettings × VlessSettings :=
  (paramOf pair.1).write pair.2 s

theorem applyParam_withVless (cfg : ConnectionConfig) (s : TlsSettings × VlessSettings)
    (pair : String × String) :
    applyParam (cfg.withVless s) pair = cfg.withVless (writePair s pair) := by
  unfold applyParam writePair
  cases paramOf pair.1 with
  | insecure =>
    dsimp only [Param.write]
    split <;> rfl
  | _ => rfl

theorem foldl_applyParam_withVless (cfg : ConnectionConfig) (s : TlsSettings × VlessSettings)
    (pairs : List (String × String)) :
    pairs.foldl applyParam (cfg.withVless s) = cfg.withVless (pairs.foldl writePair s) :=
  List.foldl_hom _ fun s pair => applyParam_withVless cfg s pair

theorem Param.write_comm {p q : Param} (hne : p ≠ q) (v w : String)
    (s : TlsSettings × VlessSettings) : p.write v (q.write w s) = q.write w (p.write v s) := by
  cases p <;> cases q <;> first | contradiction | dsimp only [Param.write]

theorem Param.write_other (v : String) (s : TlsSettings × VlessSettings) :
    Param.other.write v s = s := rfl

/-- No parameter is given twice, under one name or under two. -/
def DistinctParams (pairs : List (String × String)) : Prop :=
  ((pairs.map fun pair => paramOf pair.1).filter (· ≠ .other)).Nodup

theorem DistinctParams.eq_of_paramOf {pairs : List (String × String)} (h : DistinctParams pairs)
    {x y : String × String} (hx : x ∈ pairs) (hy : y ∈ pairs) (hother : paramOf x.1 ≠ .other)
    (heq : paramOf x.1 = paramOf y.1) : x = y := by
  rw [DistinctParams, List.filter_map] at h
  refine List.inj_on_of_nodup_map h ?_ ?_ heq
  · exact List.mem_filter.2 ⟨hx, by simpa using hother⟩
  · exact List.mem_filter.2 ⟨hy, by simpa [← heq] using hother⟩

theorem DistinctParams.foldl_perm {pairs pairs' : List (String × String)} (h : DistinctParams pairs)
    (hperm : pairs.Perm pairs') (s : TlsSettings × VlessSettings) :
    pairs.foldl writePair s = pairs'.foldl writePair s := by
  refine hperm.foldl_eq' (fun x hx y hy s => ?_) s
  by_cases heq : paramOf x.1 = paramOf y.1
  · by_cases hother : paramOf x.1 = .other
    · simp only [writePair, ← heq, hother, Param.write_other]
    · rw [h.eq_of_paramOf hx hy hother heq]
  · exact Param.write_comm (Ne.symm heq) y.2 x.2 s

/-- The last value that is given to a parameter. -/
def declared (p : Param) (pairs : List (String × String)) : Option String :=
  (pairs.filter fun pair => paramOf pair.1 = p).getLast?.map Prod.snd

theorem declared_append_singleton (p : Param) (pairs : List (String × String))
    (pair : String × String) :
    declared p (pairs ++ [pair]) = if paramOf pair.1 = p then some pair.2 else declared p pairs := by
  by_cases h : paramOf pair.1 = p <;> simp [declared, h]

/-- A place that one parameter writes has its last value. -/
theorem foldl_writePair_place {β : Type} (place : TlsSettings × VlessSettings → β) (p : Param)
    (value : String → β) (hwrite : ∀ v s, place (p.write v s) = value v)
    (hkeep : ∀ q v s, q ≠ p → place (q.write v s) = place s) (pairs : List (String × String))
    (s : TlsSettings × VlessSettings) :
    place (pairs.foldl writePair s) = ((declared p pairs).map value).getD (place s) := by
  induction pairs using List.reverseRecOn with
  | nil => rfl
  | append_singleton pairs pair ih =>
    rw [List.foldl_append, declared_append_singleton]
    by_cases h : paramOf pair.1 = p
    · rw [if_pos h, List.foldl_cons, List.foldl_nil, writePair, h, hwrite]
      rfl
    · rw [if_neg h, ← ih]
      exact hkeep _ _ _ h

end Updates

section Links
variable (L : ImportLibrary) (id : Uuid) (now : Time)

/-- The settings of a link before its parameters. -/
def linkSettings (uuid : String) : TlsSettings × VlessSettings :=
  (TlsSettings.default, ⟨uuid, "none", "", "tcp", "none", none, none, none, none, none, none, none⟩)

def validated [Texts] (cfg : ConnectionConfig) : Except ConfigError ParsedImport := do
  validateConnection cfg
  return ⟨cfg, none⟩

/-- The profile of a link whose parameters have given the settings. -/
def finishVless [Texts] (url : Url) (s : TlsSettings × VlessSettings) :
    Except ConfigError ParsedImport := do
  if url.username = "" then importErr "vless:// missing uuid"
  let host ← okOr (.importError "vless:// missing host") url.hostStr
  let built := ConnectionConfig.newVless id now (linkName url "vless" host) host
    (url.port.getD 443) url.username
  let tls ← usesTls s.2.security
  let cfg ← withTransport (built.withVless s) s.2.network tls
  validated cfg

variable {L id now} {raw : String} {url : Url}

section Places
variable (uuid : String) (pairs : List (String × String))

theorem link_network : (pairs.foldl writePair (linkSettings uuid)).2.network =
    ((declared .network pairs).map networkOf).getD "tcp" :=
  foldl_writePair_place (·.2.network) .network networkOf (fun _ _ => rfl)
    (fun q v s h => by cases q <;> first | contradiction | rfl) pairs _

theorem link_security : (pairs.foldl writePair (linkSettings uuid)).2.security =
    ((declared .security pairs).map toAsciiLowercase).getD "none" :=
  foldl_writePair_place (·.2.security) .security toAsciiLowercase (fun _ _ => rfl)
    (fun q v s h => by cases q <;> first | contradiction | rfl) pairs _

theorem link_sni : (pairs.foldl writePair (linkSettings uuid)).1.sni =
    ((declared .sni pairs).map some).getD none :=
  foldl_writePair_place (·.1.sni) .sni some (fun _ _ => rfl)
    (fun q v s h => by cases q <;> first | contradiction | rfl) pairs _

theorem link_alpn : (pairs.foldl writePair (linkSettings uuid)).1.alpn =
    ((declared .alpn pairs).map alpnOf).getD [] :=
  foldl_writePair_place (·.1.alpn) .alpn alpnOf (fun _ _ => rfl)
    (fun q v s h => by cases q <;> first | contradiction | rfl) pairs _

end Places

theorem foldl_applyParam_newVless (name host : String) (port : UInt16) (uuid : String)
    (pairs : List (String × String)) :
    pairs.foldl applyParam (ConnectionConfig.newVless id now name host port uuid) =
      (ConnectionConfig.newVless id now name host port uuid).withVless
        (pairs.foldl writePair (linkSettings uuid)) :=
  foldl_applyParam_withVless (ConnectionConfig.newVless id now name host port uuid)
    (linkSettings uuid) pairs

theorem parseVless_eq [Texts] (hurl : L.parseUrl raw = .ok url) :
    parseVless L id now raw =
      finishVless id now url (url.queryPairs.foldl writePair (linkSettings url.username)) := by
  rw [parseVless, hurl]
  simp only [foldl_applyParam_newVless]
  rfl

/-- The transport that an import chooses. -/
def ChosenTransport (network : String) (tls : Bool) (transport : Transport) : Prop :=
  network ∈ ["tcp", "raw", "none", ""] ∧ transport = (if tls then .tls else .direct) ∨
    network ∈ ["ws", "websocket"] ∧ transport = (if tls then .wss else .webSocket) ∨
    network ∈ ["httpupgrade", "http_upgrade"] ∧ transport = .httpUpgrade ∨
    network ∈ ["grpc", "xhttp"] ∧ transport = .direct

/-- A profile that got its transport by the network. -/
structure Transported (cfg : ConnectionConfig) (network : String) (tls : Bool)
    (cfg' : ConnectionConfig) : Prop where
  settings : cfg'.settings = cfg.settings
  host : cfg'.host = cfg.host
  port : cfg'.port = cfg.port
  alpn : cfg'.tls.alpn = cfg.tls.alpn
  sni : tls = false → cfg'.tls.sni = cfg.tls.sni
  transport : ChosenTransport network tls cfg'.transport

theorem withTransport_eq_ok {cfg cfg' : ConnectionConfig} {network : String} {tls : Bool}
    (h : withTransport cfg network tls = .ok cfg') : Transported cfg network tls cfg' := by
  unfold withTransport at h
  split at h
  · rename_i htcp
    cases h
    exact ⟨rfl, rfl, rfl, rfl, fun _ => rfl, .inl ⟨htcp, rfl⟩⟩
  split at h
  · rename_i hws
    cases h
    exact ⟨rfl, rfl, rfl, rfl, fun _ => rfl, .inr (.inl ⟨hws, rfl⟩)⟩
  split at h
  · rename_i hupgrade
    cases h
    refine ⟨rfl, rfl, rfl, rfl, fun htls => ?_, .inr (.inr (.inl ⟨hupgrade, rfl⟩))⟩
    exact if_neg fun hand => Bool.false_ne_true (htls.symm.trans hand.1)
  split at h
  · rename_i hother
    cases h
    exact ⟨rfl, rfl, rfl, rfl, fun _ => rfl, .inr (.inr (.inr ⟨hother, rfl⟩))⟩
  · cases h

/-- What an accepted link went through. -/
theorem parseVless_eq_ok [Texts] {p : ParsedImport} (h : parseVless L id now raw = .ok p) :
    ∃ url host tls, L.parseUrl raw = .ok url ∧ url.hostStr = some host ∧
      (let s := url.queryPairs.foldl writePair (linkSettings url.username)
       usesTls s.2.security = .ok tls ∧
        Transported ((ConnectionConfig.newVless id now (linkName url "vless" host) host
          (url.port.getD 443) url.username).withVless s) s.2.network tls p.config ∧
        validateConnection p.config = .ok ()) := by
  cases hurl : L.parseUrl raw with
  | error e =>
    rw [parseVless, hurl] at h
    cases h
  | ok url =>
    rw [parseVless_eq hurl, finishVless] at h
    by_cases huuid : url.username = ""
    · rw [if_pos huuid] at h
      cases h
    · rw [if_neg huuid] at h
      simp only [except_bind_eq_ok, okOr_eq_ok, validated] at h
      obtain ⟨host, hhost, tls, htls, cfg, hcfg, _, hvalid, hp⟩ := h
      cases hp
      exact ⟨url, host, tls, rfl, hhost, htls, withTransport_eq_ok hcfg, hvalid⟩

/-- A profile with another id, made at another time. -/
def ConnectionConfig.restamp (id : Uuid) (now : Time) (cfg : ConnectionConfig) : ConnectionConfig :=
  { cfg with id := id, createdAt := now, updatedAt := now }

variable (id now) in
theorem withTransport_restamp (cfg : ConnectionConfig) (network : String) (tls : Bool) :
    withTransport (cfg.restamp id now) network tls =
      (withTransport cfg network tls).map (.restamp id now) := by
  unfold withTransport
  split
  · rfl
  split
  · rfl
  split
  · rfl
  split <;> rfl

def ParsedImport.restamp (id : Uuid) (now : Time) (p : ParsedImport) : ParsedImport :=
  { p with config := p.config.restamp id now }

theorem validated_restamp [Texts] (cfg : ConnectionConfig) :
    validated (cfg.restamp id now) = (validated cfg).map (.restamp id now) := by
  have hcheck : validateConnection (cfg.restamp id now) = validateConnection cfg := rfl
  rw [validated, hcheck, validated]
  cases validateConnection cfg <;> rfl

variable (id now) in
theorem finishVless_restamp [Texts] (id' : Uuid) (now' : Time) (url : Url)
    (s : TlsSettings × VlessSettings) :
    finishVless id' now' url s = (finishVless id now url s).map (.restamp id' now') := by
  unfold finishVless
  by_cases huuid : url.username = ""
  · simp only [huuid, if_true]
    rfl
  simp only [huuid, if_false]
  cases url.hostStr with
  | none => rfl
  | some host =>
    cases usesTls s.2.security with
    | error e => rfl
    | ok tls =>
      have htransport := withTransport_restamp id' now'
        ((ConnectionConfig.newVless id now (linkName url "vless" host) host (url.port.getD 443)
          url.username).withVless s) s.2.network tls
      change (withTransport _ _ _).bind _ = ((withTransport _ _ _).bind _).map _
      refine (congrArg (Except.bind · _) htransport).trans ?_
      cases withTransport _ _ tls with
      | error e => rfl
      | ok cfg => exact validated_restamp cfg

/-- The order of the parameters of a link, none of which is given twice, does not matter. -/
theorem query_order_does_not_matter [Texts] {raw' : String} {pairs : List (String × String)}
    (hurl : L.parseUrl raw = .ok url)
    (hurl' : L.parseUrl raw' = .ok { url with queryPairs := pairs })
    (hkeys : ((url.queryPairs.map fun pair => paramOf pair.1).filter (· ≠ .other)).Nodup)
    (hperm : url.queryPairs.Perm pairs) (id' : Uuid) (now' : Time) :
    (∃ e, parseVless L id now raw = .error e ∧ parseVless L id' now' raw' = .error e) ∨
      ∃ p p', parseVless L id now raw = .ok p ∧ parseVless L id' now' raw' = .ok p' ∧
        p'.password = p.password ∧
        { p'.config with
          id := p.config.id, createdAt := p.config.createdAt, updatedAt := p.config.updatedAt } =
          p.config := by
  have hfold := DistinctParams.foldl_perm hkeys hperm (linkSettings url.username)
  have hparsed' : parseVless L id' now' raw' =
      (parseVless L id now raw).map (.restamp id' now') := by
    rw [parseVless_eq hurl, parseVless_eq hurl', hfold]
    exact finishVless_restamp id now id' now' url _
  rw [hparsed']
  cases parseVless L id now raw with
  | error e => exact .inl ⟨e, rfl, rfl⟩
  | ok p => exact .inr ⟨p, _, rfl, rfl, rfl, rfl⟩

def wsLink (query : String) : String :=
  "vless://b831381d-6324-4d53-ad4f-8cda48b30811@example.com:443?" ++ query ++ "#Home"

def wsUrl (pairs : List (String × String)) : Url :=
  ⟨"b831381d-6324-4d53-ad4f-8cda48b30811", none, some "example.com", some 443, pairs, some "Home"⟩

/-- A library that knows links with some queries. -/
def linkLibrary (queries : List (String × List (String × String))) : ImportLibrary :=
  { Sample.importLibrary [] with
    parseUrl := fun raw =>
      match queries.find? fun query => raw = wsLink query.1 with
      | some query => .ok (wsUrl query.2)
      | none => .error "relative URL without a base" }

def twoOrders : ImportLibrary :=
  linkLibrary [("net=ws&security=tls", [("net", "ws"), ("security", "tls")]),
    ("security=tls&net=ws", [("security", "tls"), ("net", "ws")])]

open Sample

theorem ws_link_in_either_order :
    ∃ p p', parseVless twoOrders 1 0 (wsLink "net=ws&security=tls") = .ok p ∧
      parseVless twoOrders 2 5 (wsLink "security=tls&net=ws") = .ok p' ∧
      p'.password = p.password ∧
      { p'.config with
        id := p.config.id, createdAt := p.config.createdAt, updatedAt := p.config.updatedAt } =
        p.config := by
  have hok : (parseVless twoOrders 1 0 (wsLink "net=ws&security=tls")).toBool = true := by
    decide +kernel
  have hurl : twoOrders.parseUrl (wsLink "net=ws&security=tls") =
      .ok (wsUrl [("net", "ws"), ("security", "tls")]) := rfl
  have hurl' : twoOrders.parseUrl (wsLink "security=tls&net=ws") =
      .ok (wsUrl [("security", "tls"), ("net", "ws")]) := rfl
  rcases query_order_does_not_matter hurl hurl' (by decide) (List.Perm.swap _ _ _) 2 5 with
    ⟨e, he, -⟩ | hboth
  · rw [he] at hok
    cases hok
  · exact hboth

end Links

end EasyConnection.Config
