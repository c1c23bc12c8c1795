import EasyConnection.Codec.Base64
import EasyConnection.Codec.Json
import EasyConnection.Config.Validate

/-! # Import of profiles

A profile is imported from an export, from the JSON of a profile, or from a share link. The
JSON, URL and Base64 libraries are parameters.
-/
namespace EasyConnection.Config
open Codec

structure Url where
  username : String
  password : Option String
  hostStr : Option String
  port : Option UInt16
  queryPairs : List (String × String)
  fragment : Option String

/-- The functions of the libraries. The errors are their messages. -/
structure ImportLibrary where
  fromStr : String → Except String Json
  fromValue : Json → Except String ConnectionConfig
  parseUrl : String → Except String Url
  decodeStandard : String → Except String (List UInt8)
  decodeUrlSafe : String → Except String (List UInt8)

structure ParsedImport where
  config : ConnectionConfig
  password : Option String

def importErr {α : Type} (message : String) : Except ConfigError α := .error (.importError message)

section Text

/-- The value of two characters as a hexadecimal number, which may begin with a plus sign. -/
def hexPair (x y : UInt8) : Option UInt8 := do
  let low ← Net.digitValue 16 (Char.ofUInt8 y)
  if x = 0x2b then return UInt8.ofNat low
  let high ← Net.digitValue 16 (Char.ofUInt8 x)
  return UInt8.ofNat (16 * high + low)

def percentBytes : List UInt8 → List UInt8
  | [] => []
  | [b] => [b]
  | [b, x] => [b, x]
  | b :: x :: y :: rest =>
    if b = 0x25 then
      match hexPair x y with
      | some v => v :: percentBytes rest
      | none => b :: percentBytes (x :: y :: rest)
    else b :: percentBytes (x :: y :: rest)

theorem percentBytes_cons {b : UInt8} (hb : b ≠ 0x25) (rest : List UInt8) :
    percentBytes (b :: rest) = b :: percentBytes rest := by
  match rest with
  | [] => rfl
  | [_] => rfl
  | _ :: _ :: _ => rw [percentBytes, if_neg hb]

def percentDecode (s : String) : String := fromUtf8Lossy (percentBytes s.toUTF8.data.toList)

example : percentDecode "a%20b%2g%e2%82%ac%" = "a b%2g€%" := by decide

def decodeBase64 (L : ImportLibrary) (s : String) : Except String (List UInt8) :=
  let cleaned := String.ofList (s.toList.filter fun c => !isWhitespace c)
  let padded := match cleaned.utf8ByteSize % 4 with
    | 2 => cleaned ++ "=="
    | 3 => cleaned ++ "="
    | _ => cleaned
  match L.decodeStandard padded with
  | .ok bytes => .ok bytes
  | .error _ => (L.decodeUrlSafe padded).mapError ("ss:// base64: " ++ ·)

def parsePort (s : List Char) : Except ConfigError UInt16 :=
  okOr (.importError "bad port") (parseU16 s)

def splitHostPort (s : List Char) (default : UInt16) : Except ConfigError (String × UInt16) :=
  match s with
  | '[' :: rest => do
    let (host, after) ← okOr (.importError "bad IPv6 host") (splitOnce ']' rest)
    match after with
    | ':' :: port => return (String.ofList host, ← parsePort port)
    | _ => return (String.ofList host, default)
  | _ =>
    match rsplitOnce [':'] s with
    | none => .ok (String.ofList s, default)
    | some (host, port) =>
      if ':' ∈ host then .ok (String.ofList s, default)
      else do return (String.ofList host, ← parsePort port)

def splitFragment (s : List Char) : List Char × Option String :=
  match splitOnce '#' s with
  | some (before, after) => (before, some (percentDecode (String.ofList after)))
  | none => (s, none)

end Text

variable (L : ImportLibrary) (id : Uuid) (now : Time)

def profileOf (value : Json) : Except ConfigError ConnectionConfig :=
  (L.fromValue value).mapError .json

/-- A document has a version and a profile; what has no profile is one itself. -/
def parseJson [Texts] (raw : String) : Except ConfigError ParsedImport := do
  let value ← (L.fromStr raw).mapError .json
  let version := ((value.get "version").bind Json.asU64).getD 1
  if 1 < version then importErr ("unsupported config version " ++ toString version.toNat)
  let profile ← profileOf L ((value.get "profile").getD value)
  let profile := { profile with id := id, updatedAt := now, routingMode := .proxyOnly }
  validateConnection profile
  return ⟨profile, none⟩

/-- The text of a link, of which all is in Base64 or nothing. -/
def ssText (body : List Char) : Except ConfigError (List Char) :=
  if '@' ∈ body then .ok (percentDecode (String.ofList body)).toList
  else do
    let bytes ← (decodeBase64 L (String.ofList body)).mapError .importError
    let text ← okOr (.importError "ss:// is not UTF-8") (fromUtf8 bytes)
    return text.toList

/-- `raw` is trimmed and begins with the scheme. -/
def parseSs [Texts] (raw : List Char) : Except ConfigError ParsedImport := do
  let (body, fragment) := splitFragment (trim (raw.drop 5))
  let decoded ← ssText L body
  let (userinfo, hostport) ← okOr (.importError "ss:// missing host") (rsplitOnce ['@'] decoded)
  let (method, password) ← okOr (.importError "ss:// missing method:password")
    (splitOnce ':' userinfo)
  let (host, port) ← splitHostPort hostport 8388
  let name := fragment.getD ("ss " ++ host)
  let cfg := ConnectionConfig.newShadowsocks id now name host port (String.ofList method)
  (validateConnection cfg).mapError fun e => .importError e.text
  return ⟨cfg, some (String.ofList password)⟩

section Vless

def ConnectionConfig.updateVless (cfg : ConnectionConfig) (f : VlessSettings → VlessSettings) :
    ConnectionConfig :=
  match cfg.settings with
  | .vless settings => { cfg with settings := .vless (f settings) }
  | _ => cfg

def fingerprintOf (v : String) : TlsFingerprintProfile :=
  match toAsciiLowercase v with
  | "chrome" => .chrome
  | "firefox" => .firefox
  | "safari" => .safari
  | "custom" => .custom
  | _ => .default

def networkOf (v : String) : String :=
  match toAsciiLowercase v with
  | "raw" => "tcp"
  | "none" => "tcp"
  | "" => "tcp"
  | "websocket" => "ws"
  | "http_upgrade" => "httpupgrade"
  | other => other

def alpnOf (v : String) : List String :=
  (v.toList.splitOn ',').map (fun s => String.ofList (trim s)) |>.filter (· ≠ "")

/-- The parameters of a query, each with its aliases. -/
inductive Param where
  | encryption
  | flow
  | path
  | host
  | sni
  | fingerprint
  | security
  | network
  | publicKey
  | shortId
  | serviceName
  | mode
  | spiderX
  | alpn
  | insecure
  | other
  deriving DecidableEq, Repr

def paramOf (key : String) : Param :=
  match toAsciiLowercase key with
  | "encryption" => .encryption
  | "flow" => .flow
  | "path" => .path
  | "host" => .host
  | "sni" => .sni
  | "fp" => .fingerprint
  | "fingerprint" => .fingerprint
  | "security" => .security
  | "type" => .network
  | "net" => .network
  | "pbk" => .publicKey
  | "publickey" => .publicKey
  | "password" => .publicKey
  | "sid" => .shortId
  | "shortid" => .shortId
  | "servicename" => .serviceName
  | "mode" => .mode
  | "spx" => .spiderX
  | "spiderx" => .spiderX
  | "alpn" => .alpn
  | "allowinsecure" => .insecure
  | "insecure" => .insecure
  | _ => .other

def applyParam (cfg : ConnectionConfig) (pair : String × String) : ConnectionConfig :=
  let v := pair.2
  match paramOf pair.1 with
  | .encryption => cfg.updateVless fun s => { s with encryption := v }
  | .flow => cfg.updateVless fun s => { s with flow := v }
  | .path =>
    { cfg with tls := { cfg.tls with path := some v } }.updateVless fun s => { s with path := some v }
  | .host =>
    { cfg with tls := { cfg.tls with host := some v } }.updateVless fun s => { s with host := some v }
  | .sni => { cfg with tls := { cfg.tls with sni := some v } }
  | .fingerprint => { cfg with tls := { cfg.tls with fingerprint := fingerprintOf v } }
  | .security => cfg.updateVless fun s => { s with security := toAsciiLowercase v }
  | .network => cfg.updateVless fun s => { s with network := networkOf v }
  | .publicKey => cfg.updateVless fun s => { s with realityPublicKey := some v }
  | .shortId => cfg.updateVless fun s => { s with realityShortId := some v }
  | .serviceName => cfg.updateVless fun s => { s with grpcServiceName := some v }
  | .mode => cfg.updateVless fun s => { s with xhttpMode := some v }
  | .spiderX => cfg.updateVless fun s => { s with spiderX := some v }
  | .alpn => { cfg with tls := { cfg.tls with alpn := alpnOf v } }
  | .insecure =>
    if v = "1" ∨ eqIgnoreAsciiCase v.toList "true".toList then
      { cfg with tls := { cfg.tls with verify := false } }
    else cfg
  | .other => cfg

def usesTls (security : String) : Except ConfigError Bool :=
  if security ∈ ["none", ""] then .ok false
  else if security ∈ ["tls", "reality"] then .ok true
  else importErr ("unsupported VLESS security `" ++ security ++ "` (supported: none, tls, reality)")

/-- The transport that the network stands for. HTTP Upgrade takes a server name as the sign of
TLS. -/
def withTransport (cfg : ConnectionConfig) (network : String) (tls : Bool) :
    Except ConfigError ConnectionConfig :=
  if network ∈ ["tcp", "raw", "none", ""] then
    .ok { cfg with transport := if tls then .tls else .direct }
  else if network ∈ ["ws", "websocket"] then
    .ok { cfg with transport := if tls then .wss else .webSocket }
  else if network ∈ ["httpupgrade", "http_upgrade"] then
    let sni := if tls ∧ cfg.tls.sni = none then some cfg.host else cfg.tls.sni
    .ok { cfg with tls := { cfg.tls with sni := sni }, transport := .httpUpgrade }
  else if network ∈ ["grpc", "xhttp"] then .ok { cfg with transport := .direct }
  else importErr ("unsupported VLESS network `" ++ network ++
    "` (supported: tcp, ws, grpc, httpupgrade, xhttp)")

def linkName (url : Url) (scheme host : String) : String :=
  ((url.fragment.map percentDecode).filter (· ≠ "")).getD (scheme ++ " " ++ host)

def parseVless [Texts] (raw : String) : Except ConfigError ParsedImport := do
  let url ← (L.parseUrl raw).mapError .importError
  if url.username = "" then importErr "vless:// missing uuid"
  let host ← okOr (.importError "vless:// missing host") url.hostStr
  let port := url.port.getD 443
  let built := ConnectionConfig.newVless id now (linkName url "vless" host) host port url.username
  let cfg := url.queryPairs.foldl applyParam built
  match cfg.settings with
  | .vless settings =>
    let tls ← usesTls settings.security
    let cfg ← withTransport cfg settings.network tls
    validateConnection cfg
    return ⟨cfg, none⟩
  -- The parameters leave the settings those of VLESS, and this is not reached.
  | _ => importErr "unreachable"

end Vless

def parseSsh [Texts] (raw : String) : Except ConfigError ParsedImport := do
  let url ← (L.parseUrl raw).mapError .importError
  let host ← okOr (.importError "ssh:// missing host") url.hostStr
  let port := url.port.getD 22
  if url.username = "" then importErr "ssh:// missing username"
  let cfg := { ConnectionConfig.newSsh id now (linkName url "ssh" host) host port with
    username := some (percentDecode url.username) }
  validateConnection cfg
  return ⟨cfg, url.password.map percentDecode⟩

def maxImportBytes : ℕ := 1024 * 1024

def parseImport [Texts] (raw : String) : Except ConfigError ParsedImport :=
  if maxImportBytes < raw.utf8ByteSize then importErr "import exceeds the 1024 KiB size limit"
  else
    let trimmed := trim raw.toList
    let lower := (toAsciiLowercase (String.ofList trimmed)).toList
    if trimmed = [] then importErr "empty import"
    else if trimmed.head? = some '\x7b' then parseJson L id now (String.ofList trimmed)
    else if "ss://".toList <+: lower then parseSs L id now trimmed
    else if "vless://".toList <+: lower then parseVless L id now (String.ofList trimmed)
    else if "ssh://".toList <+: lower then parseSsh L id now (String.ofList trimmed)
    else importErr "unrecognized import (need JSON, ss://, vless://, or ssh://)"

section References

/-- The vault references that an import brings with it. -/
def importedRefs (raw : String) : List SecretRef :=
  let trimmed := trim raw.toList
  if trimmed.head? = some '\x7b' then
    match (L.fromStr (String.ofList trimmed)).mapError ConfigError.json with
    | .error _ => []
    | .ok value =>
      match profileOf L ((value.get "profile").getD value) with
      | .error _ => []
      | .ok profile => profile.secretRefs
  else []

/-- What the table and the vault know of a profile. -/
def identity (cfg : ConnectionConfig) : Uuid × List SecretRef := (cfg.id, cfg.secretRefs)

variable {L id now}

theorem updateVless_identity (cfg : ConnectionConfig) (f : VlessSettings → VlessSettings) :
    identity (cfg.updateVless f) = identity cfg := by
  unfold ConnectionConfig.updateVless
  split <;> rfl

theorem applyParam_identity (cfg : ConnectionConfig) (pair : String × String) :
    identity (applyParam cfg pair) = identity cfg := by
  unfold applyParam
  cases paramOf pair.1 with
  | insecure => dsimp only; split <;> rfl
  | sni | fingerprint | alpn | other => rfl
  | _ => exact updateVless_identity _ _

theorem foldl_applyParam_identity (cfg : ConnectionConfig) (pairs : List (String × String)) :
    identity (pairs.foldl applyParam cfg) = identity cfg := by
  induction pairs generalizing cfg with
  | nil => rfl
  | cons pair pairs ih => exact (ih _).trans (applyParam_identity cfg pair)

theorem withTransport_identity {cfg cfg' : ConnectionConfig} {network : String} {tls : Bool}
    (h : withTransport cfg network tls = .ok cfg') : identity cfg' = identity cfg := by
  unfold withTransport at h
  split_ifs at h
  all_goals first | (obtain rfl := Except.ok.inj h; rfl) | cases h

variable [Texts] {parsed : ParsedImport}

theorem parseSs_identity {raw : List Char} (h : parseSs L id now raw = .ok parsed) :
    identity parsed.config = (id, []) := by
  unfold parseSs at h
  split at h
  obtain ⟨decoded, -, h⟩ := except_bind_eq_ok.1 h
  obtain ⟨⟨userinfo, hostport⟩, -, h⟩ := except_bind_eq_ok.1 h
  obtain ⟨⟨method, password⟩, -, h⟩ := except_bind_eq_ok.1 h
  obtain ⟨⟨host, port⟩, -, h⟩ := except_bind_eq_ok.1 h
  obtain ⟨-, -, h⟩ := except_bind_eq_ok.1 h
  obtain rfl := Except.ok.inj h
  rfl

variable {raw : String}

theorem parseSsh_identity (h : parseSsh L id now raw = .ok parsed) :
    identity parsed.config = (id, []) := by
  obtain ⟨url, -, h⟩ := except_bind_eq_ok.1 h
  obtain ⟨host, -, h⟩ := except_bind_eq_ok.1 h
  dsimp only at h
  split at h
  · cases h
  · obtain ⟨-, -, h⟩ := except_bind_eq_ok.1 h
    obtain rfl := Except.ok.inj h
    rfl

theorem parseVless_identity (h : parseVless L id now raw = .ok parsed) :
    identity parsed.config = (id, []) := by
  obtain ⟨url, -, h⟩ := except_bind_eq_ok.1 h
  dsimp only at h
  split at h
  · cases h
  · obtain ⟨host, -, h⟩ := except_bind_eq_ok.1 h
    split at h
    · obtain ⟨tls, -, h⟩ := except_bind_eq_ok.1 h
      obtain ⟨cfg, hcfg, h⟩ := except_bind_eq_ok.1 h
      obtain ⟨-, -, h⟩ := except_bind_eq_ok.1 h
      obtain rfl := Except.ok.inj h
      rw [withTransport_identity hcfg, foldl_applyParam_identity]
      rfl
    · cases h

theorem parseJson_identity (h : parseJson L id now raw = .ok parsed) :
    ∃ value profile, (L.fromStr raw).mapError ConfigError.json = .ok value ∧
      profileOf L ((value.get "profile").getD value) = .ok profile ∧
      identity parsed.config = (id, profile.secretRefs) ∧ parsed.password = none := by
  obtain ⟨value, hvalue, h⟩ := except_bind_eq_ok.1 h
  dsimp only at h
  split at h
  · cases h
  · obtain ⟨profile, hprofile, h⟩ := except_bind_eq_ok.1 h
    obtain ⟨-, -, h⟩ := except_bind_eq_ok.1 h
    obtain rfl := Except.ok.inj h
    exact ⟨value, profile, hvalue, hprofile, rfl, rfl⟩

/-- An import brings in the references of its JSON; a link brings none. With a password, it is a
link. -/
theorem parseImport_identity (h : parseImport L id now raw = .ok parsed) :
    identity parsed.config = (id, importedRefs L raw) ∧
      (parsed.password.isSome → importedRefs L raw = []) := by
  unfold parseImport at h
  dsimp only at h
  unfold importedRefs
  dsimp only
  split_ifs at h with hsize hempty hjson hss hvless hssh
  · cases h
  · cases h
  · obtain ⟨value, profile, hvalue, hprofile, hrefs, hnone⟩ := parseJson_identity h
    simp only [if_pos hjson, hvalue, hprofile, hrefs, hnone, Option.isSome_none]
    exact ⟨trivial, fun h => (nomatch h)⟩
  · rw [if_neg hjson, parseSs_identity h]
    exact ⟨rfl, fun _ => rfl⟩
  · rw [if_neg hjson, parseVless_identity h]
    exact ⟨rfl, fun _ => rfl⟩
  · rw [if_neg hjson, parseSsh_identity h]
    exact ⟨rfl, fun _ => rfl⟩
  · cases h

end References

end EasyConnection.Config

namespace EasyConnection.Sample
open Codec Config

/-- An export of a profile over SSH: the members that have no default, and some others. -/
def exportJson (name host : String) (port : UInt64) (settings others : List (String × Json)) : Json :=
  .object [("version", .unsigned 1), ("profile", .object ([
    ("id", .string "00000000-0000-0000-0000-000000000000"), ("name", .string name),
    ("protocol", .string "ssh"), ("transport", .string "direct"), ("host", .string host),
    ("port", .unsigned port), ("settings", .object (("protocol", .string "ssh") :: settings)),
    ("bypass_private_networks", .bool true), ("created_at", .string "1970-01-01T00:00:00Z"),
    ("updated_at", .string "1970-01-01T00:00:00Z")] ++ others))]

/-- Libraries that read Base64, and some exports. -/
def importLibrary (exports : List (Json × ConnectionConfig)) : ImportLibrary where
  fromStr text := okOr "expected value at line 1 column 1"
    ((exports.find? fun e => jsonText e.1 = text).map Prod.fst)
  fromValue v := okOr "invalid type"
    ((exports.find? fun e => (e.1.get "profile").map jsonText = some (jsonText v)).map Prod.snd)
  parseUrl _ := .error "relative URL without a base"
  decodeStandard s := okOr "Invalid byte" (Base64.decode Base64.standard s.toList)
  decodeUrlSafe s := okOr "Invalid byte" (Base64.decode Base64.urlSafe s.toList)

end EasyConnection.Sample
