import EasyConnection.Config.Envelope
import EasyConnection.Ssh.Zones

/-! # The endpoint of a Smart Config

A zone host answers with a sealed patch, which names the SSH server and what is sent to it before
SSH begins. The hosts are asked in order. The first that answers decides: a body that cannot be
opened ends the search.
-/
namespace EasyConnection.Ssh
open Codec Config

variable {endpoint : SmartEndpoint}

section Endpoint

structure RawTokens where
  hostPort : String
  ua : String

structure RawAction where
  action : String
  data : String
  maxLen : Option ℕ
  flags : List String

structure RawStates where
  tx : List RawAction
  rx : List RawAction

structure RawShim where
  enabled : Bool
  tokens : RawTokens
  states : RawStates

structure RawParams where
  shim : RawShim

structure RawEndpoint where
  kind : String
  hostname : String
  port : UInt16
  username : String
  authMethod : String
  auth : String
  params : RawParams

structure SmartEndpoint where
  host : String
  port : UInt16
  username : String
  password : String
  payload : List UInt8
  marker : List UInt8
  maxResponse : ℕ
  deriving DecidableEq

/-- The JSON library with its reader of the endpoint, and AES-256-GCM, which takes a key, a nonce
and the sealed text. -/
structure EndpointLibrary where
  json : JsonLibrary
  fromValue : Json → Except String RawEndpoint
  decrypt : List UInt8 → List UInt8 → List UInt8 → Option (List UInt8)

def smartError (message : String) : SshError := .zones ("Smart Config: " ++ message)

def smartRequire (ok : Bool) (message : String) : Except SshError Unit :=
  if ok then .ok () else .error (smartError message)

theorem smartRequire_eq_ok {ok : Bool} {message : String} : smartRequire ok message = .ok () ↔ ok = true := by
  cases ok with
  | false => exact iff_of_false (fun h => by cases h) (by decide)
  | true => exact iff_of_true rfl rfl

def smartConfigKey : List UInt8 :=
  [115, 21, 66, 88, 89, 169, 231, 172, 80, 193, 91, 145, 10, 200, 80, 39, 25, 213, 15, 209, 178,
    103, 33, 217, 81, 134, 148, 19, 17, 134, 199, 88]

def maxShimPayload : ℕ := 16 * 1024

def maxShimResponse : ℕ := 64 * 1024

def decryptResponse (L : EndpointLibrary) (encrypted : List UInt8) : Except SshError (List UInt8) :=
  if ¬ (28 ≤ encrypted.length ∧ encrypted.length ≤ 1024 * 1024) then
    .error (smartError "invalid encrypted response length")
  else okOr (smartError "response authentication failed")
    (L.decrypt smartConfigKey (encrypted.take 12) (encrypted.drop 12))

/-- The text with each occurrence of the pattern replaced. The count is that of the characters which
belong to an occurrence already. -/
def replaceFrom (pat new : List Char) : ℕ → List Char → List Char
  | _, [] => []
  | skip + 1, _ :: s => replaceFrom pat new skip s
  | 0, c :: s =>
    if pat <+: c :: s then new ++ replaceFrom pat new (pat.length - 1) s
    else c :: replaceFrom pat new 0 s

def replace (pat new : String) (s : List Char) : List Char := replaceFrom pat.toList new.toList 0 s

def renderTokens (template : String) (tokens : RawTokens) : Except SshError (List UInt8) :=
  let rendered := String.ofList (replace "[crlf]" "\r\n" (replace "[ua]" tokens.ua
    (replace "[host_port]" tokens.hostPort template.toList)))
  if maxShimPayload < rendered.utf8ByteSize ∨ '[' ∈ rendered.toList ∨ ']' ∈ rendered.toList then
    .error (smartError "unsupported shim token or payload length")
  else .ok rendered.toUTF8.data.toList

example : renderTokens "POST [host_port] HTTP/1.1[crlf]User-Agent: [ua][crlf]"
    ⟨"entry.example:80", "test-agent"⟩ =
      .ok "POST entry.example:80 HTTP/1.1\r\nUser-Agent: test-agent\r\n".toUTF8.data.toList := by
  decide

def isTunnelPatch (item : Json) : Bool :=
  (item.get "op").bind Json.asStr == some "merge" &&
    (item.at? ["value", "type"]).bind Json.asStr == some "ssh_darktunnel"

/-- The markers of the user and the password stand for those of the link. -/
def RawEndpoint.resolve (raw : RawEndpoint) (smart : RocketSmartConfig) : RawEndpoint :=
  { raw with
    username := if raw.username = "<<username>>" then smart.username else raw.username
    auth := if raw.auth = "<<password>>" then smart.password else raw.auth }

def RawEndpoint.unsupported (raw : RawEndpoint) : Bool :=
  raw.kind != "ssh_darktunnel" || raw.authMethod != "password" || raw.hostname == "" ||
    253 < raw.hostname.utf8ByteSize ||
    (raw.hostname.toList.any fun c => isAsciiControl c || isAsciiWhitespace c) || raw.port == 0 ||
    raw.username == "" || 255 < raw.username.utf8ByteSize || raw.auth == "" ||
    4096 < raw.auth.utf8ByteSize || !raw.params.shim.enabled

def RawEndpoint.check (raw : RawEndpoint) : Except SshError SmartEndpoint := do
  smartRequire (!raw.unsupported) "unsupported SSH tunnel parameters"
  let shim := raw.params.shim
  let tx ← okOr (smartError "unsupported shim transmit state")
    (shim.states.tx.head?.filter fun state => state.action == "payload")
  let rx ← okOr (smartError "unsupported shim receive state")
    (shim.states.rx.head?.filter fun state =>
      state.action == "match_until" && state.flags.any fun f => f == "skip")
  let payload ← renderTokens tx.data shim.tokens
  let marker ← renderTokens rx.data shim.tokens
  smartRequire (marker != [] && marker.length ≤ 128 && sshBanner.isPrefixOf marker)
    "unsupported SSH shim marker"
  let maxResponse := min (rx.maxLen.getD maxShimResponse) maxShimResponse
  smartRequire (marker.length ≤ maxResponse) "invalid shim response limit"
  return ⟨raw.hostname, raw.port, raw.username, raw.auth, payload, marker, maxResponse⟩

def parseEndpoint (L : EndpointLibrary) (plain : List UInt8) (smart : RocketSmartConfig) :
    Except SshError SmartEndpoint := do
  let patches ← (L.json.fromSlice plain).mapError fun _ => smartError "invalid decrypted JSON patch"
  let items ← okOr (smartError "expected JSON patch array") patches.asArray
  let value ← okOr (smartError "no supported SSH tunnel in response")
    ((items.reverse.find? isTunnelPatch).bind (Json.get "value"))
  let raw ← (L.fromValue value).mapError fun _ => smartError "invalid SSH tunnel parameters"
  (raw.resolve smart).check

/-- The limits of an endpoint that is accepted. -/
theorem RawEndpoint.check_limits {raw : RawEndpoint} (h : raw.check = .ok endpoint) :
    endpoint.marker ≠ [] ∧ endpoint.marker.length ≤ endpoint.maxResponse ∧
      endpoint.maxResponse ≤ maxShimResponse := by
  obtain ⟨-, h⟩ := except_then_eq_ok.1 h
  obtain ⟨tx, -, h⟩ := except_bind_eq_ok.1 h
  obtain ⟨rx, -, h⟩ := except_bind_eq_ok.1 h
  obtain ⟨payload, -, h⟩ := except_bind_eq_ok.1 h
  obtain ⟨marker, -, h⟩ := except_bind_eq_ok.1 h
  obtain ⟨hmarker, h⟩ := except_then_eq_ok.1 h
  obtain ⟨hlimit, h⟩ := except_then_eq_ok.1 h
  obtain rfl := Except.ok.inj h
  have hne : marker ≠ [] := by
    rintro rfl
    cases hmarker
  exact ⟨hne, of_decide_eq_true (smartRequire_eq_ok.1 hlimit), Nat.min_le_right ..⟩

theorem parseEndpoint_limits {L : EndpointLibrary} {plain : List UInt8} {smart : RocketSmartConfig}
    (h : parseEndpoint L plain smart = .ok endpoint) :
    endpoint.marker ≠ [] ∧ endpoint.marker.length ≤ endpoint.maxResponse ∧
      endpoint.maxResponse ≤ maxShimResponse := by
  obtain ⟨patches, -, h⟩ := except_bind_eq_ok.1 h
  obtain ⟨items, -, h⟩ := except_bind_eq_ok.1 h
  obtain ⟨value, -, h⟩ := except_bind_eq_ok.1 h
  obtain ⟨raw, -, h⟩ := except_bind_eq_ok.1 h
  exact RawEndpoint.check_limits h

end Endpoint

section Fetch
variable (L : EndpointLibrary) (smart : RocketSmartConfig) (zoneId : Option String)
  (exchange : ℕ → ZoneHttpRequest → Except SshError HttpResponse)

def getSmartConfigBody (exchange : ZoneHttpRequest → Except SshError HttpResponse) (host : String)
    (port : UInt16) (path : String) (https : Bool) (zoneId : Option String) :
    Except SshError (List UInt8) := do
  let response ← exchange (smartConfigRequest host port path https zoneId)
  if response.status ≠ 200 then
    .error (.zones ("Smart Config host returned HTTP " ++ toString response.status.toNat))
  return response.body

/-- An entry of the hosts and its place in their order. -/
abbrev Attempt := (RocketSmartHost × Bool) × ℕ

/-- What the entry answers with. The exchange may go differently at each attempt. -/
def attemptBody (attempt : Attempt) : Except SshError (List UInt8) :=
  getSmartConfigBody (exchange attempt.2) attempt.1.1.host attempt.1.1.port smart.path attempt.1.2
    zoneId

/-- What a body comes to. -/
def openBody (body : List UInt8) : Except SshError SmartEndpoint := do
  parseEndpoint L (← decryptResponse L body) smart

def fetchAttempts : List Attempt → Except SshError SmartEndpoint
  | [] => .error (smartError "could not fetch selected tunnel configuration")
  | attempt :: rest =>
    match attemptBody smart zoneId exchange attempt with
    | .ok body => openBody L smart body
    | .error _ => fetchAttempts rest

def fetchEndpoint : Except SshError SmartEndpoint :=
  fetchAttempts L smart zoneId exchange smart.zoneHosts.zipIdx

/-- The entry yields a valid endpoint. -/
def Yields (attempt : Attempt) (endpoint : SmartEndpoint) : Prop :=
  ∃ body, attemptBody smart zoneId exchange attempt = .ok body ∧ openBody L smart body = .ok endpoint

/-- The endpoint of the first entry that yields one. -/
def FirstYields (endpoint : SmartEndpoint) : Prop :=
  ∃ before attempt after, smart.zoneHosts.zipIdx = before ++ attempt :: after ∧
    Yields L smart zoneId exchange attempt endpoint ∧
    ∀ earlier ∈ before, ∀ e, ¬ Yields L smart zoneId exchange earlier e

variable {L smart zoneId exchange}

theorem fetchAttempts_toOption (attempts : List Attempt) :
    (fetchAttempts L smart zoneId exchange attempts).toOption =
      (attempts.findSome? fun attempt => (attemptBody smart zoneId exchange attempt).toOption).bind
        fun body => (openBody L smart body).toOption := by
  induction attempts with
  | nil => rfl
  | cons attempt rest ih =>
    rw [fetchAttempts, List.findSome?_cons]
    cases attemptBody smart zoneId exchange attempt with
    | ok body => rfl
    | error e => exact ih

theorem yields_iff {attempt : Attempt} :
    Yields L smart zoneId exchange attempt endpoint ↔
      ((attemptBody smart zoneId exchange attempt).toOption.bind fun body =>
        (openBody L smart body).toOption) = some endpoint := by
  simp only [Yields, Option.bind_eq_some_iff, toOption_eq_some]

theorem firstYields_iff :
    FirstYields L smart zoneId exchange endpoint ↔
      (smart.zoneHosts.zipIdx.findSome? fun attempt =>
        (attemptBody smart zoneId exchange attempt).toOption.bind fun body =>
          (openBody L smart body).toOption) = some endpoint := by
  simp only [FirstYields, yields_iff, List.findSome?_eq_some_iff, Option.eq_none_iff_forall_ne_some,
    ne_eq]

/-- The endpoint is that of the first entry which yields one, exactly if no entry yields one after
the first body that comes cannot be opened. -/
theorem fetch_first_valid_iff :
    (((∃ e, fetchEndpoint L smart zoneId exchange = .ok e) ↔
        ∃ attempt ∈ smart.zoneHosts.zipIdx, ∃ e, Yields L smart zoneId exchange attempt e) ∧
      ∀ e, fetchEndpoint L smart zoneId exchange = .ok e → FirstYields L smart zoneId exchange e) ↔
    ∀ before attempt after body, smart.zoneHosts.zipIdx = before ++ attempt :: after →
      (∀ earlier ∈ before, ∀ b, attemptBody smart zoneId exchange earlier ≠ .ok b) →
      attemptBody smart zoneId exchange attempt = .ok body →
      (∃ e, openBody L smart body = .ok e) ∨
        ∀ later ∈ after, ∀ e, ¬ Yields L smart zoneId exchange later e := by
  have hfetch : ∀ e, fetchEndpoint L smart zoneId exchange = .ok e ↔ _ := fun e =>
    toOption_eq_some.symm.trans (by rw [fetchEndpoint, fetchAttempts_toOption])
  have hvalid : (∃ attempt ∈ smart.zoneHosts.zipIdx, ∃ e, Yields L smart zoneId exchange attempt e) ↔
      ∃ e, FirstYields L smart zoneId exchange e := by
    simp only [yields_iff, firstYields_iff, ← Option.isSome_iff_exists, List.findSome?_isSome_iff]
  have hsame : ∀ o o' : Option SmartEndpoint, (((∃ e, o = some e) ↔ ∃ e, o' = some e) ∧
      ∀ e, o = some e → o' = some e) ↔ o = o' := by
    intro o o'
    cases o <;> cases o' <;> simp [eq_comm]
  rw [hvalid]
  simp only [hfetch, firstYields_iff]
  rw [hsame, findSome?_bind_eq_iff]
  simp only [toOption_eq_some, Option.isSome_iff_exists, Option.eq_none_iff_forall_ne_some, ne_eq,
    yields_iff]

end Fetch

section Sample

def sampleEndpoint (limit : ℕ) : RawEndpoint where
  kind := "ssh_darktunnel"
  hostname := "example.invalid"
  port := 80
  username := "<<username>>"
  authMethod := "password"
  auth := "<<password>>"
  params := ⟨⟨true, ⟨"example.invalid:80", "test-agent"⟩,
    [⟨"payload", "GET [host_port] HTTP/1.1[crlf][crlf]", none, []⟩],
    [⟨"match_until", "SSH-2.0-", some limit, ["skip"]⟩]⟩⟩

def shimAction (kind data : String) (others : List (String × Json)) : Json :=
  .object (("action", .string kind) :: ("data", .string data) :: others)

def endpointJson (limit : ℕ) : Json :=
  .object [("type", .string "ssh_darktunnel"), ("hostname", .string "example.invalid"),
    ("port", .unsigned 80), ("username", .string "<<username>>"),
    ("auth_method", .string "password"), ("auth", .string "<<password>>"),
    ("params", .object [("shim", .object [("enabled", .bool true),
      ("tokens", .object [("host_port", .string "example.invalid:80"), ("ua", .string "test-agent")]),
      ("states", .object [
        ("tx", .array [shimAction "payload" "GET [host_port] HTTP/1.1[crlf][crlf]" []]),
        ("rx", .array [shimAction "match_until" "SSH-2.0-"
          [("max_len", .unsigned (.ofNat limit)), ("flags", .array [.string "skip"])]])])])])]

def patchJson (limit : ℕ) : Json :=
  .array [.object [("op", .string "merge"), ("value", endpointJson limit)]]

/-- Libraries that read the sample. In place of the cipher sixteen bytes are appended, and what has
zeros for its nonce is not opened. -/
def sampleLibrary (limit : ℕ) : EndpointLibrary where
  json := Sample.jsonLibrary [patchJson limit]
  fromValue v :=
    if Sample.jsonText v = Sample.jsonText (endpointJson limit) then .ok (sampleEndpoint limit)
    else .error "invalid type"
  decrypt _ nonce text :=
    if nonce.head? = some 0 then none else some (text.take (text.length - 16))

def twoHosts : RocketSmartConfig :=
  ⟨"user", "secret", "/", [⟨"a.example", 80, 0x11, 0⟩, ⟨"b.example", 80, 0x11, 0⟩]⟩

def sampleBody : List UInt8 :=
  List.replicate 12 7 ++ Sample.jsonBytes (patchJson 8192) ++ List.replicate 16 7

/-- The body of the first host is zeros, that of the second has the endpoint. -/
def zerosFirst (i : ℕ) (_ : ZoneHttpRequest) : Except SshError HttpResponse :=
  .ok ⟨200, if i = 0 then List.replicate 28 0 else sampleBody⟩

/-- The second host has a valid endpoint, and is never asked. -/
theorem zeros_end_the_search :
    fetchEndpoint (sampleLibrary 8192) twoHosts none zerosFirst =
        .error (smartError "response authentication failed") ∧
      ∃ attempt ∈ twoHosts.zoneHosts.zipIdx, ∃ e,
        Yields (sampleLibrary 8192) twoHosts none zerosFirst attempt e := by
  have hopened : (openBody (sampleLibrary 8192) twoHosts sampleBody).isOk = true := by decide +kernel
  refine ⟨by decide +kernel, ((⟨"b.example", 80, 0x11, 0⟩, false), 1), by decide, ?_⟩
  cases hbody : openBody (sampleLibrary 8192) twoHosts sampleBody with
  | error e =>
    rw [hbody] at hopened
    cases hopened
  | ok e => exact ⟨e, sampleBody, rfl, hbody⟩

end Sample

end EasyConnection.Ssh
