import EasyConnection.Config.Envelope
import EasyConnection.Ssh.Zones
import EasyConnection.WebSocket.Request

/-! # The heads of the requests

The host and the path of a request come from a profile or from a Smart Config link, the zone from
the list that a provider sent. Their checks differ, but each excludes the ends of lines, so that the
head of a request has the lines that its builder writes and no others.
-/
namespace EasyConnection.Transport
open Codec Config Ssh WebSocket

section Dial

structure DialRequest where
  host : String
  port : UInt16
  transport : Config.Transport
  tls : TlsSettings

namespace DialRequest

def fromProfile (host : String) (port : UInt16) (transport : Config.Transport) (tls : TlsSettings) :
    DialRequest :=
  ⟨host, port, transport, tls⟩

def hostHeader (req : DialRequest) : String :=
  (((req.tls.host.filter (· ≠ "")).or req.tls.sni).filter (· ≠ "")).getD req.host

def path (req : DialRequest) : String := (req.tls.path.filter (· ≠ "")).getD "/"

end DialRequest

/-- The request that is made for a profile. -/
def profileRequest (cfg : ConnectionConfig) : DialRequest :=
  .fromProfile cfg.host cfg.port cfg.transport cfg.tls

variable {cfg : ConnectionConfig}

theorem oneLine_of_isControl {s : String} (h : ∀ c ∈ s.toList, isControl c = false) : OneLine s :=
  oneLine_of_forall (by decide) (by decide) h

theorem oneLine_of_lineBreaks {s : String} (h : ∀ c ∈ s.toList, c ∉ ['\r', '\n', '\x00']) : OneLine s :=
  ⟨fun hmem => h _ hmem (by decide), fun hmem => h _ hmem (by decide)⟩

theorem profileRequest_hostHeader [Texts] (h : validateConnection cfg = .ok ()) :
    OneLine (profileRequest cfg).hostHeader := by
  have htls := validateConnection_tls h
  unfold DialRequest.hostHeader
  cases hchosen : ((((profileRequest cfg).tls.host.filter (· ≠ "")).or
    (profileRequest cfg).tls.sni).filter (· ≠ "")) with
  | none => exact oneLine_of_isControl (validateConnection_host h)
  | some chosen =>
    obtain ⟨hor, -⟩ := Option.filter_eq_some_iff.1 hchosen
    rcases Option.or_eq_some_iff.1 hor with hhost | ⟨-, hsni⟩
    · exact oneLine_of_lineBreaks (htls.host _ (Option.filter_eq_some_iff.1 hhost).1)
    · exact oneLine_of_isControl (htls.sni _ hsni)

theorem profileRequest_path [Texts] (h : validateConnection cfg = .ok ()) :
    OneLine (profileRequest cfg).path ∧ (profileRequest cfg).path ≠ "" := by
  have htls := validateConnection_tls h
  unfold DialRequest.path
  cases hchosen : (profileRequest cfg).tls.path.filter (· ≠ "") with
  | none => exact ⟨by decide, by decide⟩
  | some chosen =>
    obtain ⟨hpath, hne⟩ := Option.filter_eq_some_iff.1 hchosen
    exact ⟨oneLine_of_lineBreaks (htls.path _ hpath).2, of_decide_eq_true hne⟩

end Dial

section Zones
variable {host path : String} {port : UInt16} {https : Bool} {zoneId : Option String}

theorem oneLine_toString (n : ℕ) : OneLine (toString n) := by
  have hdigit : ∀ c ∈ (toString n).toList, c.isDigit = true := by
    intro c hc
    rw [Nat.toString_eq_ofList_toDigits, String.toList_ofList] at hc
    exact Nat.isDigit_of_mem_toDigits (by decide) (by decide) hc
  exact ⟨fun h => absurd (hdigit _ h) (by decide), fun h => absurd (hdigit _ h) (by decide)⟩

theorem oneLine_hostHeader (h : OneLine host) (port : UInt16) (https : Bool) :
    OneLine (hostHeader host port https) := by
  have hbracketed : OneLine ("[" ++ host ++ "]") :=
    oneLine_append.2 ⟨oneLine_append.2 ⟨by decide, h⟩, by decide⟩
  have hport : ∀ {s : String}, OneLine s → OneLine (s ++ ":" ++ toString port.toNat) := fun hs =>
    oneLine_append.2 ⟨oneLine_append.2 ⟨hs, by decide⟩, oneLine_toString _⟩
  unfold hostHeader
  dsimp only
  split_ifs
  all_goals first | exact h | exact hbracketed | exact hport h | exact hport hbracketed

/-- The lines that both requests begin with. -/
def commonLines (method host path : String) (port : UInt16) (https : Bool) : List String :=
  [method ++ " " ++ path ++ " HTTP/1.1", "Host: " ++ hostHeader host port https, "Connection: close",
    "User-Agent: " ++ userAgent, "Accept: */*"]

def zoneLines (zoneId : Option String) : List String :=
  ((zoneId.map trimmed).filter fun id => id ≠ "" && id.toList.all isAsciiGraphic).toList.map
    ("X-Zone-Id: " ++ ·)

def contentLines (contentType : String) (length : ℕ) : List String :=
  ["Content-Type: " ++ contentType, "Content-Length: " ++ toString length]

theorem requestLines_append (req : ZoneHttpRequest) (hpath : req.path ≠ "") (lines : List String) :
    req.requestLines ++ headText lines =
      headText (commonLines req.method req.host req.path req.port req.https ++ lines) := by
  have hfirst : " HTTP/1.1\r\nHost: " = " HTTP/1.1" ++ ("\r\n" ++ "Host: ") := by decide
  have hmiddle : "\r\nConnection: close\r\nUser-Agent: " =
      "\r\n" ++ ("Connection: close" ++ ("\r\n" ++ "User-Agent: ")) := by
    decide
  have hlast : "\r\nAccept: */*\r\n" = "\r\n" ++ ("Accept: */*" ++ "\r\n") := by decide
  unfold ZoneHttpRequest.requestLines commonLines
  rw [if_neg hpath, hfirst, hmiddle, hlast]
  generalize hostHeader req.host req.port req.https = header
  simp only [List.cons_append, List.nil_append, headText, String.append_assoc]

theorem zoneHeader_append (zoneId : Option String) (lines : List String) :
    zoneHeader zoneId ++ headText lines = headText (zoneLines zoneId ++ lines) := by
  unfold zoneHeader zoneLines
  cases (zoneId.map trimmed).filter fun id => id ≠ "" && id.toList.all isAsciiGraphic with
  | none => exact String.empty_append
  | some id => simp only [Option.toList_some, List.map_cons, List.map_nil, List.cons_append,
      List.nil_append, headText, String.append_assoc]

theorem content_get : (smartConfigRequest host port path https zoneId).content = headText [] :=
  String.empty_append

theorem content_post (J : JsonLibrary) (req : ZoneFetchRequest) :
    (req.http J).content = headText (contentLines "application/json"
      (zoneCommandBody J req.username req.password).utf8ByteSize) ++
        zoneCommandBody J req.username req.password := by
  unfold ZoneHttpRequest.content ZoneFetchRequest.http contentLines
  generalize zoneCommandBody J req.username req.password = body
  have hends : "\r\n\r\n" = "\r\n" ++ "\r\n" := by decide
  have hlength : body.toUTF8.data.toList.length = body.utf8ByteSize := by
    simp
  dsimp only
  rw [fromUtf8Lossy_toUTF8, hlength, hends]
  simp only [headText, String.append_assoc]

theorem isLine_common {method : String} (hmethod : IsLine method) (hhost : OneLine host)
    (hpath : OneLine path) (port : UInt16) (https : Bool) :
    ∀ line ∈ commonLines method host path port https, IsLine line := by
  have hrequest : IsLine (method ++ " " ++ path ++ " HTTP/1.1") :=
    ((hmethod.append (by decide)).append hpath).append (by decide)
  have hheader : IsLine ("Host: " ++ hostHeader host port https) :=
    .append (by decide) (oneLine_hostHeader hhost port https)
  simp only [commonLines, List.forall_mem_cons]
  exact ⟨hrequest, hheader, by decide, by decide, by decide, by simp⟩

theorem isLine_zone (zoneId : Option String) : ∀ line ∈ zoneLines zoneId, IsLine line := by
  intro line hline
  obtain ⟨id, hid, rfl⟩ := List.mem_map.1 hline
  obtain ⟨-, hprintable⟩ := Option.filter_eq_some_iff.1 (Option.mem_toList.1 hid)
  have hgraphic := List.all_eq_true.1 (Bool.and_eq_true_iff.1 hprintable).2
  exact .append (by decide) ⟨fun h => absurd (hgraphic _ h) (by decide),
    fun h => absurd (hgraphic _ h) (by decide)⟩

theorem isLine_content (length : ℕ) :
    ∀ line ∈ contentLines "application/json" length, IsLine line := by
  simp only [contentLines, List.forall_mem_cons]
  exact ⟨by decide, .append (by decide) (oneLine_toString length), by simp⟩

theorem oneLine_of_hostAccepted (h : hostAccepted host port = true) : OneLine host := by
  have hany : (host.toList.any fun c =>
      isAsciiControl c || isAsciiWhitespace c || ['/', '\\', '@', '?', '#'].contains c) = false := by
    simp only [hostAccepted, Bool.and_eq_true, Bool.not_eq_true'] at h
    exact h.1.2
  have hnone := List.any_eq_false.1 hany
  exact ⟨fun hmem => hnone _ hmem (by decide), fun hmem => hnone _ hmem (by decide)⟩

theorem oneLine_of_pathAccepted (h : pathAccepted path = true) : OneLine path ∧ path ≠ "" := by
  simp only [pathAccepted, Bool.and_eq_true, Bool.not_eq_true', List.contains_eq_mem,
    decide_eq_false_iff_not] at h
  refine ⟨⟨h.1.2, h.2⟩, ?_⟩
  rintro rfl
  exact absurd h.1.1.1 (by decide)

theorem headLines_get (hhost : OneLine host) (hpath : OneLine path) (hne : path ≠ "") :
    headLines (httpRequest (smartConfigRequest host port path https zoneId)) =
      commonLines "GET" host path port https ++ zoneLines zoneId := by
  have htext : httpRequest (smartConfigRequest host port path https zoneId) =
      headText (commonLines "GET" host path port https ++ (zoneLines zoneId ++ [])) := by
    rw [httpRequest, content_get, String.append_assoc, zoneHeader_append]
    exact requestLines_append (smartConfigRequest host port path https zoneId) hne _
  rw [htext, List.append_nil]
  apply headLines_head
  rw [List.forall_mem_append]
  exact ⟨isLine_common (by decide) hhost hpath port https, isLine_zone zoneId⟩

theorem headLines_post (J : JsonLibrary) {req : ZoneFetchRequest} (hhost : OneLine req.host)
    (hpath : OneLine req.path) (hne : req.path ≠ "") :
    headLines (httpRequest (req.http J)) =
      commonLines "POST" req.host req.path req.port req.https ++ contentLines "application/json"
        (zoneCommandBody J req.username req.password).utf8ByteSize := by
  have htext : httpRequest (req.http J) = headText (commonLines "POST" req.host req.path req.port
      req.https ++ contentLines "application/json"
        (zoneCommandBody J req.username req.password).utf8ByteSize) ++
      zoneCommandBody J req.username req.password := by
    have hzone : zoneHeader (req.http J).zoneId = "" := rfl
    rw [httpRequest, content_post, hzone, String.append_empty, ← String.append_assoc]
    exact congrArg (· ++ _) (requestLines_append (req.http J) hne _)
  rw [htext]
  apply headLines_headText
  rw [List.forall_mem_append]
  exact ⟨isLine_common (by decide) hhost hpath _ _, isLine_content _⟩

/-- The requests have the lines of their builders, whatever the profile, the link and the zone. -/
theorem request_heads_exact [Texts] :
    (∀ cfg, validateConnection cfg = .ok () → ∀ keyRaw,
      headLines (websocketRequest (profileRequest cfg).hostHeader (profileRequest cfg).path keyRaw) =
          ["GET " ++ (profileRequest cfg).path ++ " HTTP/1.1",
            "Host: " ++ (profileRequest cfg).hostHeader, "Upgrade: websocket", "Connection: Upgrade",
            "Sec-WebSocket-Key: " ++ base64Encode keyRaw, "Sec-WebSocket-Version: 13"] ∧
        headLines (httpUpgradeRequest (profileRequest cfg).hostHeader (profileRequest cfg).path) =
          ["GET " ++ (profileRequest cfg).path ++ " HTTP/1.1",
            "Host: " ++ (profileRequest cfg).hostHeader, "Connection: Upgrade",
            "Upgrade: websocket"]) ∧
    ∀ L link smart, decodeRocketSmartLink L link = .ok smart → ∀ host ∈ smart.hosts, ∀ https,
      (∀ zoneId, headLines (httpRequest
          (smartConfigRequest host.host host.port smart.path https zoneId)) =
        commonLines "GET" host.host smart.path host.port https ++ zoneLines zoneId) ∧
      ∀ J username password, headLines (httpRequest
          (ZoneFetchRequest.http J ⟨host.host, host.port, username, password, smart.path, https⟩)) =
        commonLines "POST" host.host smart.path host.port https ++
          contentLines "application/json" (zoneCommandBody J username password).utf8ByteSize := by
  constructor
  · intro cfg hcfg keyRaw
    have hhost := profileRequest_hostHeader hcfg
    obtain ⟨hpath, hne⟩ := profileRequest_path hcfg
    have hroot : orRoot (profileRequest cfg).path = (profileRequest cfg).path := if_neg hne
    rw [headLines_websocketRequest hhost hpath, headLines_httpUpgradeRequest hhost hpath, hroot]
    exact ⟨rfl, rfl⟩
  · intro L link smart hlink host hmem https
    obtain ⟨hhosts, hpath⟩ := decodeRocketSmartLink_accepted hlink
    have hhost : OneLine host.host := oneLine_of_hostAccepted (hhosts host hmem)
    obtain ⟨hpath, hne⟩ := oneLine_of_pathAccepted hpath
    exact ⟨fun zoneId => headLines_get hhost hpath hne,
      fun J username password => headLines_post J hhost hpath hne⟩

/-- A profile for an upgrade at another host than its own. -/
def cdnProfile : ConnectionConfig :=
  { ConnectionConfig.newSsh 1 0 "Home" "192.0.2.1" 443 with
    username := some "alice"
    transport := .httpUpgrade
    tls := ⟨none, [], true, .default, some "/up", some "cdn.example"⟩ }

open Sample

theorem cdn_and_small_link_heads :
    headLines (httpUpgradeRequest (profileRequest cdnProfile).hostHeader
        (profileRequest cdnProfile).path) =
      ["GET /up HTTP/1.1", "Host: cdn.example", "Connection: Upgrade", "Upgrade: websocket"] ∧
    headLines (httpRequest (smartConfigRequest "h" 80 "/" false (some " de "))) =
      ["GET / HTTP/1.1", "Host: h", "Connection: close", "User-Agent: smart_config/1.0",
        "Accept: */*", "X-Zone-Id: de"] := by
  have hlink : decodeRocketSmartLink plainLibrary smartLink = .ok smart := by decide +kernel
  have hheads := request_heads_exact.2 plainLibrary smartLink smart hlink ⟨"h", 80, 17, 0⟩
    (by decide) false
  constructor
  · exact (request_heads_exact.1 cdnProfile (by decide +kernel) []).2.trans (by decide +kernel)
  · exact (hheads.1 (some " de ")).trans (by decide +kernel)

end Zones

end EasyConnection.Transport
