import EasyConnection.Codec.Fallible
import EasyConnection.Codec.Json
import EasyConnection.Codec.Str
import EasyConnection.Config.Model

/-! # Exit zones

A provider's Smart Config hosts give the list of its exit zones in answer to a `POST`, and the
configuration of the tunnel in answer to a `GET`. The zone that has been chosen is a header of
the latter; without that header the provider chooses.
-/
namespace EasyConnection.Ssh
open Codec Config

inductive SshError where
  | zones (message : String)
  deriving DecidableEq

structure ZoneList where
  hash : Option String
  zones : List ZoneInfo
  https : Bool
  deriving DecidableEq

section Listing

def isoIfCode (value : String) : Option String :=
  let up := String.ofList ((trim value.toList).map Char.toUpper)
  if up.utf8ByteSize = 2 && up.toList.all Char.isAlpha then some up else none

def isoFromZoneId (id : String) : Option String := do
  let (first, rest) ← splitAtByte 2 id.toList
  if rest.head?.any fun c => !c.isDigit then none
  let iso ← isoIfCode (String.ofList first)
  return if iso = "UK" then "GB" else iso

/-- The first of the members that is a text and not blank. -/
def firstStr (members : List (String × Json)) (names : List String) : Option String :=
  names.findSome? fun name => do
    let s ← (members.lookup name).bind Json.asStr
    if trimmed s = "" then none else some (trimmed s)

def parseZoneItem : Json → Option ZoneInfo
  | .string s =>
    if trimmed s = "" then none
    else some ⟨trimmed s, trimmed s, isoFromZoneId (trimmed s)⟩
  | .object members => do
    let id ← firstStr members ["id", "zone.id", "code", "iso", "isoCode", "country"]
    let name := (firstStr members
      ["name", "friendlyCountryName", "countryName", "title", "label", "country"]).getD id
    let iso := ((firstStr members
      ["iso", "isoCode", "code", "country", "countryCode", "country_iso", "country_code"]).bind
        isoIfCode).or (isoFromZoneId id)
    return ⟨id, name, iso⟩
  | _ => none

def loadFailed : SshError := .zones "Could not load zones. Check connection and try again."

def noZones : SshError := .zones "Invalid response: no zones"

/-- How a server that speaks SSH begins. -/
def sshBanner : List UInt8 := [0x53, 0x53, 0x48, 0x2d]

def parseZoneList (J : JsonLibrary) (body : List UInt8) : Except SshError ZoneList :=
  if sshBanner.isPrefixOf body then .error loadFailed
  else match J.fromSlice body with
    | .error _ => .error loadFailed
    | .ok value => do
      let root ← okOr loadFailed value.asObject
      let response := root.lookup "response"
      let hash := ((root.lookup "hash").bind Json.asStr).or
        ((response.bind (Json.get "hash")).bind Json.asStr)
      let zonesValue ← okOr noZones ((root.lookup "zones").or (response.bind (Json.get "zones")))
      let items ← okOr noZones zonesValue.asArray
      let zones := items.filterMap parseZoneItem
      if zones = [] then .error noZones
      else .ok ⟨hash, zones, false⟩

theorem firstStr_trimmed {members : List (String × Json)} {names : List String} {s : String}
    (h : firstStr members names = some s) : trimmed s = s ∧ s ≠ "" := by
  obtain ⟨name, -, hname⟩ := List.exists_of_findSome?_eq_some h
  obtain ⟨t, -, ht⟩ := Option.bind_eq_some_iff.1 hname
  split at ht
  · cases ht
  · next hne =>
    obtain rfl := Option.some.inj ht
    exact ⟨trimmed_trimmed t, hne⟩

theorem parseZoneItem_id {item : Json} {zone : ZoneInfo} (h : parseZoneItem item = some zone) :
    trimmed zone.id = zone.id ∧ zone.id ≠ "" := by
  cases item with
  | string s =>
    simp only [parseZoneItem] at h
    split at h
    · cases h
    · next hne =>
      obtain rfl := Option.some.inj h
      exact ⟨trimmed_trimmed s, hne⟩
  | object members =>
    obtain ⟨id, hid, hzone⟩ := Option.bind_eq_some_iff.1 h
    obtain rfl := Option.some.inj hzone
    exact firstStr_trimmed hid
  | _ => cases h

/-- The ids of a list that is accepted are trimmed and not empty. -/
theorem parseZoneList_id {J : JsonLibrary} {body : List UInt8} {list : ZoneList}
    (h : parseZoneList J body = .ok list) {zone : ZoneInfo} (hzone : zone ∈ list.zones) :
    trimmed zone.id = zone.id ∧ zone.id ≠ "" := by
  unfold parseZoneList at h
  split at h
  · cases h
  · split at h
    · cases h
    · obtain ⟨root, -, h⟩ := except_bind_eq_ok.1 h
      obtain ⟨zonesValue, -, h⟩ := except_bind_eq_ok.1 h
      obtain ⟨items, -, h⟩ := except_bind_eq_ok.1 h
      dsimp only at h
      split at h
      · cases h
      · obtain rfl := Except.ok.inj h
        obtain ⟨item, -, hitem⟩ := List.mem_filterMap.1 hzone
        exact parseZoneItem_id hitem

end Listing

section Requests

def userAgent : String := "smart_config/1.0"

structure ZoneHttpRequest where
  method : String
  host : String
  port : UInt16
  path : String
  contentType : Option String
  zoneId : Option String
  body : Option (List UInt8)
  https : Bool

def hostHeader (host : String) (port : UInt16) (https : Bool) : String :=
  let host := if ':' ∈ host.toList ∧ host.toList.head? ≠ some '[' then "[" ++ host ++ "]" else host
  let defaultPort : UInt16 := if https then 443 else 80
  if port = defaultPort then host else host ++ ":" ++ toString port.toNat

def isAsciiGraphic (c : Char) : Bool := 0x21 ≤ c.toNat && c.toNat ≤ 0x7e

/-- A zone id that is not printable could change the other headers, and is not sent. -/
def zoneHeader (zoneId : Option String) : String :=
  match (zoneId.map trimmed).filter fun id => id ≠ "" && id.toList.all isAsciiGraphic with
  | some id => "X-Zone-Id: " ++ id ++ "\r\n"
  | none => ""

def ZoneHttpRequest.requestLines (req : ZoneHttpRequest) : String :=
  req.method ++ " " ++ (if req.path = "" then "/" else req.path) ++ " HTTP/1.1\r\nHost: " ++
    hostHeader req.host req.port req.https ++ "\r\nConnection: close\r\nUser-Agent: " ++ userAgent ++
    "\r\nAccept: */*\r\n"

def ZoneHttpRequest.content (req : ZoneHttpRequest) : String :=
  (match req.contentType with
    | some ct => "Content-Type: " ++ ct ++ "\r\n"
    | none => "") ++
  match req.body with
    | some body => "Content-Length: " ++ toString body.length ++ "\r\n\r\n" ++ fromUtf8Lossy body
    | none => "\r\n"

def httpRequest (req : ZoneHttpRequest) : String :=
  req.requestLines ++ zoneHeader req.zoneId ++ req.content

/-- The request for the configuration of the tunnel. -/
def smartConfigRequest (host : String) (port : UInt16) (path : String) (https : Bool)
    (zoneId : Option String) : ZoneHttpRequest :=
  ⟨"GET", host, port, path, none, zoneId, none, https⟩

def zoneCommandBody (J : JsonLibrary) (username password : String) : String :=
  J.toText (.object
    [("command", .string "zone"), ("password", .string password), ("username", .string username)])

structure ZoneFetchRequest where
  host : String
  port : UInt16
  username : String
  password : String
  path : String
  https : Bool

/-- The request for the list of zones. -/
def ZoneFetchRequest.http (J : JsonLibrary) (req : ZoneFetchRequest) : ZoneHttpRequest :=
  ⟨"POST", req.host, req.port, req.path, some "application/json", none,
    some (zoneCommandBody J req.username req.password).toUTF8.data.toList, req.https⟩

structure HttpResponse where
  status : UInt16
  body : List UInt8
  deriving DecidableEq

/-- What the provider's answer to the request for the list comes to. -/
def ZoneFetchRequest.receive (J : JsonLibrary) (req : ZoneFetchRequest) (response : HttpResponse) :
    Except SshError ZoneList :=
  if sshBanner.isPrefixOf response.body then
    .error (.zones ("This port speaks SSH. Country lists require a Smart Config zone host, not an " ++
      "SSH Direct port."))
  else if ¬ (200 ≤ response.status ∧ response.status < 300) then
    .error (.zones ("Could not load zones. Smart Config host returned HTTP " ++
      toString response.status.toNat ++ "."))
  else do
    let list ← parseZoneList J response.body
    return { list with https := req.https }

end Requests

end EasyConnection.Ssh
