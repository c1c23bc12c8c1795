import EasyConnection.Async.Prog
import EasyConnection.Config.Import
import EasyConnection.Config.SmartLink
import EasyConnection.Secrets.Vault
import EasyConnection.Ssh.Zones

/-! # The application controller

Profiles are rows of a table and hold references into the vault, where the secrets are. An
operation of the controller is a program over the two stores: each access to one of them, each
request to a provider, each drawn id and each look at the clock is one call.
-/
namespace EasyConnection.Core
open Async Codec Config Secrets Ssh

inductive CoreError where
  | config (e : ConfigError)
  | secrets (e : SecretsError)
  | other (message : String)
  deriving DecidableEq

/-- The functions of the libraries. -/
structure Library where
  json : JsonLibrary
  imports : ImportLibrary
  decodeRocketSmartLink : String → Except ConfigError RocketSmartConfig

section Accesses

structure World where
  profiles : AList fun _ : Uuid => ConnectionConfig
  vault : Entries

namespace World

def empty : World := ⟨∅, ∅⟩

def store (w : World) (cfg : ConnectionConfig) : World :=
  { w with profiles := w.profiles.insert cfg.id cfg }

def drop (w : World) (id : Uuid) : World := { w with profiles := w.profiles.erase id }

def put (w : World) (ref : SecretRef) (value : String) : World :=
  { w with vault := (Secrets.Request.put ref.id value).apply w.vault }

def forget (w : World) (ref : SecretRef) : World :=
  { w with vault := (Secrets.Request.delete ref.id).apply w.vault }

/-- The references of all profiles. -/
def refs (w : World) : List SecretRef := w.profiles.entries.flatMap fun row => row.2.secretRefs

end World

inductive Op where
  | now
  | newId
  | getProfile (id : Uuid)
  | upsertProfile (cfg : ConnectionConfig)
  | deleteProfile (id : Uuid)
  | getSecret (ref : SecretRef)
  | putSecret (value : String)
  | updateSecret (ref : SecretRef) (value : String)
  | deleteSecret (ref : SecretRef)
  | exchange (req : ZoneHttpRequest)

abbrev Ans : Op → Type
  | .now => Time
  | .newId => Uuid
  | .getProfile _ => Except ConfigError ConnectionConfig
  | .upsertProfile _ => Except ConfigError Unit
  | .deleteProfile _ => Except ConfigError Unit
  | .getSecret _ => Except SecretsError String
  | .putSecret _ => Except SecretsError SecretRef
  | .updateSecret _ _ => Except SecretsError Unit
  | .deleteSecret _ => Except SecretsError Unit
  | .exchange _ => Except SshError HttpResponse

/-- How a call goes that does not depend on the stores alone. -/
structure Choice where
  now : Time
  uuid : Uuid
  fault : Option String
  response : Except SshError HttpResponse

def hexDigits (n : ℕ) : ℕ → List Char
  | 0 => []
  | k + 1 => hexDigits (n / 16) k ++ [Nat.digitChar (n % 16)]

def uuidText (u : Uuid) : String :=
  let digits := hexDigits u.toNat 32
  let group (skip n : ℕ) := (digits.drop skip).take n
  String.ofList (['-'].intercalate [group 0 8, group 8 4, group 12 4, group 16 4, group 20 12])

example : uuidText 0x550e8400e29b41d4a716446655440000 = "550e8400-e29b-41d4-a716-446655440000" := by
  decide +kernel

/-- A new reference, with the id that has been drawn for it. -/
def newRef (u : Uuid) : SecretRef := ⟨"sec_" ++ uuidText u⟩

/-- An access to the vault, which may fail as a whole. -/
def World.vaultCall {α : Type} (w : World) (c : Choice) (r : World × Except SecretsError α) :
    World × Except SecretsError α :=
  match c.fault with
  | some message => (w, .error (.io message))
  | none => r

def exec [Texts] : (o : Op) → Choice → World → World × Ans o
  | .now, c, w => (w, c.now)
  | .newId, c, w => (w, c.uuid)
  | .getProfile id, c, w =>
    match c.fault, w.profiles.lookup id with
    | none, some cfg => (w, .ok cfg)
    | _, _ => (w, .error (.notFound (uuidText id)))
  | .upsertProfile cfg, c, w =>
    match validateConnection cfg, c.fault with
    | .error e, _ => (w, .error e)
    | .ok (), some message => (w, .error (.db message))
    | .ok (), none => (w.store cfg, .ok ())
  | .deleteProfile id, c, w =>
    match c.fault with
    | some message => (w, .error (.db message))
    | none =>
      if id ∈ w.profiles then (w.drop id, .ok ())
      else (w, .error (.notFound (uuidText id)))
  | .getSecret ref, c, w =>
    if ref.id = "" then (w, .error .invalidRef)
    else w.vaultCall c (w, okOr (.notFound ref.id) (w.vault.lookup ref.id))
  | .putSecret value, c, w =>
    w.vaultCall c (w.put (newRef c.uuid) value, .ok (newRef c.uuid))
  | .updateSecret ref value, c, w =>
    if ref.id = "" ∨ ¬ "sec_".toList <+: ref.id.toList then (w, .error .invalidRef)
    else w.vaultCall c (w.put ref value, .ok ())
  | .deleteSecret ref, c, w => w.vaultCall c (w.forget ref, .ok ())
  | .exchange _, c, w => (w, c.response)

/-- An id that is drawn is in use nowhere. -/
def Unused : Op → Choice → World → Prop
  | .newId, c, w => c.uuid ∉ w.profiles
  | .putSecret _, c, w => (newRef c.uuid).id ∉ w.vault ∧ newRef c.uuid ∉ w.refs
  | _, _, _ => True

instance (o : Op) (c : Choice) (w : World) : Decidable (Unused o c w) :=
  match o with
  | .newId => inferInstanceAs (Decidable (c.uuid ∉ w.profiles))
  | .putSecret _ =>
    inferInstanceAs (Decidable ((newRef c.uuid).id ∉ w.vault ∧ newRef c.uuid ∉ w.refs))
  | .now | .getProfile _ | .upsertProfile _ | .deleteProfile _ | .getSecret _ | .updateSecret _ _
  | .deleteSecret _ | .exchange _ => .isTrue trivial

end Accesses

section Operations

abbrev CoreM := ExceptT CoreError (Prog Op Ans)

def perform (o : Op) : Prog Op Ans (Ans o) := Prog.perform o

def now : CoreM Time := liftM (perform .now)

def newId : CoreM Uuid := liftM (perform .newId)

def exchange (req : ZoneHttpRequest) : CoreM (Except SshError HttpResponse) :=
  liftM (perform (.exchange req))

def ofConfig {α : Type} (p : Prog Op Ans (Except ConfigError α)) : CoreM α :=
  ExceptT.mk do return (← p).mapError .config

def ofSecrets {α : Type} (p : Prog Op Ans (Except SecretsError α)) : CoreM α :=
  ExceptT.mk do return (← p).mapError .secrets

def check {α : Type} (r : Except ConfigError α) : CoreM α := ExceptT.mk (pure (r.mapError .config))

def getProfile (id : Uuid) : CoreM ConnectionConfig := ofConfig (perform (.getProfile id))

def upsertProfile (cfg : ConnectionConfig) : CoreM Unit :=
  ofConfig (perform (.upsertProfile cfg))

def getSecret (ref : SecretRef) : CoreM String := ofSecrets (perform (.getSecret ref))

def putSecret (value : String) : CoreM SecretRef := ofSecrets (perform (.putSecret value))

def saveProfile [Texts] (cfg : ConnectionConfig) : CoreM ConnectionConfig := do
  let cfg := { cfg with updatedAt := ← now, routingMode := .proxyOnly }
  check (validateConnection cfg)
  upsertProfile cfg
  return cfg

def deleteProfile (id : Uuid) : CoreM Unit := do
  let cfg ← getProfile id
  ofConfig (perform (.deleteProfile id))
  match cfg.smartLinkSecret with
  | some secret => ofSecrets (perform (.deleteSecret secret))
  | none => return ()

/-- A copy of a vault entry under a reference of its own. -/
def cloneSecret : Option SecretRef → CoreM (Option SecretRef)
  | none => return none
  | some old => do
    let value ← getSecret old
    return some (← putSecret value)

def cloneAuth : AuthMethod → CoreM AuthMethod
  | .password secret => return .password (← cloneSecret secret)
  | .privateKey path passphrase keyMaterial =>
    return .privateKey path (← cloneSecret passphrase) (← cloneSecret keyMaterial)
  | auth => return auth

def duplicateProfile (id : Uuid) : CoreM ConnectionConfig := do
  let cfg ← getProfile id
  let copyId ← newId
  let created ← now
  let authentication ← cloneAuth cfg.authentication
  let smartLinkSecret ← cloneSecret cfg.smartLinkSecret
  let copy := { cfg with
    id := copyId
    name := cfg.name ++ " (copy)"
    createdAt := created
    updatedAt := created
    authentication
    smartLinkSecret }
  upsertProfile copy
  return copy

/-- The reference under which a password is stored: the one the profile has, or a new one. -/
def storePassword (auth : AuthMethod) (password : String) : CoreM SecretRef :=
  match auth with
  | .password (some existing) => do
    ofSecrets (perform (.updateSecret existing password))
    return existing
  | _ => putSecret password

def setPasswordSecret (id : Uuid) (password : String) : CoreM ConnectionConfig := do
  let cfg ← getProfile id
  let reference ← storePassword cfg.authentication password
  let cfg := { cfg with authentication := .password (some reference), updatedAt := ← now }
  upsertProfile cfg
  return cfg

/-- The upsert that ends an import of a link. If it fails, the link is taken out of the vault
again, and how that goes is not looked at. -/
def upsertOrForget (cfg : ConnectionConfig) (secret : SecretRef) : CoreM Unit :=
  ExceptT.mk do
    match ← (upsertProfile cfg).run with
    | .ok () => return .ok ()
    | .error e =>
      let _ ← perform (.deleteSecret secret)
      return .error e

def importSmartLink (L : Library) (link : String) : CoreM ConnectionConfig := do
  let smart ← check (L.decodeRocketSmartLink link)
  match smart.zoneHosts with
  | [] => throw (.other "Smart Config has no zone-capable host")
  | (host, _) :: _ =>
    let secret ← putSecret link
    let cfg := ConnectionConfig.newSmart (← newId) (← now) "RocketTunnel Smart Config" host.host
      host.port secret
    upsertOrForget cfg secret
    return cfg

/-- Ask the hosts one after another, and keep the first list in the profile. -/
def fetchFrom (L : Library) (cfg : ConnectionConfig) (smart : RocketSmartConfig) :
    List (RocketSmartHost × Bool) → CoreM ZonesCache
  | [] => throw (.other "Could not load zones from this Smart Config")
  | (host, https) :: rest => do
    let req : ZoneFetchRequest :=
      ⟨host.host, host.port, smart.username, smart.password, smart.path, https⟩
    match (← exchange (req.http L.json)) >>= req.receive L.json with
    | .error _ => fetchFrom L cfg smart rest
    | .ok list =>
      let cache : ZonesCache := ⟨list.hash, list.zones, ← now, list.https⟩
      upsertProfile { cfg with zonesCache := some cache, updatedAt := ← now }
      return cache

def fetchZones (L : Library) (id : Uuid) : CoreM ZonesCache := do
  let cfg ← getProfile id
  match cfg.smartLinkSecret with
  | none => throw (.other "This plain SSH profile has no Smart Config zone endpoint")
  | some secret =>
    let link ← getSecret secret
    let smart ← check (L.decodeRocketSmartLink link)
    fetchFrom L cfg smart smart.zoneHosts

def setSelectedZone (id : Uuid) (zoneId : Option String) : CoreM ConnectionConfig := do
  let cfg ← getProfile id
  if cfg.protocol ≠ .ssh then throw (.other "zones are only available for SSH profiles")
  let selectedZone := (zoneId.map trimmed).filter (· ≠ "")
  if cfg.smartLinkSecret.isSome then
    if selectedZone.any fun selected =>
        !cfg.zonesCache.any fun cache => cache.zones.any fun zone => zone.id == selected then
      throw (.other "Load countries before selecting a zone")
    let cfg := { cfg with selectedZone := selectedZone, updatedAt := ← now }
    upsertProfile cfg
    return cfg
  else
    if selectedZone.isSome then
      throw (.other ("Exit-zone selection is not supported on plain SSH profiles. Use Auto, or a " ++
        "Smart Config client that implements the encrypted tunnel response."))
    let cfg := { cfg with selectedZone := none, zonesCache := none, updatedAt := ← now }
    upsertProfile cfg
    return cfg

def importProfileText [Texts] (L : Library) (raw : String) : CoreM ConnectionConfig := do
  let parsed ← check (parseImport L.imports (← newId) (← now) raw)
  match parsed.password with
  | none => saveProfile parsed.config
  | some password =>
    let secret ← putSecret password
    saveProfile { parsed.config with authentication := .password (some secret) }

/-- The authentication of a profile that is being built, with the secrets themselves. -/
inductive Credentials where
  | password (secret : Option String)
  | privateKey (path passphrase keyMaterial : Option String)
  | agent
  | none
  deriving DecidableEq

/-- A profile that is being built, with the secrets that it is to hold. -/
structure Draft where
  config : ConnectionConfig
  credentials : Credentials
  proxyAuth : Option String
  smartLink : Option String
  deriving DecidableEq

def storeSecret : Option String → CoreM (Option SecretRef)
  | none => return none
  | some value => return some (← putSecret value)

def Credentials.store : Credentials → CoreM AuthMethod
  | .password secret => return .password (← storeSecret secret)
  | .privateKey path passphrase keyMaterial =>
    return .privateKey path (← storeSecret passphrase) (← storeSecret keyMaterial)
  | .agent => return .agent
  | .none => return .none

/-- What the commands that add a profile do: they build it, put its secrets in the vault and save
it. -/
def addProfile [Texts] (draft : Draft) : CoreM ConnectionConfig := do
  let id ← newId
  let created ← now
  let authentication ← draft.credentials.store
  let proxyAuth ← storeSecret draft.proxyAuth
  let smartLinkSecret ← storeSecret draft.smartLink
  saveProfile { draft.config with
    id
    createdAt := created
    authentication
    proxy := { draft.config.proxy with authSecret := proxyAuth }
    smartLinkSecret }

end Operations

section Requests

inductive Request where
  | addProfile (draft : Draft)
  | saveProfile (cfg : ConnectionConfig)
  | deleteProfile (id : Uuid)
  | duplicateProfile (id : Uuid)
  | setPasswordSecret (id : Uuid) (password : String)
  | importSmartLink (link : String)
  | importProfileText (raw : String)
  | fetchZones (id : Uuid)
  | setSelectedZone (id : Uuid) (zoneId : Option String)
  deriving DecidableEq

/-- What an operation returns. -/
inductive Reply where
  | profile (cfg : ConnectionConfig)
  | zones (cache : ZonesCache)
  | unit
  deriving DecidableEq

def Request.program [Texts] (L : Library) : Request → Prog Op Ans (Except CoreError Reply)
  | .addProfile draft => (Reply.profile <$> Core.addProfile draft).run
  | .saveProfile cfg => (Reply.profile <$> Core.saveProfile cfg).run
  | .deleteProfile id => ((fun _ => Reply.unit) <$> Core.deleteProfile id).run
  | .duplicateProfile id => (Reply.profile <$> Core.duplicateProfile id).run
  | .setPasswordSecret id password => (Reply.profile <$> Core.setPasswordSecret id password).run
  | .importSmartLink link => (Reply.profile <$> Core.importSmartLink L link).run
  | .importProfileText raw => (Reply.profile <$> Core.importProfileText L raw).run
  | .fetchZones id => (Reply.zones <$> Core.fetchZones L id).run
  | .setSelectedZone id zoneId => (Reply.profile <$> Core.setSelectedZone id zoneId).run

/-- An operation from its first access to its last. -/
def World.perform [Texts] (L : Library) (w : World) (req : Request) (cs : List Choice) :
    Option (Except CoreError Reply × World) :=
  (req.program L).runWith exec Unused cs w

end Requests

end EasyConnection.Core

namespace EasyConnection.Sample
open Codec Config

/-- A list of zones, as a provider sends it. -/
def zonesJson (ids : List String) : Json := .object [("zones", .array (ids.map .string))]

/-- Libraries that know three lists of zones, one link and some exports. -/
def coreLibrary (exports : List (Json × ConnectionConfig)) : Core.Library where
  json := jsonLibrary [zonesJson ["de4"], zonesJson ["us2"], zonesJson ["de4", "New York"]]
  imports := importLibrary exports
  decodeRocketSmartLink link :=
    if link = smartLink then .ok smart
    else .error (.importError "RocketTunnel Smart Config: invalid URL")

end EasyConnection.Sample
