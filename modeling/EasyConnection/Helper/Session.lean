import EasyConnection.Dns.Policy
import EasyConnection.Helper.Kernel
import EasyConnection.Helper.Spec
import Mathlib.Data.List.Infix

/-! # Bringing a session up and down

The helper's routines as programs. Each call is a point at which another connection's routine
may run; none of the routines holds the session record over a call.
-/
namespace EasyConnection.Helper
open Async Net Nftables Dns

abbrev HelperM := Prog Op Ans

namespace Call

abbrev sessionActive : HelperM Bool := Prog.perform Op.sessionActive
abbrev takeSession : HelperM (Option (List AddedRoute)) := Prog.perform Op.takeSession
abbrev setSession (added : List AddedRoute) : HelperM Unit := Prog.perform (Op.setSession added)
abbrev tunOpen : HelperM (Except String Fd) := Prog.perform Op.tunOpen
abbrev tunClose (fd : Fd) : HelperM Unit := Prog.perform (Op.tunClose fd)
abbrev ip (cmd : IpCmd) : HelperM (Except Failure Unit) := Prog.perform (Op.ip cmd)
abbrev nftDelete : HelperM (Except Failure Unit) := Prog.perform Op.nftDelete
abbrev nftLoad (script : String) : HelperM (Except Failure Unit) :=
  Prog.perform (Op.nftLoad script)
abbrev resolvectl (cmd : ResolvedCmd) : HelperM (Except Failure Unit) :=
  Prog.perform (Op.resolvectl cmd)
abbrev readJournal : HelperM (Option (List AddedRoute)) := Prog.perform Op.readJournal
abbrev writeJournal (added : List AddedRoute) : HelperM (Except String Unit) :=
  Prog.perform (Op.writeJournal added)
abbrev removeJournal : HelperM Unit := Prog.perform Op.removeJournal

end Call

/-- The part of a routine that ends at its first error. -/
abbrev TryM := ExceptT String HelperM

def runIp (cmd : IpCmd) : TryM Unit := ExceptT.mk do
  match ← Call.ip cmd with
  | .ok () => return .ok ()
  | .error (.io text) => return .error ("I/O error: " ++ text)
  | .error (.status text) =>
    return .error ("ip " ++ " ".intercalate cmd.args ++ " failed: " ++ text)

/-- Run a step whose failure does not matter. -/
def ignore (step : TryM Unit) : HelperM Unit := do
  let _ ← step.run

def restoreRoutes : List AddedRoute → HelperM Unit
  | [] => pure ()
  | r :: rest => do
    ignore (runIp (.routeDel r))
    restoreRoutes rest

def restoreAdded (added : List AddedRoute) : HelperM Unit := restoreRoutes added.reverse

def restoreRecorded : Option (List AddedRoute) → HelperM Unit
  | some added => restoreAdded added
  | none => pure ()

/-- A missing table, like any other failure that `nft` reports, is not an error here. -/
def flushTable : TryM Unit := ExceptT.mk do
  match ← Call.nftDelete with
  | .error (.io text) => return .error text
  | _ => return .ok ()

def applyTable (script : String) : TryM Unit := do
  flushTable
  ExceptT.mk do
    match ← Call.nftLoad script with
    | .ok () => return .ok ()
    | .error (.io text) => return .error text
    | .error (.status text) => return .error ("nft apply failed: " ++ text)

def revertResolved (dev : String) : HelperM Unit := do
  let _ ← Call.resolvectl (.revert dev)
  let _ ← Call.resolvectl .flushCaches

def cleanupStale : HelperM Unit := do
  revertResolved tunName
  let journal ← Call.readJournal
  restoreRecorded journal
  ignore flushTable
  ignore (runIp (.linkDelete tunName))
  Call.removeJournal

def teardownSession : HelperM Unit := do
  revertResolved tunName
  let session ← Call.takeSession
  restoreRecorded session
  cleanupStale

def createNamedTun (name : String) : TryM Fd := ExceptT.mk do
  if name ≠ tunName then
    return .error ("invalid TUN name `" ++ name ++ "` — helper will only manage `" ++ tunName ++
      "`")
  else Call.tunOpen

def tunAddrV6 : IpAddr := .v6 (0xfd726f636b6500000000000000000002)

def tunPrefixV6 : ℕ := 64

/-- An address that the device has already is as good as one just added. -/
def addAddr (addr dev : String) : TryM Unit := ExceptT.mk do
  match ← (runIp (.addrAdd addr dev)).run with
  | .ok () => return .ok ()
  | .error e => return if "File exists".toList <:+: e.toList then .ok () else .error e

def configureTun (spec : ApplySpec) : TryM Unit := do
  runIp (.linkSetMtu spec.tunName spec.mtu)
  addAddr (v4Text spec.tunAddr ++ "/" ++ toString spec.tunPrefix) spec.tunName
  if spec.ipv6 then
    addAddr (tunAddrV6.text ++ "/" ++ toString tunPrefixV6) spec.tunName
  runIp (.linkSetUp spec.tunName)

def resolvedNote (cmd : ResolvedCmd) : HelperM String := do
  match ← Call.resolvectl cmd with
  | .ok () => return " ".intercalate cmd.args ++ ":ok"
  | .error (.io text) => return " ".intercalate cmd.args ++ ":" ++ text
  | .error (.status text) => return " ".intercalate cmd.args ++ ":" ++ text

def configureResolved (dev : String) (servers : List String) : HelperM String := do
  let dns ← resolvedNote (.dns dev (if servers = [] then defaultDnsServers else servers))
  let domain ← resolvedNote (.domain dev)
  let route ← resolvedNote (.defaultRoute dev)
  let flush ← resolvedNote .flushCaches
  return " | ".intercalate [dns, domain, route, flush]

/-- On failure, run the clean-up and fail all the same. -/
def orElse (step : TryM Unit) (undo : HelperM Unit) : TryM Unit := ExceptT.mk do
  match ← step.run with
  | .ok () => return .ok ()
  | .error e =>
    undo
    return .error e

def upMessage (spec : ApplySpec) (policy : DnsPolicy) : String :=
  "TUN " ++ spec.tunName ++ " up, nftables table inet " ++ nftTable ++ " (TCP :" ++
    toString spec.transproxyPort ++ ", DNS :" ++ toString spec.dnsPort ++ ", UDP :" ++
    (if spec.udpPort = 0 then "reject" else toString spec.udpPort) ++ ", ipv6=" ++
    toString spec.ipv6 ++ ", dns=" ++ policy.asStr ++ ")"

def dnsNote (spec : ApplySpec) (policy : DnsPolicy) : HelperM String :=
  if shouldConfigureResolved policy then
    configureResolved spec.tunName (resolveServers policy spec.dnsServers)
  else return "system DNS left unchanged"

def recordSession : TryM Unit := do
  ExceptT.mk (Call.writeJournal [])
  Call.setSession []

/-- `applySpec` from the creation of the device on. -/
def bringUp (spec : ApplySpec) : TryM String := do
  orElse (configureTun spec) (ignore (runIp (.linkDelete tunName)))
  orElse (applyTable (renderTable spec.tableArgs)) (do
    restoreAdded []
    ignore (runIp (.linkDelete tunName)))
  let policy := effectivePolicy true (DnsPolicy.parse spec.dnsMode)
  let _ ← dnsNote spec policy
  recordSession
  return upMessage spec policy

/-- A failure after the device was created closes its descriptor. -/
def buildSession (spec : ApplySpec) : HelperM (Except String (String × Fd)) := do
  cleanupStale
  match ← (createNamedTun spec.tunName).run with
  | .error e => return .error e
  | .ok fd =>
    match ← (bringUp spec).run with
    | .error e =>
      Call.tunClose fd
      return .error e
    | .ok msg => return .ok (msg, fd)

def sessionActiveMessage : String := "a tunnel session is already active; disconnect first"

def applySpec (spec : ApplySpec) : HelperM (Except String (String × Fd)) :=
  match spec.validate with
  | .error e => pure (.error e)
  | .ok () => do
    let active ← Call.sessionActive
    if active then return .error sessionActiveMessage
    else buildSession spec

end EasyConnection.Helper
