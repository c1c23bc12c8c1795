import EasyConnection.Async.Prog
import EasyConnection.Nftables.Rules

/-! # What the helper acts on

The world holds the session record that all connections share and the objects that the helper
manages by name: the TUN device, the nft table, the link's DNS settings and the journal file.
A call is one command, one file operation or one access to the record; the environment may let
any command fail.
-/
namespace EasyConnection.Helper
open Async Net Nftables

abbrev Fd := ℕ

structure AddedRoute where
  dest : String
  via : Option IpAddr
  dev : String
  deriving DecidableEq

/-- The session record. The helper keeps only the routes; which connection applied the session
is kept here to speak about it. -/
structure ActiveSession (ι : Type) where
  added : List AddedRoute
  appliedBy : ι
  deriving DecidableEq

inductive IpCmd where
  | linkSetMtu (dev : String) (mtu : UInt16)
  | addrAdd (addr dev : String)
  | linkSetUp (dev : String)
  | linkDelete (dev : String)
  | routeDel (r : AddedRoute)
  deriving DecidableEq

def IpCmd.args : IpCmd → List String
  | .linkSetMtu dev mtu => ["link", "set", dev, "mtu", toString mtu]
  | .addrAdd addr dev => ["addr", "add", addr, "dev", dev]
  | .linkSetUp dev => ["link", "set", dev, "up"]
  | .linkDelete dev => ["link", "delete", dev]
  | .routeDel r => ["route", "del", r.dest] ++
      (match r.via with
        | some gw => ["via", gw.text]
        | none => []) ++ ["dev", r.dev]

inductive ResolvedCmd where
  | dns (dev : String) (servers : List String)
  | domain (dev : String)
  | defaultRoute (dev : String)
  | flushCaches
  | revert (dev : String)
  deriving DecidableEq

def ResolvedCmd.args : ResolvedCmd → List String
  | .dns dev servers => ["dns", dev] ++ servers
  | .domain dev => ["domain", dev, "~."]
  | .defaultRoute dev => ["default-route", dev, "yes"]
  | .flushCaches => ["flush-caches"]
  | .revert dev => ["revert", dev]

/-- A command could not be run, or it ran and reported a failure. -/
inductive Failure where
  | io (text : String)
  | status (text : String)
  deriving DecidableEq

structure World (ι : Type) where
  session : Option (ActiveSession ι)
  /-- The device `easy0`, by the descriptor that created it. -/
  tun : Option Fd
  nextFd : Fd
  /-- The scripts loaded into `table inet easy` since it was created. -/
  table : Option (List String)
  /-- The DNS settings of the device. -/
  resolved : List ResolvedCmd
  journal : Option (List AddedRoute)
  deriving DecidableEq

inductive Op where
  | sessionActive
  | takeSession
  | setSession (added : List AddedRoute)
  | tunOpen
  | tunClose (fd : Fd)
  | ip (cmd : IpCmd)
  | nftDelete
  | nftLoad (script : String)
  | resolvectl (cmd : ResolvedCmd)
  | readJournal
  | writeJournal (added : List AddedRoute)
  | removeJournal
  deriving DecidableEq

def Ans : Op → Type
  | .sessionActive => Bool
  | .takeSession => Option (List AddedRoute)
  | .setSession _ => Unit
  | .tunOpen => Except String Fd
  | .tunClose _ => Unit
  | .ip _ => Except Failure Unit
  | .nftDelete => Except Failure Unit
  | .nftLoad _ => Except Failure Unit
  | .resolvectl _ => Except Failure Unit
  | .readJournal => Option (List AddedRoute)
  | .writeJournal _ => Except String Unit
  | .removeJournal => Unit

variable {ι : Type}

namespace World
variable (w : World ι)

def present (dev : String) : Bool := dev == tunName && w.tun.isSome

/-- Deleting the device takes its DNS settings with it. -/
def dropTun : World ι := { w with tun := none, resolved := [] }

/-- The device goes with the last descriptor of it. -/
def closeTun (fd : Fd) : World ι := if w.tun = some fd then w.dropTun else w

@[simp] theorem closeTun_session (fd : Fd) : (w.closeTun fd).session = w.session := by
  unfold closeTun
  split_ifs <;> rfl

def noDevice (dev : String) : Failure := .status ("Cannot find device \"" ++ dev ++ "\"")

def ip : IpCmd → World ι × Except Failure Unit
  | .linkDelete dev => if w.present dev then (w.dropTun, .ok ()) else (w, .error (noDevice dev))
  | .linkSetMtu dev _ => (w, if w.present dev then .ok () else .error (noDevice dev))
  | .addrAdd _ dev => (w, if w.present dev then .ok () else .error (noDevice dev))
  | .linkSetUp dev => (w, if w.present dev then .ok () else .error (noDevice dev))
  | .routeDel _ => (w, .ok ())

def resolvectl (cmd : ResolvedCmd) : World ι × Except Failure Unit :=
  match cmd with
  | .flushCaches => (w, .ok ())
  | .revert dev =>
    if w.present dev then ({ w with resolved := [] }, .ok ()) else (w, .error (noDevice dev))
  | .dns dev _ | .domain dev | .defaultRoute dev =>
    if w.present dev then ({ w with resolved := w.resolved ++ [cmd] }, .ok ())
    else (w, .error (noDevice dev))

end World

/-- A call of connection `me`; the environment chooses a failure or none. A failed command has
no effect, and `easy0` can be created only while there is none. -/
def exec (me : ι) : (o : Op) → Option Failure → World ι → World ι × Ans o
  | .sessionActive, _, w => (w, w.session.isSome)
  | .takeSession, _, w => ({ w with session := none }, w.session.map ActiveSession.added)
  | .setSession added, _, w => ({ w with session := some ⟨added, me⟩ }, ())
  | .tunOpen, some (.io text), w =>
    (w, .error ("cannot open /dev/net/tun: " ++ text ++
      ". The privileged helper needs CAP_NET_ADMIN."))
  | .tunOpen, some (.status text), w => (w, .error ("ioctl TUNSETIFF: " ++ text))
  | .tunOpen, none, w =>
    if w.tun.isSome then
      (w, .error "ioctl TUNSETIFF: Device or resource busy (os error 16)")
    else ({ w with tun := some w.nextFd, nextFd := w.nextFd + 1 }, .ok w.nextFd)
  | .tunClose fd, _, w => (w.closeTun fd, ())
  | .ip _, some e, w => (w, .error e)
  | .ip cmd, none, w => w.ip cmd
  | .nftDelete, some e, w => (w, .error e)
  | .nftDelete, none, w =>
    if w.table.isSome then ({ w with table := none }, .ok ())
    else (w, .error (.status "Error: No such file or directory"))
  | .nftLoad _, some e, w => (w, .error e)
  | .nftLoad script, none, w => ({ w with table := some (w.table.getD [] ++ [script]) }, .ok ())
  | .resolvectl _, some e, w => (w, .error e)
  | .resolvectl cmd, none, w => w.resolvectl cmd
  | .readJournal, some _, w => (w, none)
  | .readJournal, none, w => (w, w.journal)
  | .writeJournal _, some (.io text), w => (w, .error text)
  | .writeJournal _, some (.status text), w => (w, .error text)
  | .writeJournal added, none, w => ({ w with journal := some added }, .ok ())
  | .removeJournal, some _, w => (w, ())
  | .removeJournal, none, w => ({ w with journal := none }, ())

end EasyConnection.Helper
