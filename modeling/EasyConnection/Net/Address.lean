import Mathlib.Algebra.Group.Nat.Defs
import Mathlib.Data.List.Basic

/-! # Addresses and networks

Addresses are bit vectors with the text that the standard library prints for them; a network
is an address with the number of leading bits that count.
-/
namespace EasyConnection.Net

inductive IpAddr where
  | v4 (a : BitVec 32)
  | v6 (a : BitVec 128)
  deriving DecidableEq, Repr

/-- The fields of an address from the left, `k` of `w` bits each. -/
def fields {n : ℕ} (w k : ℕ) (a : BitVec n) : List ℕ :=
  (List.range k).map fun i => a.toNat / 2 ^ (w * (k - 1 - i)) % 2 ^ w

/-- The first of the longest runs of zeros, as its start and its length. -/
def zeroSpan : List ℕ → (i : ℕ) → (current longest : ℕ × ℕ) → ℕ × ℕ
  | [], _, _, longest => longest
  | segment :: rest, i, current, longest =>
    if segment = 0 then
      let current := (if current.2 = 0 then i else current.1, current.2 + 1)
      zeroSpan rest (i + 1) current (if current.2 > longest.2 then current else longest)
    else zeroSpan rest (i + 1) (0, 0) longest

def hexGroups (segments : List ℕ) : String :=
  ":".intercalate (segments.map fun s => String.ofList (Nat.toDigits 16 s))

def v4Text (a : BitVec 32) : String := ".".intercalate ((fields 8 4 a).map toString)

/-- An address that embeds an IPv4 address is printed with it. -/
def v6Text (a : BitVec 128) : String :=
  if a.toNat / 2 ^ 32 = 0xffff then "::ffff:" ++ v4Text (a.setWidth 32)
  else
    let segments := fields 16 8 a
    let zeroes := zeroSpan segments 0 (0, 0) (0, 0)
    if zeroes.2 > 1 then
      hexGroups (segments.take zeroes.1) ++ "::" ++ hexGroups (segments.drop (zeroes.1 + zeroes.2))
    else hexGroups segments

def IpAddr.text : IpAddr → String
  | .v4 a => v4Text a
  | .v6 a => v6Text a

/-- Version 4 addresses come first. -/
def IpAddr.le : IpAddr → IpAddr → Bool
  | .v4 a, .v4 b => a ≤ b
  | .v4 _, .v6 _ => true
  | .v6 _, .v4 _ => false
  | .v6 a, .v6 b => a ≤ b

def IpAddr.ofOctets (a b c d : ℕ) : IpAddr :=
  .v4 (BitVec.ofNat 32 (((a * 256 + b) * 256 + c) * 256 + d))

inductive IpNet where
  | v4 (a : BitVec 32) (len : Fin 33)
  | v6 (a : BitVec 128) (len : Fin 129)
  deriving DecidableEq, Repr

namespace IpNet

def addr : IpNet → IpAddr
  | .v4 a _ => .v4 a
  | .v6 a _ => .v6 a

def text : IpNet → String
  | .v4 a len => v4Text a ++ "/" ++ toString len.val
  | .v6 a len => v6Text a ++ "/" ++ toString len.val

/-- An address lies in a network of its own family with which it shares the leading bits. -/
def contains : IpNet → IpAddr → Bool
  | .v4 a len, .v4 b => a >>> (32 - len.val) == b >>> (32 - len.val)
  | .v6 a len, .v6 b => a >>> (128 - len.val) == b >>> (128 - len.val)
  | _, _ => false

end IpNet

/-- `127.0.0.0/8` -/
def loopbackV4 : IpNet := .v4 0x7f000000 8

/-- `::1` -/
def loopbackV6 : IpAddr := .v6 1

namespace IpAddr

def isLoopback (a : IpAddr) : Bool := loopbackV4.contains a || a == loopbackV6

/-- The address that a redirect of a local packet writes into it. -/
def loopback : IpAddr → IpAddr
  | .v4 _ => .v4 0x7f000001
  | .v6 _ => loopbackV6

theorem isLoopback_loopback (a : IpAddr) : a.loopback.isLoopback = true := by
  cases a <;> rfl

end IpAddr

structure SocketAddr where
  ip : IpAddr
  port : UInt16
  deriving DecidableEq, Repr

def SocketAddr.isIpv6 (addr : SocketAddr) : Bool :=
  match addr.ip with
  | .v4 _ => false
  | .v6 _ => true

/-- The private, link-local and unique-local networks. -/
def privateCidrs : List IpNet :=
  [.v4 0x0a000000 8, .v4 0xac100000 12, .v4 0xc0a80000 16, .v4 0xa9fe0000 16,
    .v6 (0xfc00 <<< 112) 7, .v6 (0xfe80 <<< 112) 10]

end EasyConnection.Net
