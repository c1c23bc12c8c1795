import EasyConnection.Async.Run
import EasyConnection.Config.Model

/-! # Host keys

A server proves itself by a key, which is looked up in a file of known hosts. With trust on first
use a key is accepted, and recorded, if the lookup finds nothing to compare it with. The lookup is
the SSH library's. It compares keys of one algorithm only, so a server that is known by a key of
one algorithm is not known by its keys of another.
-/
namespace EasyConnection.Ssh
open Async Config

structure PublicKey where
  algorithm : String
  blob : List UInt8
  deriving DecidableEq

inductive KeysError where
  | keyChanged (line : ℕ)
  | other (message : String)
  deriving DecidableEq

inductive HostKeyError where
  | mismatch (host : String) (port : UInt16)
  | changed (host : String) (port : UInt16) (line : ℕ)
  | russh (message : String)
  | config (message : String)
  deriving DecidableEq

structure HostKeyVerifier where
  host : String
  port : UInt16
  policy : HostKeyPolicy
  deriving DecidableEq

/-- What the SSH library does with a file of known hosts. -/
structure KnownHosts (F : Type) where
  /-- The keys on record for a host and port. -/
  recorded : String → UInt16 → F → List PublicKey
  checkKnownHosts : String → UInt16 → PublicKey → F → Except KeysError Bool
  learnKnownHosts : String → UInt16 → PublicKey → F → F
  found : ∀ {host port key file}, checkKnownHosts host port key file = .ok true →
    key ∈ recorded host port file
  /-- A key is unknown if no key of its algorithm is on record. -/
  unknown : ∀ {host port key file}, checkKnownHosts host port key file = .ok false →
    ∀ k ∈ recorded host port file, k.algorithm ≠ key.algorithm
  learned : ∀ host port key file,
    recorded host port (learnKnownHosts host port key file) = recorded host port file ++ [key]
  elsewhere : ∀ {host port host' port'} key file, ¬ (host = host' ∧ port = port') →
    recorded host' port' (learnKnownHosts host port key file) = recorded host' port' file

/-- The file, and the key that waits for the user's approval. -/
structure KeyStore (F : Type) where
  knownHosts : F
  pending : Option PublicKey
  deriving DecidableEq

/-- What the system does with the accesses of one call. A write that fails may have been made. -/
structure FileChoice where
  readFault : Option String
  writeFault : Option (String × Bool)
  deriving DecidableEq

def FileChoice.fine : FileChoice := ⟨none, none⟩

namespace HostKeyVerifier
variable {F : Type} (K : KnownHosts F) (v : HostKeyVerifier)

/-- The keys on record for the server. -/
def recorded (file : F) : List PublicKey := K.recorded v.host v.port file

def lookup (c : FileChoice) (key : PublicKey) (file : F) : Except KeysError Bool :=
  match c.readFault with
  | some message => .error (.other message)
  | none => K.checkKnownHosts v.host v.port key file

def learn (c : FileChoice) (key : PublicKey) (file : F) : Except HostKeyError Unit × F :=
  let appended := K.learnKnownHosts v.host v.port key file
  match c.writeFault with
  | none => (.ok (), appended)
  | some (message, written) => (.error (.russh message), if written then appended else file)

def verify (c : FileChoice) (key : PublicKey) (s : KeyStore F) :
    Except HostKeyError Bool × KeyStore F :=
  match v.lookup K c key s.knownHosts with
  | .ok true => (.ok true, s)
  | .ok false =>
    match v.policy with
    | .strict => (.error (.mismatch v.host v.port), s)
    | .tofu =>
      let (learned, file) := v.learn K c key s.knownHosts
      (learned.map fun _ => true, { s with knownHosts := file })
    | .ask => (.error (.mismatch v.host v.port), { s with pending := some key })
  | .error (.keyChanged line) => (.error (.changed v.host v.port line), s)
  | .error (.other message) => (.error (.russh message), s)

def learnPending (c : FileChoice) (s : KeyStore F) : Except HostKeyError Unit × KeyStore F :=
  match s.pending with
  | none => (.error (.config "no pending host key"), s)
  | some key =>
    let (learned, file) := v.learn K c key s.knownHosts
    (learned, ⟨file, none⟩)

variable {K v}

/-- A call leaves the file as it is, and accepts only a key on record, or it finds no key of the
algorithm and records the one that was offered. -/
theorem verify_cases (c : FileChoice) (key : PublicKey) (s : KeyStore F) :
    ((v.verify K c key s).2.knownHosts = s.knownHosts ∧
      ((v.verify K c key s).1 = .ok true → key ∈ v.recorded K s.knownHosts)) ∨
    ((∀ k ∈ v.recorded K s.knownHosts, k.algorithm ≠ key.algorithm) ∧
      (v.verify K c key s).2.knownHosts = K.learnKnownHosts v.host v.port key s.knownHosts) := by
  obtain ⟨readFault, writeFault⟩ := c
  cases readFault with
  | some message => exact .inl ⟨rfl, fun h => by cases h⟩
  | none =>
    simp only [verify, lookup, learn]
    cases hcheck : K.checkKnownHosts v.host v.port key s.knownHosts with
    | error e => cases e <;> exact .inl ⟨rfl, fun h => by cases h⟩
    | ok found =>
      cases found with
      | true => exact .inl ⟨rfl, fun _ => K.found hcheck⟩
      | false =>
        have hunknown := K.unknown hcheck
        cases hpolicy : v.policy with
        | strict => exact .inl ⟨rfl, fun h => by cases h⟩
        | ask => exact .inl ⟨rfl, fun h => by cases h⟩
        | tofu =>
          match writeFault with
          | none => exact .inr ⟨hunknown, rfl⟩
          | some (message, true) => exact .inr ⟨hunknown, rfl⟩
          | some (message, false) => exact .inl ⟨rfl, fun h => by cases h⟩

end HostKeyVerifier

section Calls

/-- One call of `verify`, with the key that the server offers. -/
structure VerifyCall where
  key : PublicKey
  choice : FileChoice
  deriving DecidableEq

/-- The store, and what the calls so far have answered. -/
structure Verified (F : Type) where
  store : KeyStore F
  outcomes : List (PublicKey × Except HostKeyError Bool)

variable {F : Type} (K : KnownHosts F) (v : HostKeyVerifier)

def verifyStep (s : Verified F) (c : VerifyCall) : Option (Verified F) :=
  let (answer, store) := v.verify K c.choice c.key s.store
  some ⟨store, s.outcomes ++ [(c.key, answer)]⟩

/-- The key has the algorithm of a key on record, or there is none on record. -/
def Familiar (s : Verified F) (c : VerifyCall) : Prop :=
  ∀ k ∈ v.recorded K s.store.knownHosts, k.algorithm = c.key.algorithm

instance (s : Verified F) (c : VerifyCall) : Decidable (Familiar K v s c) :=
  inferInstanceAs (Decidable (∀ k ∈ v.recorded K s.store.knownHosts, _))

/-- One key at most is on record, and every key that was accepted is that key. -/
structure Pinned (s : Verified F) : Prop where
  single : ∀ k ∈ v.recorded K s.store.knownHosts, ∀ k' ∈ v.recorded K s.store.knownHosts, k = k'
  accepted : ∀ k, (k, .ok true) ∈ s.outcomes → k ∈ v.recorded K s.store.knownHosts

variable {K v} {s s' : Verified F} {c : VerifyCall}

theorem verifyStep_eq (h : verifyStep K v s c = some s') :
    s'.store = (v.verify K c.choice c.key s.store).2 ∧
      s'.outcomes = s.outcomes ++ [(c.key, (v.verify K c.choice c.key s.store).1)] := by
  obtain rfl := Option.some.inj h
  exact ⟨rfl, rfl⟩

theorem pinned_step (h : Pinned K v s) (hfamiliar : Familiar K v s c)
    (hstep : verifyStep K v s c = some s') : Pinned K v s' := by
  obtain ⟨hstore, houtcomes⟩ := verifyStep_eq hstep
  -- what was accepted before stays accepted, as long as the records stay
  have haccepted : (∀ k ∈ v.recorded K s.store.knownHosts, k ∈ v.recorded K s'.store.knownHosts) →
      ((v.verify K c.choice c.key s.store).1 = .ok true →
        c.key ∈ v.recorded K s'.store.knownHosts) →
      ∀ k, (k, .ok true) ∈ s'.outcomes → k ∈ v.recorded K s'.store.knownHosts := by
    intro hkept hnew k hk
    rw [houtcomes, List.mem_append, List.mem_singleton, Prod.mk.injEq] at hk
    rcases hk with hk | ⟨rfl, hanswer⟩
    · exact hkept k (h.accepted k hk)
    · exact hnew hanswer.symm
  rcases HostKeyVerifier.verify_cases (K := K) (v := v) c.choice c.key s.store with
    ⟨hfile, hknown⟩ | ⟨hunknown, hfile⟩
  · rw [← hstore] at hfile
    refine ⟨?_, haccepted ?_ ?_⟩ <;> rw [hfile]
    · exact h.single
    · exact fun _ hk => hk
    · exact hknown
  · -- a key is recorded only where there is none yet
    have hnone : v.recorded K s.store.knownHosts = [] :=
      List.eq_nil_iff_forall_not_mem.2 fun k hk => hunknown k hk (hfamiliar k hk)
    have hone : v.recorded K s'.store.knownHosts = [c.key] := by
      rw [hstore, hfile]
      exact (K.learned _ _ _ _).trans (congrArg (· ++ [c.key]) hnone)
    refine ⟨?_, haccepted ?_ ?_⟩ <;> rw [hone]
    · simp
    · simp [hnone]
    · simp

/-- A verifier that starts without a key on record for its server, and is never offered a key of
another algorithm than that of the key on record, accepts one key only: with trust on first use as
under the other policies. -/
theorem tofu_accepts_one_key {file : F} (hnew : v.recorded K file = []) {pending : Option PublicKey} {calls : List VerifyCall}
    (hfamiliar : Meets (verifyStep K v) (Familiar K v) ⟨⟨file, pending⟩, []⟩ calls)
    (hrun : run (verifyStep K v) ⟨⟨file, pending⟩, []⟩ calls = some s) {k k' : PublicKey}
    (hk : (k, .ok true) ∈ s.outcomes) (hk' : (k', .ok true) ∈ s.outcomes) : k' = k := by
  have hstart : Pinned K v ⟨⟨file, pending⟩, []⟩ := by
    refine ⟨?_, fun _ hk => absurd hk List.not_mem_nil⟩
    rw [hnew]
    exact fun _ hk => absurd hk List.not_mem_nil
  have hpinned := run_invariant (fun _ _ _ => pinned_step) hstart hfamiliar hrun
  exact hpinned.single k' (hpinned.accepted k' hk') k (hpinned.accepted k hk)

structure KnownHost where
  host : String
  port : UInt16
  key : PublicKey
  deriving DecidableEq

/-- A file with a key in each line. The lookup ends at a key of the same algorithm that differs. -/
def knownHostsLines : KnownHosts (List KnownHost) where
  recorded host port file :=
    (file.filter fun e => e.host == host && e.port == port).map KnownHost.key
  checkKnownHosts host port key file :=
    match file.findIdx? fun e => (e.host == host && e.port == port) &&
        (e.key.algorithm == key.algorithm && e.key != key) with
    | some line => .error (.keyChanged (line + 1))
    | none => .ok (file.any fun e => (e.host == host && e.port == port) && e.key == key)
  learnKnownHosts host port key file := file ++ [⟨host, port, key⟩]
  found h := by
    split at h
    · cases h
    · obtain ⟨e, he, hfound⟩ := List.any_eq_true.1 (Except.ok.inj h)
      obtain ⟨hserver, hkey⟩ := Bool.and_eq_true_iff.1 hfound
      exact List.mem_map.2 ⟨e, List.mem_filter.2 ⟨he, hserver⟩, eq_of_beq hkey⟩
  unknown h k hk halgorithm := by
    obtain ⟨e, he, rfl⟩ := List.mem_map.1 hk
    obtain ⟨he, hserver⟩ := List.mem_filter.1 he
    split at h
    · cases h
    · next hnone =>
      have hsame := List.findIdx?_eq_none_iff.1 hnone e he
      have hother := List.any_eq_false.1 (Except.ok.inj h) e he
      simp_all
  learned host port key file := by simp [List.filter_append]
  elsewhere key file hne := by
    simp only [List.filter_append, List.map_append]
    simp [hne]

def exampleVerifier : HostKeyVerifier := ⟨"ssh.example", 22, .tofu⟩

def serverKey : PublicKey := ⟨"ssh-ed25519", [1]⟩

def otherKey : PublicKey := ⟨"ssh-rsa", [2]⟩

/-- The second key of an algorithm is refused. -/
theorem tofu_accepts_one_key_twice_offered :
    ∃ s, run (verifyStep knownHostsLines exampleVerifier) ⟨⟨[], none⟩, []⟩
        [⟨serverKey, .fine⟩, ⟨⟨"ssh-ed25519", [2]⟩, .fine⟩, ⟨serverKey, .fine⟩] = some s ∧
      (serverKey, .ok true) ∈ s.outcomes ∧
        ∀ k, (k, .ok true) ∈ s.outcomes → k = serverKey := by
  have hfamiliar : Meets (verifyStep knownHostsLines exampleVerifier)
      (Familiar knownHostsLines exampleVerifier) ⟨⟨[], none⟩, []⟩
      [⟨serverKey, .fine⟩, ⟨⟨"ssh-ed25519", [2]⟩, .fine⟩, ⟨serverKey, .fine⟩] := by
    decide
  refine ⟨_, rfl, by decide, fun k hk => ?_⟩
  exact tofu_accepts_one_key rfl hfamiliar rfl (k := serverKey) (by decide) hk

/-- A key of another algorithm is accepted as if the server were new. -/
theorem second_algorithm_accepted :
    ¬ ∀ (v : HostKeyVerifier) (file : List KnownHost) (pending : Option PublicKey)
      (calls : List VerifyCall) (s : Verified (List KnownHost)), v.policy = .tofu →
      v.recorded knownHostsLines file = [] →
      run (verifyStep knownHostsLines v) ⟨⟨file, pending⟩, []⟩ calls = some s →
      ∀ k k', (k, .ok true) ∈ s.outcomes → (k', .ok true) ∈ s.outcomes → k' = k := by
  intro h
  have hsame := h exampleVerifier [] none [⟨serverKey, .fine⟩, ⟨otherKey, .fine⟩] _ rfl rfl rfl
    serverKey otherKey (by decide) (by decide)
  exact absurd hsame (by decide)

end Calls

end EasyConnection.Ssh
