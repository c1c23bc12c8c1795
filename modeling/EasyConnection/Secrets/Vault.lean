import EasyConnection.Async.Run
import Mathlib.Data.List.AList

/-! # The encrypted vault

All secrets are in one file. An update loads the file, changes the map, writes the whole of it to
a temporary file and renames that to the vault. There is no lock, and the temporary file has one
name for all of them. Updates by any number of threads and processes are interleaved between these
three accesses.
-/
namespace EasyConnection.Secrets
open Async

inductive SecretsError where
  | notFound (id : String)
  | invalidRef
  | crypto (message : String)
  | io (message : String)
  | serde
  deriving DecidableEq

abbrev Entries := AList fun _ : String => String

/-- The functions of the JSON and AES-GCM libraries. -/
structure Library where
  toVec : Entries → List UInt8
  fromSlice : List UInt8 → Option Entries
  encrypt : (nonce plain : List UInt8) → Option (List UInt8)
  decrypt : (nonce cipher : List UInt8) → Option (List UInt8)

structure Library.Lawful (L : Library) : Prop where
  fromSlice_toVec : ∀ m, L.fromSlice (L.toVec m) = some m
  encrypt_length : ∀ {n p c : List UInt8}, L.encrypt n p = some c → c.length = p.length + 16
  decrypt_encrypt : ∀ {n p c : List UInt8}, L.encrypt n p = some c → L.decrypt n c = some p

def fileMagic : List UInt8 := "EASYSEC1".toUTF8.data.toList

def nonceLen : ℕ := 12

structure Nonce where
  bytes : List UInt8
  length_eq : bytes.length = nonceLen

/-- Read a vault from the bytes of its file. -/
def load (L : Library) (buf : List UInt8) : Except SecretsError Entries :=
  if buf.length < 8 + nonceLen + 16 then .error (.crypto "vault file truncated")
  else if buf.take 8 ≠ fileMagic then .error (.crypto "invalid vault magic")
  else match L.decrypt ((buf.drop 8).take nonceLen) (buf.drop (8 + nonceLen)) with
    | none => .error (.crypto "decrypt failed: aead::Error")
    | some plaintext => match L.fromSlice plaintext with
      | none => .error .serde
      | some vault => .ok vault

/-- The bytes of the file of a vault. -/
def image (L : Library) (nonce : Nonce) (vault : Entries) : Except SecretsError (List UInt8) :=
  match L.encrypt nonce.bytes (L.toVec vault) with
  | none => .error (.crypto "encrypt failed: aead::Error")
  | some ciphertext => .ok (fileMagic ++ (nonce.bytes ++ ciphertext))

theorem load_image {L : Library} (hL : L.Lawful) {nonce : Nonce} {vault : Entries}
    {buf : List UInt8} (h : image L nonce vault = .ok buf) : load L buf = .ok vault := by
  unfold image at h
  split at h
  · cases h
  · next ciphertext hc =>
    cases h
    have hmagic : fileMagic.length = 8 := by decide
    have hnonce := nonce.length_eq
    have hlen := hL.encrypt_length hc
    have hlong : ¬ (fileMagic ++ (nonce.bytes ++ ciphertext)).length < 8 + nonceLen + 16 := by
      simp only [List.length_append]
      omega
    have hdrop : (fileMagic ++ (nonce.bytes ++ ciphertext)).drop 8 = nonce.bytes ++ ciphertext := by
      rw [← hmagic, List.drop_left]
    have hcipher : (fileMagic ++ (nonce.bytes ++ ciphertext)).drop (8 + nonceLen) = ciphertext := by
      rw [← List.drop_drop, hdrop, ← hnonce, List.drop_left]
    have htake : (nonce.bytes ++ ciphertext).take nonceLen = nonce.bytes := by
      rw [← hnonce, List.take_left]
    have hhead : (fileMagic ++ (nonce.bytes ++ ciphertext)).take 8 = fileMagic := by
      rw [← hmagic, List.take_left]
    simp only [load, if_neg hlong, hhead, ne_eq, not_true_eq_false, if_false, hdrop, htake, hcipher,
      hL.decrypt_encrypt hc, hL.fromSlice_toVec]

inductive Request where
  | put (id value : String)
  | delete (id : String)
  deriving DecidableEq

namespace Request

def id : Request → String
  | .put id _ => id
  | .delete id => id

/-- What the id stands for afterwards. -/
def result : Request → Option String
  | .put _ value => some value
  | .delete _ => none

def apply (req : Request) (vault : Entries) : Entries :=
  match req with
  | .put id value => vault.insert id value
  | .delete id => vault.erase id

theorem lookup_apply (req : Request) (vault : Entries) :
    (req.apply vault).lookup req.id = req.result := by
  cases req with
  | put id value => exact AList.lookup_insert vault
  | delete id => exact AList.lookup_erase id vault

theorem lookup_apply_of_ne {req : Request} {id : String} (h : req.id ≠ id) (vault : Entries) :
    (req.apply vault).lookup id = vault.lookup id := by
  cases req with
  | put id' value => exact AList.lookup_insert_ne h.symm
  | delete id' => exact AList.lookup_erase_ne h.symm

end Request

inductive Phase where
  | idle
  | started (req : Request)
  /-- The map as it is to be written. -/
  | loaded (req : Request) (vault : Entries)
  | written (req : Request)
  | returned (req : Request) (r : Except SecretsError Unit)

namespace Phase

def request : Phase → Option Request
  | .idle => none
  | .started req => some req
  | .loaded req _ => some req
  | .written req => some req
  | .returned req _ => some req

/-- Between its load and its rename. -/
def holds : Phase → Bool
  | .loaded _ _ => true
  | .written _ => true
  | _ => false

def succeeded : Phase → Option Request
  | .returned req (.ok _) => some req
  | _ => none

theorem request_of_succeeded {ph : Phase} {req : Request} (h : ph.succeeded = some req) :
    ph.request = some req := by
  unfold succeeded at h
  split at h
  · exact h
  · cases h

end Phase

structure State (ι : Type) where
  path : List UInt8
  tmp : Option (List UInt8)
  calls : ι → Phase

/-- A fault of an access comes with its message. A write that fails leaves the first bytes in the
temporary file, or the file as it was if that could not be opened. -/
inductive Event (ι : Type) where
  | call (i : ι) (req : Request)
  | load (i : ι) (fault : Option String)
  | write (i : ι) (nonce : Nonce) (fault : Option (String × Option ℕ))
  | rename (i : ι) (fault : Option String)

variable {ι : Type} [DecidableEq ι]

def State.setCall (st : State ι) (i : ι) (ph : Phase) : State ι :=
  { st with calls := Function.update st.calls i ph }

def State.load (L : Library) (st : State ι) (i : ι) (req : Request) : Option String → State ι
  | some message => st.setCall i (.returned req (.error (.io message)))
  | none => match Secrets.load L st.path with
    | .ok vault => st.setCall i (.loaded req (req.apply vault))
    | .error e => st.setCall i (.returned req (.error e))

def State.write (L : Library) (st : State ι) (i : ι) (req : Request) (vault : Entries)
    (nonce : Nonce) (fault : Option (String × Option ℕ)) : State ι :=
  match image L nonce vault, fault with
  | .error e, _ => st.setCall i (.returned req (.error e))
  | .ok buf, none => { st with tmp := some buf }.setCall i (.written req)
  | .ok _, some (message, none) => st.setCall i (.returned req (.error (.io message)))
  | .ok buf, some (message, some n) =>
    { st with tmp := some (buf.take n) }.setCall i (.returned req (.error (.io message)))

def State.rename (st : State ι) (i : ι) (req : Request) : Option String → State ι
  | some message => st.setCall i (.returned req (.error (.io message)))
  | none => match st.tmp with
    | some buf => { st with path := buf, tmp := none }.setCall i (.returned req (.ok ()))
    | none => st.setCall i (.returned req (.error (.io "No such file or directory (os error 2)")))

def step (L : Library) (st : State ι) : Event ι → Option (State ι)
  | .call i req =>
    match st.calls i with
    | .idle => some (st.setCall i (.started req))
    | _ => none
  | .load i fault =>
    match st.calls i with
    | .started req => some (st.load L i req fault)
    | _ => none
  | .write i nonce fault =>
    match st.calls i with
    | .loaded req vault => some (st.write L i req vault nonce fault)
    | _ => none
  | .rename i fault =>
    match st.calls i with
    | .written req => some (st.rename i req fault)
    | _ => none

/-- No update has begun, and the vault is the file `buf`. -/
def State.initial (buf : List UInt8) : State ι := ⟨buf, none, fun _ => .idle⟩

end EasyConnection.Secrets
