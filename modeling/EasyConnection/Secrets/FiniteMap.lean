import EasyConnection.Async.Prog
import EasyConnection.Secrets.Updates

/-! # The vault as a finite map

The calls of one store after another, each with every access to the file system that it makes.
What is in the file is the map that the successful calls have made; a call that fails, wherever it
fails, leaves it.
-/
namespace EasyConnection.Secrets.Store
open Async

section Model

/-- The accesses to the vault at `secrets.bin` and to its temporary file `secrets.tmp`. -/
inductive Op where
  | createDirAll
  | setPermissions
  | pathExists
  | openFile
  | readToEnd
  | fillBytes
  | openTmp
  | writeAll (bytes : List UInt8)
  | syncAll
  | rename

abbrev Ans : Op → Type
  | .pathExists => Bool
  | .readToEnd => Except String (List UInt8)
  | .fillBytes => Nonce
  | .createDirAll | .setPermissions | .openFile | .openTmp | .writeAll _ | .syncAll | .rename =>
    Except String Unit

structure Files where
  path : Option (List UInt8)
  tmp : Option (List UInt8)
  deriving DecidableEq

/-- The message of a failed access, what it leaves of the temporary file, and the next random
bytes. -/
structure Choice where
  fault : Option String
  leftover : Option (List UInt8)
  nonce : Nonce

def Choice.outcome (c : Choice) : Except String Unit :=
  match c.fault with
  | some message => .error message
  | none => .ok ()

/-- An access to the temporary file. -/
def Choice.onTmp (c : Choice) (w : Files) (tmp : List UInt8) : Files × Except String Unit :=
  match c.fault with
  | some message => ({ w with tmp := c.leftover }, .error message)
  | none => ({ w with tmp := some tmp }, .ok ())

def noSuchFile : String := "No such file or directory (os error 2)"

/-- A rename happens as a whole, or fails without effect. -/
def exec : (o : Op) → Choice → Files → Files × Ans o
  | .createDirAll, c, w => (w, c.outcome)
  | .setPermissions, c, w => (w, c.outcome)
  | .pathExists, _, w => (w, w.path.isSome)
  | .openFile, c, w => (w, if w.path.isSome then c.outcome else .error noSuchFile)
  | .readToEnd, c, w => (w, do c.outcome; return w.path.getD [])
  | .fillBytes, c, w => (w, c.nonce)
  | .openTmp, c, w => c.onTmp w []
  | .writeAll bytes, c, w => c.onTmp w (w.tmp.getD [] ++ bytes)
  | .syncAll, c, w => c.onTmp w (w.tmp.getD [])
  | .rename, c, w =>
    match c.fault, w.tmp with
    | some message, _ => (w, .error message)
    | none, some buf => (⟨some buf, none⟩, .ok ())
    | none, none => (w, .error noSuchFile)

abbrev VaultM := ExceptT SecretsError (Prog Op Ans)

def perform (o : Op) : Prog Op Ans (Ans o) := Prog.perform o

def orIo {α : Type} (p : Prog Op Ans (Except String α)) : VaultM α :=
  ExceptT.mk do return (← p).mapError .io

structure EncryptedFileStore where
  key : List UInt8
  deriving DecidableEq

variable (sha256 : List UInt8 → List UInt8) (L : (key : List UInt8) → Library)

def deriveKey (binding : List UInt8) : List UInt8 :=
  sha256 ("easy-connection-secrets-v1".toUTF8.data.toList ++ binding)

namespace EncryptedFileStore
variable (store : EncryptedFileStore)

def load : VaultM Entries := do
  orIo (perform .openFile)
  let buf ← orIo (perform .readToEnd)
  ExceptT.mk (pure (Secrets.load (L store.key) buf))

def sealed (nonce : Nonce) (vault : Entries) : Except SecretsError (List UInt8) :=
  match (L store.key).encrypt nonce.bytes ((L store.key).toVec vault) with
  | none => .error (.crypto "encrypt failed: aead::Error")
  | some ciphertext => .ok ciphertext

def persist (vault : Entries) : VaultM Unit := do
  let nonce ← liftM (perform .fillBytes)
  let ciphertext ← ExceptT.mk (pure (store.sealed L nonce vault))
  orIo (perform .openTmp)
  orIo (perform (.writeAll fileMagic))
  orIo (perform (.writeAll nonce.bytes))
  orIo (perform (.writeAll ciphertext))
  orIo (perform .syncAll)
  orIo (perform .rename)
  let _ ← liftM (perform .setPermissions)
  return ()

def update (req : Request) : VaultM Unit := do
  let vault ← store.load L
  store.persist L (req.apply vault)

def put (id value : String) : VaultM Unit := store.update L (.put id value)

def delete (id : String) : VaultM Unit := store.update L (.delete id)

def get (id : String) : VaultM String := do
  let vault ← store.load L
  match vault.lookup id with
  | some value => return value
  | none => throw (.notFound id)

end EncryptedFileStore

/-- `EncryptedFileStore::open` -/
def openStore (binding : List UInt8) : VaultM EncryptedFileStore := do
  orIo (perform .createDirAll)
  let _ ← liftM (perform .setPermissions)
  let store : EncryptedFileStore := ⟨deriveKey sha256 binding⟩
  let present ← liftM (perform .pathExists)
  if present then return store
  else
    store.persist L ∅
    return store

end Model

section Rules
variable {w : Files}

/-- Any access may fail. -/
def Any (_ : Op) (_ : Choice) (_ : Files) : Prop := True

instance (o : Op) (c : Choice) (w : Files) : Decidable (Any o c w) := .isTrue trivial

abbrev Leads {α : Type} (post : Except SecretsError α → Files → Prop) (x : VaultM α) (w : Files) :
    Prop :=
  x.run.Ensures exec Any post w

theorem fillBytes_leads {post : Except SecretsError Nonce → Files → Prop}
    (h : ∀ nonce, post (.ok nonce) w) : Leads post (liftM (perform .fillBytes)) w :=
  (Prog.ensures_lift _).2 fun c _ => h c.nonce

variable {post : Except SecretsError Unit → Files → Prop}

theorem onTmp_ensures {c : Choice} {tmp : List UInt8}
    (hok : post (.ok ()) { w with tmp := some tmp })
    (herror : ∀ e tmp, post (.error e) { w with tmp := tmp }) :
    post ((c.onTmp w tmp).2.mapError .io) (c.onTmp w tmp).1 := by
  unfold Choice.onTmp
  cases c.fault with
  | none => exact hok
  | some message => exact herror _ _

theorem openTmp_leads (hok : post (.ok ()) { w with tmp := some [] })
    (herror : ∀ e tmp, post (.error e) { w with tmp := tmp }) :
    Leads post (orIo (perform .openTmp)) w := fun _ _ => onTmp_ensures hok herror

theorem writeAll_leads {bytes : List UInt8}
    (hok : post (.ok ()) { w with tmp := some (w.tmp.getD [] ++ bytes) })
    (herror : ∀ e tmp, post (.error e) { w with tmp := tmp }) :
    Leads post (orIo (perform (.writeAll bytes))) w := fun _ _ => onTmp_ensures hok herror

theorem syncAll_leads (hok : post (.ok ()) { w with tmp := some (w.tmp.getD []) })
    (herror : ∀ e tmp, post (.error e) { w with tmp := tmp }) :
    Leads post (orIo (perform .syncAll)) w := fun _ _ => onTmp_ensures hok herror

theorem rename_leads {buf : List UInt8} (htmp : w.tmp = some buf)
    (hok : post (.ok ()) ⟨some buf, none⟩) (herror : ∀ e, post (.error e) w) :
    Leads post (orIo (perform .rename)) w := by
  intro c _
  obtain ⟨fault, leftover, nonce⟩ := c
  simp only [exec, htmp]
  cases fault with
  | none => exact hok
  | some message => exact herror _

end Rules

section Calls
variable {L : (key : List UInt8) → Library} {store : EncryptedFileStore} {w : Files} {vault : Entries}

/-- The file is that of the map. -/
def Holds (L : Library) (vault : Entries) (w : Files) : Prop :=
  ∃ buf, w.path = some buf ∧ load L buf = .ok vault

theorem Holds.of_path {L : Library} {w' : Files} (h : Holds L vault w) (hpath : w'.path = w.path) :
    Holds L vault w' := by
  obtain ⟨buf, hbuf, hload⟩ := h
  exact ⟨buf, hpath.trans hbuf, hload⟩

theorem image_of_sealed {nonce : Nonce} {ciphertext : List UInt8}
    (h : store.sealed L nonce vault = .ok ciphertext) :
    image (L store.key) nonce vault = .ok (fileMagic ++ (nonce.bytes ++ ciphertext)) := by
  unfold EncryptedFileStore.sealed at h
  unfold image
  cases hcipher : (L store.key).encrypt nonce.bytes ((L store.key).toVec vault) with
  | none =>
    rw [hcipher] at h
    cases h
  | some c =>
    rw [hcipher] at h
    cases h
    rfl

/-- A map is written as a whole, or the vault is as it was. -/
theorem persist_leads (hL : (L store.key).Lawful) (vault : Entries) :
    Leads (fun r w' => match r with
        | .ok () => Holds (L store.key) vault w'
        | .error _ => w'.path = w.path) (store.persist L vault) w := by
  refine Prog.ensures_of_then (fillBytes_leads fun nonce => ?_)
  refine Prog.ensures_of_then ((Prog.ensures_ret _).2 ?_)
  cases hsealed : store.sealed L nonce vault with
  | error e => exact rfl
  | ok ciphertext =>
    refine Prog.ensures_of_then (openTmp_leads ?_ fun _ _ => rfl)
    refine Prog.ensures_of_then (writeAll_leads ?_ fun _ _ => rfl)
    refine Prog.ensures_of_then (writeAll_leads ?_ fun _ _ => rfl)
    refine Prog.ensures_of_then (writeAll_leads ?_ fun _ _ => rfl)
    refine Prog.ensures_of_then (syncAll_leads ?_ fun _ _ => rfl)
    refine Prog.ensures_of_then (rename_leads rfl ?_ fun _ => rfl)
    refine Prog.ensures_of_then ((Prog.ensures_lift _).2 fun c' _ => ?_)
    refine ⟨_, rfl, ?_⟩
    simpa using load_image hL (image_of_sealed hsealed)

theorem load_leads (hw : Holds (L store.key) vault w)
    {post : Except SecretsError Entries → Files → Prop} (hok : post (.ok vault) w)
    (herror : ∀ e, post (.error e) w) : Leads post (store.load L) w := by
  obtain ⟨buf, hpath, hload⟩ := hw
  refine Prog.ensures_of_then ?_
  rintro ⟨fault, leftover, nonce⟩ -
  simp only [exec, hpath, Option.isSome_some, if_true, Choice.outcome]
  cases fault with
  | some message => exact herror _
  | none =>
    refine Prog.ensures_of_then ?_
    rintro ⟨fault, leftover, nonce⟩ -
    simp only [exec, hpath, Choice.outcome]
    cases fault with
    | some message => exact herror _
    | none =>
      change post (Secrets.load (L store.key) buf) w
      rw [hload]
      exact hok

/-- Where no access fails, the map is read. -/
theorem load_reads (hw : Holds (L store.key) vault w) :
    (store.load L).run.Ensures exec (fun o c w => Any o c w ∧ c.fault = none)
      (fun r w' => r = .ok vault ∧ w' = w) w := by
  obtain ⟨buf, hpath, hload⟩ := hw
  refine Prog.ensures_of_then ?_
  rintro ⟨fault, leftover, nonce⟩ ⟨-, rfl⟩
  simp only [exec, hpath, Option.isSome_some, if_true, Choice.outcome]
  refine Prog.ensures_of_then ?_
  rintro ⟨fault, leftover, nonce⟩ ⟨-, rfl⟩
  simp only [exec, hpath, Choice.outcome]
  refine (Prog.ensures_ret _).2 ⟨?_, rfl⟩
  rw [Option.getD_some, hload]

theorem update_leads (hL : (L store.key).Lawful) (hw : Holds (L store.key) vault w) (req : Request) :
    Leads (fun r w' => match r with
        | .ok () => Holds (L store.key) (req.apply vault) w'
        | .error _ => w'.path = w.path) (store.update L req) w :=
  Prog.ensures_of_then (load_leads hw (persist_leads hL _) fun _ => rfl)

/-- What a call of `get` returns for an entry. -/
def reply (id : String) : Option String → Except SecretsError String
  | some value => .ok value
  | none => .error (.notFound id)

theorem get_reads (hw : Holds (L store.key) vault w) (id : String) :
    (store.get L id).run.Ensures exec (fun o c w => Any o c w ∧ c.fault = none)
      (fun r _ => r = reply id (vault.lookup id)) w := by
  refine Prog.ensures_of_then ((load_reads hw).mono ?_)
  rintro _ _ ⟨rfl, rfl⟩
  dsimp only [Prog.Then]
  cases vault.lookup id <;> rfl

theorem get_keeps (hw : Holds (L store.key) vault w) (id : String) :
    Leads (fun _ w' => w' = w) (store.get L id) w := by
  refine Prog.ensures_of_then (load_leads hw ?_ fun _ => rfl)
  dsimp only [Prog.Then]
  cases vault.lookup id <;> exact rfl

section Open
variable {sha256 : List UInt8 → List UInt8} {binding : List UInt8}

/-- A vault is made where there is none; one that is there is left as it is. -/
theorem openStore_leads (hL : (L (deriveKey sha256 binding)).Lawful) :
    Leads (fun r w' => (∀ store, r = .ok store → store = ⟨deriveKey sha256 binding⟩) ∧
        (w.path ≠ none → w'.path = w.path) ∧
        (w.path = none → ∀ store, r = .ok store → Holds (L (deriveKey sha256 binding)) ∅ w'))
      (openStore sha256 L binding) w := by
  refine Prog.ensures_of_then ?_
  rintro ⟨fault, leftover, nonce⟩ -
  cases fault with
  | some message => exact ⟨nofun, fun _ => rfl, fun _ => nofun⟩
  | none =>
    refine Prog.ensures_of_then ((Prog.ensures_lift _).2 fun c _ => ?_)
    refine Prog.ensures_of_then ((Prog.ensures_lift _).2 fun c' _ => ?_)
    change Prog.Ensures exec Any _ (ite (w.path.isSome = true) _ _) w
    cases hpath : w.path with
    | some buf => exact ⟨fun store h => (Except.ok.inj h).symm, fun _ => hpath, nofun⟩
    | none =>
      have hpersist : Leads _ (EncryptedFileStore.persist L ⟨deriveKey sha256 binding⟩ ∅) w :=
        persist_leads hL ∅
      refine Prog.ensures_of_then (hpersist.mono fun r w' hr => ?_)
      cases r with
      | error e => exact ⟨nofun, fun h => absurd rfl h, fun _ => nofun⟩
      | ok _ => exact ⟨fun store h => (Except.ok.inj h).symm, fun h => absurd rfl h, fun _ _ _ => hr⟩

end Open

end Calls

section Histories

/-- A call that has returned. -/
inductive Done where
  | update (req : Request) (r : Except SecretsError Unit)
  | get (id : String) (r : Except SecretsError String)
  | reopen (r : Except SecretsError EncryptedFileStore)

/-- What the id stands for after a call, given what it stood for before. -/
def Done.effect (id : String) (before : Option String) : Done → Option String
  | .update req (.ok _) => if req.id = id then req.result else before
  | _ => before

/-- The value of the last successful put that no successful delete follows. -/
def expected (calls : List Done) (id : String) : Option String :=
  calls.foldl (Done.effect id) none

variable (sha256 : List UInt8 → List UInt8) (L : (key : List UInt8) → Library)
  (binding : List UInt8)

/-- The calls of a store that begins without a file, one after another. -/
inductive History : EncryptedFileStore → List Done → Files → Prop where
  | opened {cs : List Choice} {w₀ w : Files} {store : EncryptedFileStore} (hfresh : w₀.path = none)
      (hrun : (openStore sha256 L binding).run.runWith exec Any cs w₀ = some (.ok store, w)) :
      History store [] w
  | update {store : EncryptedFileStore} {calls : List Done} {w w' : Files}
      (h : History store calls w) {req : Request} {cs : List Choice} {r : Except SecretsError Unit}
      (hrun : (store.update L req).run.runWith exec Any cs w = some (r, w')) :
      History store (calls ++ [.update req r]) w'
  | get {store : EncryptedFileStore} {calls : List Done} {w w' : Files}
      (h : History store calls w) {id : String} {cs : List Choice}
      {r : Except SecretsError String}
      (hrun : (store.get L id).run.runWith exec Any cs w = some (r, w')) :
      History store (calls ++ [.get id r]) w'
  | reopen {store : EncryptedFileStore} {calls : List Done} {w w' : Files}
      (h : History store calls w) {cs : List Choice} {r : Except SecretsError EncryptedFileStore}
      (hrun : (openStore sha256 L binding).run.runWith exec Any cs w = some (r, w')) :
      History (r.toOption.getD store) (calls ++ [.reopen r]) w'

variable {sha256 L binding} {store : EncryptedFileStore} {calls : List Done} {w : Files}

theorem expected_concat (calls : List Done) (call : Done) (id : String) :
    expected (calls ++ [call]) id = call.effect id (expected calls id) := by
  rw [expected, List.foldl_append]
  rfl

theorem lookup_apply_eq (req : Request) (vault : Entries) (id : String) :
    (req.apply vault).lookup id = if req.id = id then req.result else vault.lookup id := by
  split_ifs with hid
  · rw [← hid, req.lookup_apply]
  · exact req.lookup_apply_of_ne hid vault

/-- The map in the file is the one that the calls have made. -/
theorem History.holds (hL : (L (deriveKey sha256 binding)).Lawful)
    (h : History sha256 L binding store calls w) :
    store = ⟨deriveKey sha256 binding⟩ ∧ ∃ vault, Holds (L (deriveKey sha256 binding)) vault w ∧
      ∀ id, vault.lookup id = expected calls id := by
  induction h with
  | opened hfresh hrun =>
    obtain ⟨hstore, -, hnew⟩ := (openStore_leads hL).runWith hrun
    exact ⟨hstore _ rfl, ∅, hnew hfresh _ rfl, fun id => AList.lookup_empty id⟩
  | @update store calls w w' _ req cs r hrun ih =>
    obtain ⟨rfl, vault, hw, hlookup⟩ := ih
    have hupdate := (update_leads hL hw req).runWith hrun
    refine ⟨rfl, ?_⟩
    cases r with
    | ok _ =>
      refine ⟨req.apply vault, hupdate, fun id => ?_⟩
      rw [expected_concat, lookup_apply_eq, hlookup]
      rfl
    | error e =>
      refine ⟨vault, hw.of_path hupdate, fun id => ?_⟩
      rw [expected_concat, hlookup]
      rfl
  | @get store calls w w' _ id cs r hrun ih =>
    obtain ⟨rfl, vault, hw, hlookup⟩ := ih
    obtain rfl := (get_keeps hw id).runWith hrun
    refine ⟨rfl, vault, hw, fun id' => ?_⟩
    rw [expected_concat, hlookup]
    rfl
  | @reopen store calls w w' _ cs r hrun ih =>
    obtain ⟨rfl, vault, hw, hlookup⟩ := ih
    obtain ⟨hstore, hkept, -⟩ := (openStore_leads hL).runWith hrun
    have hpath : w.path ≠ none := by
      obtain ⟨buf, hbuf, -⟩ := hw
      rw [hbuf]
      exact Option.some_ne_none buf
    refine ⟨?_, vault, hw.of_path (hkept hpath), fun id => ?_⟩
    · cases r with
      | ok store => exact hstore store rfl
      | error e => rfl
    · rw [expected_concat, hlookup]
      rfl

end Histories

/-- After any calls, whatever failed in them, the file is that of the map which the successful ones
have made: `get` returns its entries, and a call that fails leaves it. -/
theorem vault_is_finite_map {sha256 : List UInt8 → List UInt8} {L : (key : List UInt8) → Library}
    {binding : List UInt8} (hL : (L (deriveKey sha256 binding)).Lawful)
    {store : EncryptedFileStore} {calls : List Done} {w : Files}
    (h : History sha256 L binding store calls w) :
    ∃ vault, Holds (L store.key) vault w ∧ (∀ id, vault.lookup id = expected calls id) ∧
      (∀ id cs r w', (∀ c ∈ cs, c.fault = none) →
        (store.get L id).run.runWith exec Any cs w = some (r, w') →
        r = reply id (expected calls id)) ∧
      ∀ req cs e w', (store.update L req).run.runWith exec Any cs w = some (.error e, w') →
        Holds (L store.key) vault w' := by
  obtain ⟨rfl, vault, hw, hlookup⟩ := h.holds hL
  refine ⟨vault, hw, hlookup, fun id cs r w' hgood hrun => ?_, fun req cs e w' hrun => ?_⟩
  · rw [← hlookup]
    exact (get_reads hw id).runWith_of_along (Prog.along_of_forall fun c hc _ => hgood c hc) hrun
  · exact hw.of_path ((update_leads hL hw req).runWith hrun)

section Sample

/-- A stand-in for SHA-256, whose digests have as many bytes. -/
def digest (_ : List UInt8) : List UInt8 := List.replicate 32 0

def fine : Choice := ⟨none, none, zeroNonce⟩

def diskFull : Choice := ⟨some "No space left on device (os error 28)", some [0x45], zeroNonce⟩

/-- The files after a call that has written the map. -/
def fileOf (vault : Entries) : Files :=
  ⟨some (fileMagic ++ (zeroNonce.bytes ++ (plainLibrary.toVec vault ++ List.replicate 16 0))), none⟩

def hunter2 : Request := .put "s1" "hunter2"

/-- A put that succeeds, and a delete for which there is no room on the disk. -/
theorem hunter2_outlives_failed_delete :
    History digest (fun _ => plainLibrary) [] ⟨deriveKey digest []⟩ [.update hunter2 (.ok ()),
      .update (.delete "s1") (.error (.io "No space left on device (os error 28)"))]
      ⟨(fileOf (hunter2.apply ∅)).path, some [0x45]⟩ ∧
    ∃ vault, Holds plainLibrary vault ⟨(fileOf (hunter2.apply ∅)).path, some [0x45]⟩ ∧
      vault.lookup "s1" = some "hunter2" := by
  have hopened : History digest (fun _ => plainLibrary) [] ⟨deriveKey digest []⟩ [] (fileOf ∅) := by
    have hrun : (openStore digest (fun _ => plainLibrary) []).run.runWith exec Any
        (List.replicate 11 fine) ⟨none, none⟩ = some (.ok ⟨deriveKey digest []⟩, fileOf ∅) := by
      decide +kernel
    exact .opened rfl hrun
  have hput : (EncryptedFileStore.update (fun _ => plainLibrary) ⟨deriveKey digest []⟩
      hunter2).run.runWith exec Any (List.replicate 10 fine) (fileOf ∅) = some (.ok (), fileOf (hunter2.apply ∅)) := by
    decide +kernel
  have hdelete : (EncryptedFileStore.update (fun _ => plainLibrary) ⟨deriveKey digest []⟩
      (.delete "s1")).run.runWith exec Any (List.replicate 7 fine ++ [diskFull])
      (fileOf (hunter2.apply ∅)) = some (.error (.io "No space left on device (os error 28)"),
        ⟨(fileOf (hunter2.apply ∅)).path, some [0x45]⟩) := by
    decide +kernel
  have hhistory := (hopened.update hput).update hdelete
  obtain ⟨vault, hw, hlookup, -⟩ := vault_is_finite_map plainLibrary_lawful hhistory
  exact ⟨hhistory, vault, hw, hlookup "s1"⟩

end Sample

end EasyConnection.Secrets.Store
