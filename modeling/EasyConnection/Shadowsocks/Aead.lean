import EasyConnection.Async.Reader
import EasyConnection.Codec.Bytes
import EasyConnection.Codec.Chunks

/-! # Shadowsocks AEAD chunks

The wire is a salt followed by chunks, each a sealed two-byte length and a sealed body. HKDF
and AES-GCM come from other libraries and are a parameter; what the chunk codec relies on is
`Crypto.Lawful`.
-/
namespace EasyConnection.Shadowsocks
open Async Codec

inductive SsError where
  | io
  | config (message : String)
  | crypto (message : String)
  | transport (message : String)
  deriving DecidableEq

inductive AeadMethod where
  | aes128Gcm
  | aes256Gcm
  deriving DecidableEq

namespace AeadMethod

def keyLen : AeadMethod → ℕ
  | .aes128Gcm => 16
  | .aes256Gcm => 32

def saltLen (method : AeadMethod) : ℕ := method.keyLen

end AeadMethod

/-- The functions of the HKDF and AES-GCM libraries. -/
structure Crypto where
  Cipher : Type
  hkdfExpand : (salt key info : List UInt8) → (len : ℕ) → Option (List UInt8)
  newFromSlice : AeadMethod → List UInt8 → Option Cipher
  encrypt : Cipher → (nonce plain : List UInt8) → Option (List UInt8)
  decrypt : Cipher → (nonce cipher : List UInt8) → Option (List UInt8)

def maxChunk : ℕ := 0x3fff

/-- A chunk can be sealed, a sealed message is sixteen bytes longer, and opening under the
same key and nonce undoes sealing. -/
structure Crypto.Lawful (C : Crypto) : Prop where
  encrypt_ok : ∀ (c : C.Cipher) (n m : List UInt8), m.length ≤ maxChunk →
    ∃ ct, C.encrypt c n m = some ct
  encrypt_length : ∀ {c : C.Cipher} {n m ct : List UInt8}, C.encrypt c n m = some ct →
    ct.length = m.length + 16
  decrypt_encrypt : ∀ {c : C.Cipher} {n m ct : List UInt8}, C.encrypt c n m = some ct →
    C.decrypt c n ct = some m

def info : List UInt8 := "ss-subkey".toUTF8.data.toList

/-- The counter in the first eight of twelve bytes, little-endian. -/
def nonce (n : UInt64) : List UInt8 := leBytes 8 n.toNat ++ [0, 0, 0, 0]

variable (C : Crypto)

def hkdfSubkey (key salt : List UInt8) (len : ℕ) : Except SsError (List UInt8) :=
  match C.hkdfExpand salt key info len with
  | some okm => .ok okm
  | none => .error (.crypto "HKDF expand failed")

def newCipher (method : AeadMethod) (key : List UInt8) : Except SsError C.Cipher :=
  match C.newFromSlice method key with
  | some c => .ok c
  | none => .error (.crypto "Invalid Length")

/-- The cipher for the salt that the handshake has drawn and written. -/
def saltCipher (method : AeadMethod) (master salt : List UInt8) : Except SsError C.Cipher := do
  let encKey ← hkdfSubkey C master salt method.keyLen
  newCipher C method encKey

def cipherSeal (c : C.Cipher) (n : UInt64) (plain : List UInt8) : Except SsError (List UInt8) :=
  match C.encrypt c (nonce n) plain with
  | some ct => .ok ct
  | none => .error (.crypto "aead::Error")

def cipherOpen (c : C.Cipher) (n : UInt64) (cipher : List UInt8) :
    Except SsError (List UInt8) :=
  match C.decrypt c (nonce n) cipher with
  | some plain => .ok plain
  | none => .error (.crypto "aead::Error")

variable {C}

theorem cipherSeal_length (hC : C.Lawful) {c : C.Cipher} {n : UInt64} {m ct : List UInt8}
    (h : cipherSeal C c n m = .ok ct) : ct.length = m.length + 16 := by
  unfold cipherSeal at h
  split at h
  · next ct' hct =>
    cases h
    exact hC.encrypt_length hct
  · cases h

theorem cipherOpen_cipherSeal (hC : C.Lawful) {c : C.Cipher} {n : UInt64} {m ct : List UInt8}
    (h : cipherSeal C c n m = .ok ct) : cipherOpen C c n ct = .ok m := by
  unfold cipherSeal at h
  split at h
  · next ct' hct =>
    cases h
    simp [cipherOpen, hC.decrypt_encrypt hct]
  · cases h

theorem cipherSeal_ok (hC : C.Lawful) (c : C.Cipher) (n : UInt64) {m : List UInt8}
    (hm : m.length ≤ maxChunk) : ∃ ct, cipherSeal C c n m = .ok ct := by
  obtain ⟨ct, hct⟩ := hC.encrypt_ok c (nonce n) m hm
  exact ⟨ct, by simp [cipherSeal, hct]⟩

variable (C)

/-- What outlives a dropped chunk reader: the two nonces and the cipher of the inbound salt. -/
structure SsState where
  encNonce : UInt64
  dec : Option C.Cipher
  decNonce : UInt64

/-- The suspension points of `readChunk`. -/
inductive Await where
  | salt
  | len
  | body
  deriving DecidableEq

/-- Between the salt and the first length, as between two chunks, nothing has been taken
that the shared state does not know. -/
def Await.boundary : Await → Bool
  | .salt => true
  | .len => true
  | .body => false

abbrev ChunkReader := Reader Await (SsState C) (Except SsError (List UInt8))

variable {C}

def fail (e : SsError) : ChunkReader C := .done (.error e)

def readBody (c : C.Cipher) (len : ℕ) : ChunkReader C :=
  .read .body (len + 16) (fail .io) fun bodyC =>
    .get fun s => match cipherOpen C c s.decNonce bodyC with
      | .error e => fail e
      | .ok body => .set { s with decNonce := s.decNonce + 1 } (.done (.ok body))

def readLen (c : C.Cipher) : ChunkReader C :=
  .read .len (2 + 16) (.done (.ok [])) fun lenC =>
    .get fun s => match cipherOpen C c s.decNonce lenC with
      | .error e => fail e
      | .ok lenB => .set { s with decNonce := s.decNonce + 1 } <|
          if lenB.length ≠ 2 then fail (.crypto "bad length block")
          else
            let len := ofBeBytes lenB
            if len = 0 ∨ len > maxChunk then fail (.crypto s!"invalid chunk length {len}")
            else readBody c len

def readSalt (method : AeadMethod) (master : List UInt8) : ChunkReader C :=
  .read .salt method.saltLen (fail .io) fun salt =>
    match hkdfSubkey C master salt method.keyLen with
    | .error e => fail e
    | .ok key => match newCipher C method key with
      | .error e => fail e
      | .ok c => .get fun s => .set { s with dec := some c } (readLen c)

def readChunk (method : AeadMethod) (master : List UInt8) : ChunkReader C :=
  .get fun s => match s.dec with
    | none => readSalt method master
    | some c => readLen c

end EasyConnection.Shadowsocks
