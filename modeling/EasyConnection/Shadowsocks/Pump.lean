import EasyConnection.Async.Inbound
import EasyConnection.Shadowsocks.Aead

/-! # The task behind a Shadowsocks byte stream

The task waits for local bytes or for the next chunk of the server. A chunk reader that is
dropped between two chunks leaves cipher, nonce and wire position in step; one that is
dropped inside the salt, inside a length or before the end of a body does not.
-/
namespace EasyConnection.Shadowsocks
open Async Codec

variable {C : Crypto}

/-- The sealed chunks of one local read, with the nonce after them. -/
def sealChunks (c : C.Cipher) : UInt64 → List (List UInt8) → Except SsError (UInt64 × List UInt8)
  | n, [] => .ok (n, [])
  | n, chunk :: rest => do
    let cLen ← cipherSeal C c n (beBytes 2 chunk.length)
    let cBody ← cipherSeal C c (n + 1) chunk
    let (n', out) ← sealChunks c (n + 2) rest
    return (n', cLen ++ cBody ++ out)

/-- An empty chunk stands for the end of the stream. -/
def pump (enc : C.Cipher) (method : AeadMethod) (master : List UInt8) :
    Pump Await (SsState C) (Except SsError (List UInt8)) (Except SsError Unit) where
  start := readChunk method master
  verdict
    | .ok data => if data.isEmpty then .stop (.ok ()) else .deliver data
    | .error e => .stop (.error e)
  onLocal s plain :=
    match sealChunks enc s.encNonce (chunks maxChunk plain) with
    | .ok (n, out) => .ok ({ s with encNonce := n }, out)
    | .error e => .error (.error e)
  bufLen := 16 * 1024

variable (C) in
abbrev PumpState := Pump.State Await (SsState C) (Except SsError (List UInt8)) (Except SsError Unit)

variable (C) in
/-- The task starts with both counters at zero and without an inbound cipher. -/
def SsState.initial : SsState C := ⟨0, none, 0⟩

/-- `w` is the sealed form of the chunks, from nonce `n` on. -/
inductive Sealed (c : C.Cipher) : UInt64 → List (List UInt8) → List UInt8 → Prop where
  | nil (n : UInt64) : Sealed c n [] []
  | cons {n : UInt64} {chunk cLen cBody w : List UInt8} {rest : List (List UInt8)}
      (hpos : 1 ≤ chunk.length) (hmax : chunk.length ≤ maxChunk)
      (hlen : cipherSeal C c n (beBytes 2 chunk.length) = .ok cLen)
      (hbody : cipherSeal C c (n + 1) chunk = .ok cBody) (hrest : Sealed c (n + 1 + 1) rest w) :
      Sealed c n (chunk :: rest) (cLen ++ (cBody ++ w))

/-- A server stream: a salt, then the chunks sealed under the salt's key from nonce zero. -/
def Served (method : AeadMethod) (master : List UInt8) (cs : List (List UInt8))
    (wire : List UInt8) : Prop :=
  ∃ (salt key : List UInt8) (c : C.Cipher) (w : List UInt8), salt.length = method.saltLen ∧
    hkdfSubkey C master salt method.keyLen = .ok key ∧ newCipher C method key = .ok c ∧
    Sealed c 0 cs w ∧ wire = salt ++ w

/-- Between two chunks, or before the salt, the bytes still to be taken continue the stream
at the nonce that the task expects. -/
def Boundary (method : AeadMethod) (master : List UInt8) (s : SsState C) (w out : List UInt8) :
    Prop :=
  match s.dec with
  | none => s.decNonce = 0 ∧ ∃ cs, Served (C := C) method master cs w ∧ out = cs.flatten
  | some c => ∃ cs, Sealed c s.decNonce cs w ∧ out = cs.flatten

theorem sealChunks_ok (hC : C.Lawful) (c : C.Cipher) (n : UInt64) (cs : List (List UInt8))
    (hcs : ∀ chunk ∈ cs, chunk.length ≤ maxChunk) : ∃ p, sealChunks c n cs = .ok p := by
  induction cs generalizing n with
  | nil => exact ⟨_, rfl⟩
  | cons chunk cs ih =>
    have hshort : (beBytes 2 chunk.length).length ≤ maxChunk := by simp [maxChunk]
    obtain ⟨cLen, hlen⟩ := cipherSeal_ok hC c n hshort
    obtain ⟨cBody, hbody⟩ := cipherSeal_ok hC c (n + 1) (hcs chunk List.mem_cons_self)
    obtain ⟨p, hp⟩ := ih (n + 2) (fun c' hc' => hcs c' (List.mem_cons_of_mem _ hc'))
    refine ⟨(p.1, cLen ++ cBody ++ p.2), ?_⟩
    simp [sealChunks, hlen, hbody, hp, bind, Except.bind, pure, Except.pure]

/-- A stream that ends early ends the task without a crypto error. -/
def Uncorrupted (why : Except SsError Unit) : Prop := ∀ message, why ≠ .error (.crypto message)

section Reading
variable (hC : C.Lawful) {enc : C.Cipher} {method : AeadMethod} {master : List UInt8}

abbrev ChunkReads (enc : C.Cipher) (method : AeadMethod) (master : List UInt8)
    (out : List UInt8) : ChunkReader C → SsState C → List UInt8 → Prop :=
  (pump enc method master).Reads Await.boundary Uncorrupted (fun _ => False)
    (Boundary method master) out

theorem cut_io : ∃ why, (pump enc method master).verdict (.error .io) = .stop why ∧
    Uncorrupted why :=
  ⟨.error .io, rfl, fun _ h => by cases h⟩

theorem cut_end : ∃ why, (pump enc method master).verdict (.ok []) = .stop why ∧
    Uncorrupted why :=
  ⟨.ok (), rfl, fun _ h => by cases h⟩

include hC

variable {cs : List (List UInt8)} {w : List UInt8} {s : SsState C}

theorem readBody_reads {c : C.Cipher} {chunk cBody : List UInt8} (hdec : s.dec = some c)
    (hpos : 1 ≤ chunk.length) (hbody : cipherSeal C c s.decNonce chunk = .ok cBody)
    (hrest : Sealed c (s.decNonce + 1) cs w) :
    ChunkReads enc method master (chunk ++ cs.flatten) (readBody c chunk.length) s
      (cBody ++ w) := by
  refine Reader.Expect.of_append (cipherSeal_length hC hbody) (by decide) cut_io ?_
  have hne : chunk.isEmpty = false := by
    cases chunk with
    | nil => simp at hpos
    | cons b bs => rfl
  simp only [Reader.Expect, cipherOpen_cipherSeal hC hbody, Pump.Outcome, pump, hne,
    Bool.false_eq_true, if_false]
  refine ⟨cs.flatten, rfl, ?_⟩
  simp only [Boundary, hdec]
  exact ⟨cs, hrest, rfl⟩

theorem readLen_reads {c : C.Cipher} (hdec : s.dec = some c) (h : Sealed c s.decNonce cs w) :
    ChunkReads enc method master cs.flatten (readLen c) s w := by
  have hbound : Boundary method master s w cs.flatten := by
    simp only [Boundary, hdec]
    exact ⟨cs, h, rfl⟩
  refine ⟨fun _ => hbound, ⟨_, rfl, cut_end⟩, fun hshort => ?_, fun hlen18 => ?_⟩
  all_goals cases h with
  | nil => first | exact ⟨rfl, rfl⟩ | exact absurd hlen18 (by decide)
  | @cons _ chunk cLen cBody w rest hpos hmax hlen hbody hrest => ?_
  · have hclen : cLen.length = 18 := by simpa using cipherSeal_length hC hlen
    rw [List.length_append] at hshort
    omega
  · have hclen : cLen.length = 18 := by simpa using cipherSeal_length hC hlen
    have hsmall : chunk.length < 256 ^ 2 := lt_of_le_of_lt hmax (by decide)
    have htake : (cLen ++ (cBody ++ w)).take (2 + 16) = cLen := by simp [← hclen]
    have hdrop : (cLen ++ (cBody ++ w)).drop (2 + 16) = cBody ++ w := by simp [← hclen]
    rw [htake, hdrop]
    have hnz : ¬ (chunk.length = 0 ∨ chunk.length > maxChunk) := by omega
    simp only [Reader.Expect, cipherOpen_cipherSeal hC hlen, beBytes_length, ne_eq,
      not_true_eq_false, if_false, ofBeBytes_beBytes 2 _ hsmall, hnz]
    exact readBody_reads hC (s := { s with decNonce := s.decNonce + 1 }) hdec hpos hbody hrest

theorem readSalt_reads (hdec : s.dec = none) (hn : s.decNonce = 0)
    (h : Served (C := C) method master cs w) :
    ChunkReads enc method master cs.flatten (readSalt method master) s w := by
  have hbound : Boundary method master s w cs.flatten := by
    simp only [Boundary, hdec]
    exact ⟨hn, cs, h, rfl⟩
  obtain ⟨salt, key, c, w, hsalt, hkey, hc, hsealed, rfl⟩ := h
  refine ⟨fun _ => hbound, ⟨_, rfl, cut_io⟩, fun hshort => ?_, fun _ => ?_⟩
  · rw [List.length_append] at hshort
    omega
  rw [← hsalt, List.take_left, List.drop_left]
  simp only [hkey, hc, Reader.Expect]
  refine readLen_reads hC (s := { s with dec := some c }) rfl ?_
  rw [hn]
  exact hsealed

theorem pump_sound (enc : C.Cipher) (method : AeadMethod) (master : List UInt8) :
    (pump enc method master).Sound Await.boundary Uncorrupted (fun _ => False)
      (Boundary method master) where
  waits := by
    intro s
    simp only [pump, readChunk, Reader.settle]
    cases s.dec with
    | some c => exact ⟨_, _, _, _, rfl⟩
    | none => cases method <;> exact ⟨_, _, _, _, rfl⟩
  start := by
    intro s w out hP
    unfold Boundary at hP
    simp only [Pump.Reads, pump, readChunk, Reader.Expect]
    cases hdec : s.dec with
    | none =>
      rw [hdec] at hP
      obtain ⟨hn, cs, hserved, rfl⟩ := hP
      exact readSalt_reads hC hdec hn hserved
    | some c =>
      rw [hdec] at hP
      obtain ⟨cs, hsealed, rfl⟩ := hP
      exact readLen_reads hC hdec hsealed
  onLocal := by
    intro s w out data hP
    obtain ⟨p, hp⟩ := sealChunks_ok hC enc s.encNonce (chunks maxChunk data)
      (fun chunk hc => chunk_length_le maxChunk data chunk hc)
    exact ⟨({ s with encNonce := p.1 }, p.2), by simp [pump, hp], hP⟩

end Reading

/-- The local side has seen a prefix of the plaintext, and the task has met no crypto error. -/
def Intact (plain : List UInt8) (st : PumpState C) : Prop :=
  st.delivered <+: plain ∧ ∀ message, st.phase ≠ .ended (some (.error (.crypto message)))

/-- In a run in which local bytes win only while the chunk reader is between two chunks, the
local side sees a prefix of the server's plaintext and no chunk fails to open. -/
theorem pump_keeps_plaintext (C : Crypto) (hC : C.Lawful) (enc : C.Cipher) (method : AeadMethod)
    (master : List UInt8) (cs : List (List UInt8)) (wire : List UInt8)
    (hwire : Served (C := C) method master cs wire) (es : List Pump.Event) (st : PumpState C)
    (hlive : ∀ e ∈ es, e.lively = true)
    (hrest : Meets (pump enc method master).step
      (fun st e => Pump.DropsAtRest Await.boundary st e = true)
      ((pump enc method master).initial (SsState.initial C) wire) es)
    (hrun : run (pump enc method master).step
      ((pump enc method master).initial (SsState.initial C) wire) es = some st) :
    Intact cs.flatten st := by
  have hP : Boundary method master (SsState.initial C) wire cs.flatten := ⟨rfl, cs, hwire, rfl⟩
  have h := Pump.inbound_integrity (pump_sound hC enc method master) hP hlive hrest hrun
  refine ⟨h.1, fun message hp => ?_⟩
  obtain ⟨why, hwhy, ⟨_, hgood, _⟩ | ⟨hbye, _⟩⟩ := h.2 _ hp
  · exact hgood message (Option.some.inj hwhy).symm
  · exact hbye.elim

/-- Sixteen bytes that depend on the nonce alone. -/
def plainTag (n : List UInt8) : List UInt8 := (n ++ List.replicate 16 0).take 16

/-- A stand-in for the libraries: the message in the clear, followed by a tag. -/
def plainCrypto : Crypto where
  Cipher := Unit
  hkdfExpand _ _ _ len := some (List.replicate len 0)
  newFromSlice _ _ := some ()
  encrypt _ n m := some (m ++ plainTag n)
  decrypt _ n ct :=
    if ct.drop (ct.length - 16) = plainTag n then some (ct.take (ct.length - 16)) else none

theorem plainTag_length (n : List UInt8) : (plainTag n).length = 16 := by
  simp [plainTag]

theorem plainCrypto_lawful : plainCrypto.Lawful where
  encrypt_ok := fun _ _ _ _ => ⟨_, rfl⟩
  encrypt_length := by
    intro _ n m ct h
    obtain rfl := Option.some.inj h
    simp [plainTag_length]
  decrypt_encrypt := by
    intro _ n m ct h
    obtain rfl := Option.some.inj h
    simp [plainCrypto, plainTag_length]

/-- One chunk of two zero bytes behind a salt of zeros. -/
def zeroWire : List UInt8 :=
  List.replicate 16 0 ++ ([0, 2] ++ plainTag (nonce 0) ++ ([0, 0] ++ plainTag (nonce 1) ++ []))

theorem zeroWire_served : Served (C := plainCrypto) .aes128Gcm [] [[0, 0]] zeroWire :=
  ⟨List.replicate 16 0, List.replicate 16 0, (), _, rfl, rfl, rfl,
    .cons (by decide) (by decide) rfl rfl (.nil _), rfl⟩

/-- Local bytes that arrive before the salt do not disturb the chunk. -/
theorem pump_keeps_plaintext_before_salt :
    ∃ st, run (pump (C := plainCrypto) () .aes128Gcm []).step
        ((pump (C := plainCrypto) () .aes128Gcm []).initial (SsState.initial plainCrypto) zeroWire)
        [.localRead [0x68], .accept 35, .arrive 52, .take 16, .take 18, .take 18, .deliver 2] =
          some st ∧
      st.delivered = [0, 0] ∧ Intact [[0, 0]].flatten st :=
  ⟨_, rfl, rfl, pump_keeps_plaintext plainCrypto plainCrypto_lawful () .aes128Gcm [] [[0, 0]] zeroWire
    zeroWire_served
    [.localRead [0x68], .accept 35, .arrive 52, .take 16, .take 18, .take 18, .deliver 2] _
    (by decide) (by decide) rfl⟩

/-- Local bytes that arrive between the length and the body make the reader open the body as
the next length, which its nonce permits. -/
theorem pump_loses_chunk_sync :
    ¬ ∀ (C : Crypto) (enc : C.Cipher) (method : AeadMethod) (master : List UInt8)
      (cs : List (List UInt8)) (wire : List UInt8) (es : List Pump.Event) (st : PumpState C),
      C.Lawful → Served (C := C) method master cs wire → (∀ e ∈ es, e.lively = true) →
      run (pump enc method master).step
        ((pump enc method master).initial (SsState.initial C) wire) es = some st →
      Intact cs.flatten st := by
  intro h
  have hbad := h plainCrypto () .aes128Gcm [] [[0, 0]] zeroWire
    [.arrive 34, .take 16, .take 18, .localRead [0x68], .accept 35, .arrive 18, .take 18] _
    plainCrypto_lawful zeroWire_served (by decide) rfl
  exact hbad.2 _ rfl

end EasyConnection.Shadowsocks
