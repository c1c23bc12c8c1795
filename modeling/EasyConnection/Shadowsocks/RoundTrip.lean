import Mathlib.Data.List.Nodup
import EasyConnection.Async.Outbound
import EasyConnection.Codec.Fallible
import EasyConnection.Shadowsocks.Pump

/-! # A Shadowsocks stream reads back

The bytes that the task writes, behind the salt of its key, are a stream for the chunk reader.
The two halves meet at `Sealed`: sealing builds such a stream, and the reader takes it apart
chunk by chunk, with its nonce where the writer's was.
-/
namespace EasyConnection.Shadowsocks
open Async Codec

variable {C : Crypto}

/-- The calls of `seal` for the chunks: the length, then the body. -/
def sealCalls : UInt64 → List (List UInt8) → List (UInt64 × List UInt8)
  | _, [] => []
  | n, chunk :: rest => (n, beBytes 2 chunk.length) :: (n + 1, chunk) :: sealCalls (n + 2) rest

/-- Repeated calls of `readChunk`, up to an empty chunk: each chunk with the reader's nonce
after it. -/
def readChunks (method : AeadMethod) (master : List UInt8) :
    ℕ → SsState C → List UInt8 → Except SsError (List (List UInt8 × UInt64))
  | 0, _, _ => .ok []
  | calls + 1, s, w =>
    match (readChunk method master).feed s w with
    | (.error e, _, _) => .error e
    | (.ok data, s', w') =>
      if data.isEmpty then .ok []
      else do
        let rest ← readChunks method master calls s' w'
        return (data, s'.decNonce) :: rest

variable {cs ds : List (List UInt8)}

section Writer
variable {n : UInt64} {c : C.Cipher}

theorem sealChunks_cons {chunk : List UInt8} {p : UInt64 × List UInt8} :
    sealChunks c n (chunk :: cs) = .ok p ↔ ∃ cLen cBody out,
      cipherSeal C c n (beBytes 2 chunk.length) = .ok cLen ∧ cipherSeal C c (n + 1) chunk = .ok cBody ∧
      sealChunks c (n + 2) cs = .ok (p.1, out) ∧ p.2 = cLen ++ cBody ++ out := by
  simp only [sealChunks, except_bind_eq_ok]
  constructor
  · rintro ⟨cLen, hlen, cBody, hbody, ⟨n', out⟩, hrest, hp⟩
    obtain rfl := Except.ok.inj hp
    exact ⟨cLen, cBody, out, hlen, hbody, hrest, rfl⟩
  · rintro ⟨cLen, cBody, out, hlen, hbody, hrest, hp⟩
    exact ⟨cLen, hlen, cBody, hbody, (p.1, out), hrest, by rw [← hp]; rfl⟩

variable {m : UInt64} {out : List UInt8}

/-- Two lists of chunks, one after the other. -/
theorem sealChunks_append {k : UInt64} {out' : List UInt8} (hcs : sealChunks c n cs = .ok (m, out))
    (hds : sealChunks c m ds = .ok (k, out')) :
    sealChunks c n (cs ++ ds) = .ok (k, out ++ out') := by
  induction cs generalizing n out with
  | nil =>
    obtain ⟨rfl, rfl⟩ := Prod.mk.inj (Except.ok.inj hcs)
    exact hds
  | cons chunk cs ih =>
    obtain ⟨cLen, cBody, rest, hlen, hbody, hrest, hout⟩ := sealChunks_cons.1 hcs
    refine sealChunks_cons.2 ⟨cLen, cBody, rest ++ out', hlen, hbody, ih hrest, ?_⟩
    rw [show out = _ from hout, List.append_assoc _ rest]

theorem sealChunks_sealed (hcs : ∀ chunk ∈ cs, chunk ≠ [] ∧ chunk.length ≤ maxChunk)
    (h : sealChunks c n cs = .ok (m, out)) : Sealed c n cs out := by
  induction cs generalizing n out with
  | nil =>
    obtain ⟨rfl, rfl⟩ := Prod.mk.inj (Except.ok.inj h)
    exact .nil n
  | cons chunk cs ih =>
    obtain ⟨cLen, cBody, rest, hlen, hbody, hrest, hout⟩ := sealChunks_cons.1 h
    obtain ⟨hne, hmax⟩ := hcs chunk List.mem_cons_self
    obtain rfl : out = cLen ++ (cBody ++ rest) := by rw [← List.append_assoc]; exact hout
    refine .cons (List.length_pos_iff.2 hne) hmax hlen hbody ?_
    rw [show n + 1 + 1 = n + 2 from UInt64.add_assoc n 1 1]
    exact ih (fun c' hc' => hcs c' (List.mem_cons_of_mem _ hc')) hrest

theorem sealChunks_calls (h : sealChunks c n cs = .ok (m, out)) :
    ∃ blocks, (sealCalls n cs).mapM (fun call => cipherSeal C c call.1 call.2) = .ok blocks ∧
      blocks.flatten = out := by
  induction cs generalizing n out with
  | nil =>
    obtain ⟨rfl, rfl⟩ := Prod.mk.inj (Except.ok.inj h)
    exact ⟨[], rfl, rfl⟩
  | cons chunk cs ih =>
    obtain ⟨cLen, cBody, rest, hlen, hbody, hrest, hout⟩ := sealChunks_cons.1 h
    obtain ⟨blocks, hblocks, rfl⟩ := ih hrest
    refine ⟨cLen :: cBody :: blocks, ?_, ?_⟩
    · simp only [sealCalls, List.mapM_cons, hlen, hbody, hblocks]
      rfl
    · rw [show out = _ from hout]
      simp

theorem sealCalls_nonces (n : UInt64) (cs : List (List UInt8)) :
    (sealCalls n cs).map Prod.fst =
      (List.range (2 * cs.length)).map (fun k => n + UInt64.ofNat k) := by
  induction cs generalizing n with
  | nil => rfl
  | cons chunk cs ih =>
    have hshift : ∀ k, n + 2 + UInt64.ofNat k = n + UInt64.ofNat (k + 1 + 1) := by
      intro k
      rw [Nat.add_assoc, UInt64.ofNat_add, UInt64.add_assoc, UInt64.add_comm 2]
      rfl
    rw [List.length_cons, Nat.mul_succ, List.range_succ_eq_map, List.range_succ_eq_map]
    simp [sealCalls, ih, hshift, Function.comp_def]

theorem nonce_inj (h : nonce m = nonce n) : m = n := by
  have hbytes := List.append_cancel_right h
  exact UInt64.toNat_inj.1 (leBytes_inj m.toNat_lt n.toNat_lt hbytes)

/-- A counter that starts at zero passes each of its values once. -/
theorem sealCalls_nodup (hcs : cs.length < 2 ^ 63) :
    ((sealCalls 0 cs).map (fun call => nonce call.1)).Nodup := by
  have hnonces : (sealCalls 0 cs).map (fun call => nonce call.1) =
      (List.range (2 * cs.length)).map (fun k => nonce (UInt64.ofNat k)) := by
    rw [← Function.comp_def nonce Prod.fst, ← List.map_map, sealCalls_nonces, List.map_map]
    congr 1
    funext k
    rw [Function.comp_apply, UInt64.zero_add]
  rw [hnonces]
  refine List.Nodup.map_on (fun i hi j hj hij => ?_) List.nodup_range
  rw [List.mem_range] at hi hj
  have hlt : ∀ k < 2 * cs.length, k < UInt64.size := fun k hk => by
    rw [UInt64.size]
    omega
  have hmod := congrArg UInt64.toNat (nonce_inj hij)
  rwa [UInt64.toNat_ofNat_of_lt' (hlt i hi), UInt64.toNat_ofNat_of_lt' (hlt j hj)] at hmod

end Writer

section Reader
variable (hC : C.Lawful) {method : AeadMethod} {master : List UInt8} {c : C.Cipher} {s : SsState C}
include hC

variable {w : List UInt8}

theorem readBody_feed {chunk cBody : List UInt8}
    (hbody : cipherSeal C c s.decNonce chunk = .ok cBody) :
    (readBody c chunk.length).feed s (cBody ++ w) =
      (.ok chunk, { s with decNonce := s.decNonce + 1 }, w) := by
  rw [readBody, Reader.feed_read_append (cipherSeal_length hC hbody)]
  simp only [Reader.feed, cipherOpen_cipherSeal hC hbody]

theorem readLen_feed {cLen : List UInt8} {len : ℕ} (hpos : 1 ≤ len) (hmax : len ≤ maxChunk)
    (hlen : cipherSeal C c s.decNonce (beBytes 2 len) = .ok cLen) :
    (readLen c).feed s (cLen ++ w) =
      (readBody c len).feed { s with decNonce := s.decNonce + 1 } w := by
  have hclen : cLen.length = 2 + 16 := by simpa using cipherSeal_length hC hlen
  have hsmall : len < 256 ^ 2 := lt_of_le_of_lt hmax (by decide)
  have hvalid : ¬ (len = 0 ∨ len > maxChunk) := by omega
  rw [readLen, Reader.feed_read_append hclen]
  simp only [Reader.feed, cipherOpen_cipherSeal hC hlen, beBytes_length, ne_eq,
    not_true_eq_false, if_false, ofBeBytes_beBytes 2 _ hsmall, hvalid]

omit hC in
theorem readChunk_feed (hdec : s.dec = some c) :
    (readChunk method master).feed s w = (readLen c).feed s w := by
  rw [readChunk, Reader.feed, hdec]

omit hC in
theorem readChunk_feed_salt {salt : List UInt8} (hsalt : salt.length = method.saltLen)
    (hc : saltCipher C method master salt = .ok c) (hdec : s.dec = none) :
    (readChunk method master).feed s (salt ++ w) =
      (readChunk method master).feed { s with dec := some c } w := by
  obtain ⟨key, hkey, hc⟩ := except_bind_eq_ok.1 hc
  rw [readChunk_feed (s := { s with dec := some c }) rfl, readChunk, Reader.feed, hdec, readSalt,
    Reader.feed_read_append hsalt]
  simp only [hkey, hc, Reader.feed]

/-- The reader's nonce after a chunk is the writer's nonce after that chunk. -/
theorem readChunks_sealed (hdec : s.dec = some c) (h : Sealed c s.decNonce cs w) {calls : ℕ}
    (hcalls : cs.length < calls) :
    ∃ records, readChunks method master calls s w = .ok records ∧ records.map Prod.fst = cs ∧
      ∀ i p, records[i]? = some p →
        ∃ out, sealChunks c s.decNonce (cs.take (i + 1)) = .ok (p.2, out) := by
  induction calls generalizing s cs w with
  | zero => omega
  | succ calls ih =>
    cases cs with
    | nil =>
      cases h
      refine ⟨[], ?_, rfl, fun i p hp => by simp at hp⟩
      rw [readChunks, readChunk_feed hdec]
      rfl
    | cons chunk cs =>
      cases h with
      | @cons _ _ cLen cBody w' _ hpos hmax hlen hbody hrest =>
        obtain ⟨records, hrecords, hmap, hnonces⟩ :=
          ih (s := { s with decNonce := s.decNonce + 1 + 1 }) hdec hrest
            (Nat.lt_of_succ_lt_succ hcalls)
        have hne : chunk.isEmpty = false := List.isEmpty_eq_false_iff.2 (List.length_pos_iff.1 hpos)
        refine ⟨(chunk, s.decNonce + 1 + 1) :: records, ?_, by rw [List.map_cons, hmap], ?_⟩
        · rw [readChunks, readChunk_feed hdec, readLen_feed hC hpos hmax hlen,
            readBody_feed hC (s := { s with decNonce := s.decNonce + 1 }) hbody]
          simp only [hne, Bool.false_eq_true, if_false, hrecords]
          rfl
        · have hn : s.decNonce + 1 + 1 = s.decNonce + 2 := UInt64.add_assoc _ 1 1
          intro i p hp
          cases i with
          | zero =>
            obtain rfl := Option.some.inj hp
            exact ⟨_, sealChunks_cons.2 ⟨cLen, cBody, [], hlen, hbody, by rw [hn]; rfl, rfl⟩⟩
          | succ i =>
            obtain ⟨out, hout⟩ := hnonces i p hp
            exact ⟨_, sealChunks_cons.2 ⟨cLen, cBody, out, hlen, hbody, by rw [← hn]; exact hout, rfl⟩⟩

end Reader

/-- The chunks `cs` of the local reads `ds`, the bytes `out` they are sealed into, and what a
reader with the same key material makes of them. -/
structure ReadsBack (method : AeadMethod) (master salt : List UInt8) (enc : C.Cipher)
    (ds cs : List (List UInt8)) (out : List UInt8) : Prop where
  valid : ∀ chunk ∈ cs, chunk ≠ [] ∧ chunk.length ≤ maxChunk
  concat : cs.flatten = ds.flatten
  /-- As many calls as there are chunks, and one for the end of the stream. -/
  read : ∀ calls, cs.length < calls → ∃ records,
    readChunks method master calls (SsState.initial C) (salt ++ out) = .ok records ∧
    records.map Prod.fst = cs ∧
    ∀ i p, records[i]? = some p → ∃ out', sealChunks enc 0 (cs.take (i + 1)) = .ok (p.2, out')
  /-- The bytes are sealed under nonces that differ pairwise. -/
  calls : ∃ blocks, (sealCalls 0 cs).mapM (fun call => cipherSeal C enc call.1 call.2) = .ok blocks ∧
    blocks.flatten = out
  fresh : cs.length < 2 ^ 63 → ((sealCalls 0 cs).map (fun call => nonce call.1)).Nodup

/-- The local reads so far, cut into chunks, have been sealed from nonce zero on. -/
def Sealing (enc : C.Cipher) (ds bs : List (List UInt8)) (s : SsState C) : Prop :=
  sealChunks enc 0 (ds.flatMap (chunks maxChunk)) = .ok (s.encNonce, bs.flatten)

section Stream
variable (hC : C.Lawful) {method : AeadMethod} {master : List UInt8} {enc : C.Cipher}

theorem mem_chunks_valid :
    ∀ chunk ∈ ds.flatMap (chunks maxChunk), chunk ≠ [] ∧ chunk.length ≤ maxChunk := by
  intro chunk hchunk
  obtain ⟨d, _, hchunk⟩ := List.mem_flatMap.1 hchunk
  exact ⟨chunk_ne_nil (by decide) d chunk hchunk, chunk_length_le maxChunk d chunk hchunk⟩

/-- The chunk reader writes nothing and leaves the writer's nonce alone. -/
theorem readChunk_logs (ds bs : List (List UInt8)) :
    (readChunk method master : ChunkReader C).Logs (Sealing enc ds) False bs := by
  have hbody : ∀ c len, (readBody c len : ChunkReader C).Logs (Sealing enc ds) False bs := by
    intro c len
    refine ⟨trivial, fun got _ s hs => ?_⟩
    dsimp only
    split
    · trivial
    · exact ⟨hs, trivial⟩
  have hlen : ∀ c, (readLen c : ChunkReader C).Logs (Sealing enc ds) False bs := by
    intro c
    refine ⟨trivial, fun got _ s hs => ?_⟩
    dsimp only
    split
    · trivial
    · refine ⟨hs, ?_⟩
      split_ifs
      · trivial
      · trivial
      · exact hbody c _
  intro s hs
  dsimp only
  split
  · refine ⟨trivial, fun salt _ => ?_⟩
    dsimp only
    split
    · trivial
    · split
      · trivial
      · exact fun s' hs' => ⟨hs', hlen _⟩
  · exact hlen _

include hC

theorem pump_logged : (pump enc method master).Logged (Sealing enc) False where
  start := readChunk_logs
  onLocal := by
    intro ds bs s data _ _ hs
    obtain ⟨⟨n, out⟩, hseal⟩ := sealChunks_ok hC enc s.encNonce (chunks maxChunk data)
      (fun chunk hchunk => chunk_length_le maxChunk data chunk hchunk)
    refine ⟨({ s with encNonce := n }, out), by simp [pump, hseal], ?_⟩
    have happend := sealChunks_append hs hseal
    simpa [Sealing] using happend

theorem readsBack_of_sealing {salt : List UInt8} (hsalt : salt.length = method.saltLen)
    (henc : saltCipher C method master salt = .ok enc) {bs : List (List UInt8)} {s : SsState C}
    (hs : Sealing enc ds bs s) :
    ReadsBack method master salt enc ds (ds.flatMap (chunks maxChunk)) bs.flatten where
  valid := mem_chunks_valid
  concat := flatten_flatMap_chunks (by decide) ds
  read := by
    intro calls hcalls
    have hsealed := sealChunks_sealed mem_chunks_valid hs
    obtain ⟨records, hrecords, h⟩ :=
      readChunks_sealed (s := { SsState.initial C with dec := some enc }) hC rfl hsealed hcalls
    refine ⟨records, ?_, h⟩
    cases calls with
    | zero => exact hrecords
    | succ calls =>
      rw [readChunks, readChunk_feed_salt hsalt henc rfl]
      exact hrecords
  calls := sealChunks_calls hs
  fresh := sealCalls_nodup

end Stream

/-- Whatever the order of events, the task writes the sealed chunks of its local reads and, as
long as it has not ended, owes only what it is about to write. Every sequence of local reads
comes up, and behind the salt its bytes read back chunk by chunk. -/
theorem stream_round_trip (C : Crypto) (hC : C.Lawful) (method : AeadMethod)
    (master salt : List UInt8) (enc : C.Cipher) (hsalt : salt.length = method.saltLen)
    (henc : saltCipher C method master salt = .ok enc) (wire : List UInt8) :
    (∀ (es : List Pump.Event) (st : PumpState C),
      run (pump enc method master).step
        ((pump enc method master).initial (SsState.initial C) wire) es = some st →
      ∃ cs out rest, ReadsBack method master salt enc (es.flatMap Pump.Event.localBytes) cs out ∧
        st.outbound ++ rest = out ∧
        ((∀ why, st.phase ≠ .ended why) → rest = st.phase.unwritten)) ∧
    ∀ ds : List (List UInt8), (∀ d ∈ ds, 1 ≤ d.length ∧ d.length ≤ 16384) →
      ∃ es st cs, run (pump enc method master).step
          ((pump enc method master).initial (SsState.initial C) wire) es = some st ∧
        es.flatMap Pump.Event.localBytes = ds ∧
        ReadsBack method master salt enc ds cs st.outbound := by
  have hM : (pump enc method master).Logged (Sealing enc) False := pump_logged hC
  have hinit : Sealing enc [] [] (SsState.initial C) := rfl
  constructor
  · intro es st hrun
    obtain ⟨bs, rest, hs, ⟨hout, _⟩, hrest⟩ := Pump.outbound_integrity hM hinit
      (Meets.of_forall (fun _ _ h => h.elim) _ es) hrun
    exact ⟨_, _, rest, readsBack_of_sealing hC hsalt henc hs, hout, hrest⟩
  · intro ds hds
    obtain ⟨es, st, hrun, hreads, r, hphase, hwritten⟩ :=
      Pump.exists_run_localReads hM (pump_sound hC enc method master).waits ds
        (fun d hd => ⟨List.length_pos_iff.1 (hds d hd).1, (hds d hd).2⟩)
        (t := ⟨SsState.initial C, .ended none, wire, [], false, [], []⟩) hinit
    obtain ⟨bs, rest, hs, ⟨hout, _⟩, hrest⟩ := Pump.outbound_integrity hM hinit
      (Meets.of_forall (fun _ _ h => h.elim) _ es) hrun
    have hnil : rest = [] := by
      rw [hrest (fun why => by simp [hphase]), hphase]
      exact hwritten
    rw [hnil, List.append_nil] at hout
    rw [hreads] at hs
    exact ⟨es, st, _, hrun, hreads, hout ▸ readsBack_of_sealing hC hsalt henc hs⟩

/-- A read of one byte and one of 16384, which makes a chunk of its own for the last byte. -/
theorem stream_round_trip_full_read :
    ∃ es st cs, run (pump (C := plainCrypto) () .aes128Gcm []).step
        ((pump (C := plainCrypto) () .aes128Gcm []).initial (SsState.initial plainCrypto) zeroWire)
        es = some st ∧
      es.flatMap Pump.Event.localBytes = [[0x68], List.replicate 16384 0] ∧
      ReadsBack (C := plainCrypto) .aes128Gcm [] (List.replicate 16 0) ()
        [[0x68], List.replicate 16384 0] cs st.outbound :=
  (stream_round_trip plainCrypto plainCrypto_lawful .aes128Gcm [] (List.replicate 16 0) () rfl rfl
    zeroWire).2 _ (List.forall_mem_cons.2 ⟨by decide,
      List.forall_mem_cons.2 ⟨by rw [List.length_replicate]; decide, nofun⟩⟩)

end EasyConnection.Shadowsocks
