import EasyConnection.Async.Reader
import EasyConnection.Codec.Bytes
import EasyConnection.Codec.Fallible
import EasyConnection.Net.Address

/-! # UDPGW packets

A packet is a flag byte, a connection id and, unless it is a keepalive, an address and a payload.
On the stream each packet stands behind the length of its body. A flag says how long the address
is, so encoder and decoder agree on the packets whose flags say what they hold.
-/
namespace EasyConnection.Udpgw
open Async Codec Net

inductive UdpgwError where
  | io
  | packet (message : String)
  deriving DecidableEq

def flagKeepalive : UInt8 := 1
def flagRebind : UInt8 := 2
def flagDns : UInt8 := 4
def flagIpv6 : UInt8 := 8

structure UdpgwPacket where
  flags : UInt8
  conid : UInt16
  dest : Option SocketAddr
  payload : List UInt8
  deriving DecidableEq

namespace UdpgwPacket

def keepalive (conid : UInt16) : UdpgwPacket := ⟨flagKeepalive, conid, none, []⟩

def dataFlags (ipv6 dns rebind : Bool) : UInt8 :=
  (if ipv6 then flagIpv6 else 0) ||| (if dns then flagDns else 0) |||
    (if rebind then flagRebind else 0)

def data (conid : UInt16) (dest : SocketAddr) (payload : List UInt8) (dns rebind : Bool) :
    UdpgwPacket :=
  ⟨dataFlags dest.isIpv6 dns rebind, conid, some dest, payload⟩

end UdpgwPacket

/-- The address and the payload behind the header. -/
def encodeRest (pkt : UdpgwPacket) : Except UdpgwError (List UInt8) :=
  if pkt.flags &&& flagKeepalive ≠ 0 then .ok []
  else match pkt.dest with
    | none => .error (.packet "data packet missing destination")
    | some ⟨.v4 ip, port⟩ => .ok (beBytes 4 ip.toNat ++ (beBytes 2 port.toNat ++ pkt.payload))
    | some ⟨.v6 ip, port⟩ =>
      if pkt.flags &&& flagIpv6 = 0 then .error (.packet "IPv6 dest without FLAG_IPV6")
      else .ok (beBytes 16 ip.toNat ++ (beBytes 2 port.toNat ++ pkt.payload))

def encodeBody (pkt : UdpgwPacket) : Except UdpgwError (List UInt8) := do
  let rest ← encodeRest pkt
  return pkt.flags :: (leBytes 2 pkt.conid.toNat ++ rest)

/-- The length in front, little-endian. -/
def encodeFrame (pkt : UdpgwPacket) : Except UdpgwError (List UInt8) := do
  let body ← encodeBody pkt
  if body.length > 65535 then throw (.packet "UDPGW payload exceeds 65535")
  else return leBytes 2 body.length ++ body

/-- An address of `n` bytes, its port, and what follows. -/
def splitAddr (n : ℕ) (rest : List UInt8) : ℕ × UInt16 × List UInt8 :=
  (ofBeBytes (rest.take n), UInt16.ofNat (ofBeBytes ((rest.drop n).take 2)), rest.drop (n + 2))

def decodeRest (flags : UInt8) (conid : UInt16) (rest : List UInt8) :
    Except UdpgwError UdpgwPacket :=
  if flags &&& flagKeepalive ≠ 0 then .ok ⟨flags, conid, none, []⟩
  else if flags &&& flagIpv6 ≠ 0 then
    if rest.length < 18 then .error (.packet "IPv6 address truncated")
    else
      let (ip, port, payload) := splitAddr 16 rest
      .ok ⟨flags, conid, some ⟨.v6 (BitVec.ofNat 128 ip), port⟩, payload⟩
  else
    if rest.length < 6 then .error (.packet "IPv4 address truncated")
    else
      let (ip, port, payload) := splitAddr 4 rest
      .ok ⟨flags, conid, some ⟨.v4 (BitVec.ofNat 32 ip), port⟩, payload⟩

def decodeBody : List UInt8 → Except UdpgwError UdpgwPacket
  | flags :: c₀ :: c₁ :: rest => decodeRest flags (UInt16.ofNat (ofLeBytes [c₀, c₁])) rest
  | _ => .error (.packet "UDPGW header truncated")

def maxFrame : ℕ := 65535

/-- One turn of `read_loop` up to the decoded packet. -/
def readFrame : Reader Unit Unit (Except UdpgwError UdpgwPacket) :=
  .read () 2 (.done (.error .io)) fun hdr =>
    let len := ofLeBytes hdr
    if len = 0 ∨ len > maxFrame then .done (.error (.packet s!"invalid frame length {len}"))
    else .read () len (.done (.error .io)) fun body => .done (decodeBody body)

/-- The packets that the turns of `read_loop` decode, and the error that ends the loop. -/
def readLoop : ℕ → List UInt8 → List UdpgwPacket × Option UdpgwError
  | 0, _ => ([], none)
  | turns + 1, w =>
    match readFrame.feed () w with
    | (.error e, _, _) => ([], some e)
    | (.ok pkt, _, w') =>
      let rest := readLoop turns w'
      (pkt :: rest.1, rest.2)

variable {pkt : UdpgwPacket}

namespace UdpgwPacket

/-- The flags say what the packet holds. -/
structure Coherent (pkt : UdpgwPacket) : Prop where
  keepalive : pkt.flags &&& flagKeepalive ≠ 0 → pkt.dest = none ∧ pkt.payload = []
  v4 : pkt.flags &&& flagKeepalive = 0 → pkt.flags &&& flagIpv6 = 0 →
    ∃ ip port, pkt.dest = some ⟨.v4 ip, port⟩
  v6 : pkt.flags &&& flagKeepalive = 0 → pkt.flags &&& flagIpv6 ≠ 0 →
    ∃ ip port, pkt.dest = some ⟨.v6 ip, port⟩

/-- Built by one of the two constructors of the source. -/
def Built (pkt : UdpgwPacket) : Prop :=
  (∃ conid, pkt = keepalive conid) ∨ ∃ conid dest payload dns rebind,
    pkt = data conid dest payload dns rebind

theorem dataFlags_keepalive : ∀ ipv6 dns rebind, dataFlags ipv6 dns rebind &&& flagKeepalive = 0 := by
  decide

theorem dataFlags_ipv6 : ∀ ipv6 dns rebind,
    dataFlags ipv6 dns rebind &&& flagIpv6 = 0 ↔ ipv6 = false := by
  decide

theorem Built.coherent (h : pkt.Built) : pkt.Coherent := by
  obtain ⟨conid, rfl⟩ | ⟨conid, ⟨ip, port⟩, payload, dns, rebind, rfl⟩ := h
  · have hset : flagKeepalive &&& flagKeepalive ≠ 0 := by decide
    exact ⟨fun _ => ⟨rfl, rfl⟩, fun h => absurd h hset, fun h => absurd h hset⟩
  · have hclear := dataFlags_keepalive (SocketAddr.isIpv6 ⟨ip, port⟩) dns rebind
    have hfamily := dataFlags_ipv6 (SocketAddr.isIpv6 ⟨ip, port⟩) dns rebind
    cases ip with
    | v4 ip =>
      exact ⟨fun h => absurd hclear h, fun _ _ => ⟨ip, port, rfl⟩, fun _ h => absurd (hfamily.2 rfl) h⟩
    | v6 ip =>
      exact ⟨fun h => absurd hclear h, fun _ h => Bool.noConfusion (hfamily.1 h),
        fun _ _ => ⟨ip, port, rfl⟩⟩

end UdpgwPacket

theorem splitAddr_append {n ip : ℕ} (hip : ip < 256 ^ n) (port : UInt16) (payload : List UInt8) :
    splitAddr n (beBytes n ip ++ (beBytes 2 port.toNat ++ payload)) = (ip, port, payload) := by
  have hdrop : (beBytes n ip ++ (beBytes 2 port.toNat ++ payload)).drop (n + 2) = payload := by
    rw [← List.append_assoc]
    exact List.drop_left' (by simp)
  rw [splitAddr, hdrop, List.take_left' (beBytes_length n ip), List.drop_left' (beBytes_length n ip),
    List.take_left' (beBytes_length 2 _), ofBeBytes_beBytes n ip hip,
    ofBeBytes_beBytes 2 _ port.toNat_lt, UInt16.ofNat_toNat]

theorem exists_addr {n : ℕ} {rest : List UInt8} (hlen : n + 2 ≤ rest.length) :
    ∃ (ip : ℕ) (port : UInt16) (payload : List UInt8), ip < 256 ^ n ∧
      rest = beBytes n ip ++ (beBytes 2 port.toNat ++ payload) := by
  have hip : (rest.take n).length = n := by
    rw [List.length_take]
    omega
  have hport : ((rest.drop n).take 2).length = 2 := by
    rw [List.length_take, List.length_drop]
    omega
  have hipLt := ofBeBytes_lt (rest.take n)
  have hipBytes := beBytes_ofBeBytes (rest.take n)
  have hportLt := ofBeBytes_lt ((rest.drop n).take 2)
  have hportBytes := beBytes_ofBeBytes ((rest.drop n).take 2)
  rw [hip] at hipLt hipBytes
  rw [hport] at hportLt hportBytes
  refine ⟨_, UInt16.ofNat (ofBeBytes ((rest.drop n).take 2)), (rest.drop n).drop 2, hipLt, ?_⟩
  rw [UInt16.toNat_ofNat_of_lt' hportLt, hipBytes, hportBytes, List.take_append_drop,
    List.take_append_drop]

theorem decodeBody_header (flags : UInt8) (conid : UInt16) (rest : List UInt8) :
    decodeBody (flags :: (leBytes 2 conid.toNat ++ rest)) = decodeRest flags conid rest := by
  have hconid : UInt16.ofNat (ofLeBytes (leBytes 2 conid.toNat)) = conid := by
    rw [ofLeBytes_leBytes 2 _ conid.toNat_lt, UInt16.ofNat_toNat]
  exact congrArg (decodeRest flags · rest) hconid

theorem decodeRest_encodeRest (h : pkt.Coherent) :
    ∃ rest, encodeRest pkt = .ok rest ∧ decodeRest pkt.flags pkt.conid rest = .ok pkt := by
  obtain ⟨flags, conid, dest, payload⟩ := pkt
  by_cases hkeep : flags &&& flagKeepalive = 0
  · by_cases hv6 : flags &&& flagIpv6 = 0
    · obtain ⟨ip, port, rfl⟩ := h.v4 hkeep hv6
      have hip : ip.toNat < 256 ^ 4 := ip.isLt
      refine ⟨beBytes 4 ip.toNat ++ (beBytes 2 port.toNat ++ payload), by simp [encodeRest, hkeep], ?_⟩
      simp [decodeRest, hkeep, hv6, splitAddr_append hip]
      omega
    · obtain ⟨ip, port, rfl⟩ := h.v6 hkeep hv6
      have hip : ip.toNat < 256 ^ 16 := ip.isLt
      refine ⟨beBytes 16 ip.toNat ++ (beBytes 2 port.toNat ++ payload),
        by simp [encodeRest, hkeep, hv6], ?_⟩
      simp [decodeRest, hkeep, hv6, splitAddr_append hip]
      omega
  · obtain ⟨rfl, rfl⟩ := h.keepalive hkeep
    exact ⟨[], if_pos hkeep, if_pos hkeep⟩

theorem decodeRest_header {flags : UInt8} {conid : UInt16} {rest : List UInt8}
    (h : decodeRest flags conid rest = .ok pkt) : pkt.flags = flags ∧ pkt.conid = conid := by
  unfold decodeRest at h
  split_ifs at h
  all_goals
    obtain rfl := Except.ok.inj h
    exact ⟨rfl, rfl⟩

theorem encodeRest_decodeRest {flags : UInt8} {conid : UInt16} {rest : List UInt8}
    (h : decodeRest flags conid rest = .ok pkt) (hdata : flags &&& flagKeepalive = 0) :
    encodeRest pkt = .ok rest := by
  rw [decodeRest, if_neg (by simp [hdata])] at h
  split_ifs at h with hv6 hshort hshort
  · obtain ⟨ip, port, payload, hip, rfl⟩ := exists_addr (n := 16) (Nat.not_lt.1 hshort)
    rw [splitAddr_append hip] at h
    obtain rfl := Except.ok.inj h
    have hbits : (BitVec.ofNat 128 ip).toNat = ip := Nat.mod_eq_of_lt hip
    simp only [encodeRest, hdata, hv6, ne_eq, not_true_eq_false, if_false, hbits]
  · obtain ⟨ip, port, payload, hip, rfl⟩ := exists_addr (n := 4) (Nat.not_lt.1 hshort)
    rw [splitAddr_append hip] at h
    obtain rfl := Except.ok.inj h
    have hbits : (BitVec.ofNat 32 ip).toNat = ip := Nat.mod_eq_of_lt hip
    simp only [encodeRest, hdata, ne_eq, not_true_eq_false, if_false, hbits]

theorem decodeBody_encodeBody (h : pkt.Coherent) :
    ∃ body, encodeBody pkt = .ok body ∧ 3 ≤ body.length ∧ decodeBody body = .ok pkt := by
  obtain ⟨rest, hrest, hdecode⟩ := decodeRest_encodeRest h
  refine ⟨pkt.flags :: (leBytes 2 pkt.conid.toNat ++ rest), ?_, by simp, ?_⟩
  · rw [encodeBody, hrest]
    rfl
  · rw [decodeBody_header, hdecode]

/-- Only a keepalive may hold bytes that the decoder does not look at. -/
theorem encodeBody_decodeBody {body : List UInt8} (h : decodeBody body = .ok pkt)
    (hdata : pkt.flags &&& flagKeepalive = 0) : encodeBody pkt = .ok body := by
  unfold decodeBody at h
  split at h
  · next flags c₀ c₁ rest =>
    obtain ⟨hflags, hconid⟩ := decodeRest_header h
    have hlt : ofLeBytes [c₀, c₁] < 256 ^ 2 := ofLeBytes_lt [c₀, c₁]
    have hbytes : leBytes 2 (ofLeBytes [c₀, c₁]) = [c₀, c₁] := leBytes_ofLeBytes [c₀, c₁]
    rw [hflags] at hdata
    rw [encodeBody, encodeRest_decodeRest h hdata, hflags, hconid, UInt16.toNat_ofNat_of_lt' hlt, hbytes]
    rfl
  · cases h

theorem encodeFrame_eq_ok {frame : List UInt8} :
    encodeFrame pkt = .ok frame ↔ ∃ body, encodeBody pkt = .ok body ∧ body.length ≤ 65535 ∧
      frame = leBytes 2 body.length ++ body := by
  rw [encodeFrame, except_bind_eq_ok]
  refine exists_congr fun body => and_congr_right fun _ => ?_
  split_ifs with hlong
  · exact ⟨nofun, fun h => absurd h.1 (Nat.not_le.2 hlong)⟩
  · exact ⟨fun h => ⟨Nat.not_lt.1 hlong, (Except.ok.inj h).symm⟩, fun h => congrArg _ h.2.symm⟩

/-- The loop takes exactly one frame from the stream. -/
theorem readFrame_feed (h : pkt.Coherent) {frame : List UInt8}
    (hframe : encodeFrame pkt = .ok frame) (w : List UInt8) :
    readFrame.feed () (frame ++ w) = (.ok pkt, (), w) := by
  obtain ⟨body, hbody, hle, rfl⟩ := encodeFrame_eq_ok.1 hframe
  obtain ⟨body', hbody', hpos, hdecode⟩ := decodeBody_encodeBody h
  obtain rfl : body' = body := Except.ok.inj (hbody'.symm.trans hbody)
  have hlen : ofLeBytes (leBytes 2 body'.length) = body'.length :=
    ofLeBytes_leBytes 2 _ (Nat.lt_of_le_of_lt hle (by decide))
  have hvalid : ¬ (body'.length = 0 ∨ body'.length > maxFrame) := by
    rw [maxFrame]
    omega
  rw [readFrame, List.append_assoc, Reader.feed_read_append (leBytes_length 2 _)]
  dsimp only
  rw [hlen, if_neg hvalid, Reader.feed_read_append rfl, Reader.feed, hdecode]

theorem readLoop_frames {pkts : List UdpgwPacket} (h : ∀ pkt ∈ pkts, pkt.Coherent)
    {frames : List (List UInt8)} (hframes : pkts.mapM encodeFrame = .ok frames) {turns : ℕ}
    (hturns : pkts.length < turns) : readLoop turns frames.flatten = (pkts, some .io) := by
  induction turns generalizing pkts frames with
  | zero => omega
  | succ turns ih =>
    cases pkts with
    | nil =>
      obtain rfl := Except.ok.inj hframes
      rfl
    | cons pkt pkts =>
      rw [List.mapM_cons, except_bind_eq_ok] at hframes
      obtain ⟨frame, hframe, hframes⟩ := hframes
      obtain ⟨frames', hframes', hcons⟩ := except_bind_eq_ok.1 hframes
      obtain rfl := Except.ok.inj hcons
      rw [List.flatten_cons, readLoop, readFrame_feed (h pkt List.mem_cons_self) hframe]
      simp only [ih (fun p hp => h p (List.mem_cons_of_mem _ hp)) hframes'
        (Nat.lt_of_succ_lt_succ hturns)]

/-- Every packet that the client builds has a body, and a frame exactly if the body fits. The
frames of a list of packets read back as that list, until the stream ends. In the other
direction, what the decoder makes of a body that is no keepalive is that body again. -/
theorem udpgw_codec :
    (∀ pkt : UdpgwPacket, pkt.Built → ∃ body, encodeBody pkt = .ok body ∧
      ((∃ frame, encodeFrame pkt = .ok frame) ↔ body.length ≤ 65535)) ∧
    (∀ (pkts : List UdpgwPacket) (frames : List (List UInt8)), (∀ pkt ∈ pkts, pkt.Built) →
      pkts.mapM encodeFrame = .ok frames → ∀ turns, pkts.length < turns →
        readLoop turns frames.flatten = (pkts, some .io)) ∧
    ∀ (body : List UInt8) (pkt : UdpgwPacket), decodeBody body = .ok pkt →
      pkt.flags &&& flagKeepalive = 0 → encodeBody pkt = .ok body := by
  refine ⟨fun pkt hpkt => ?_, fun pkts frames hpkts hframes turns hturns => ?_,
    fun body pkt => encodeBody_decodeBody⟩
  · obtain ⟨body, hbody, _⟩ := decodeBody_encodeBody hpkt.coherent
    refine ⟨body, hbody, ?_⟩
    simp only [encodeFrame_eq_ok, hbody, Except.ok.injEq]
    exact ⟨fun ⟨_, _, hbody', hle, _⟩ => hbody' ▸ hle, fun hle => ⟨_, body, rfl, hle, rfl⟩⟩
  · exact readLoop_frames (fun pkt hpkt => (hpkts pkt hpkt).coherent) hframes hturns

/-- A keepalive and a query to an IPv6 resolver, one after the other. -/
theorem udpgw_codec_query :
    readLoop 3 [3, 0, 1, 7, 0,
        22, 0, 12, 1, 0, 0, 0, 0, 0, 0, 0, 0, 0, 0, 0, 0, 0, 0, 0, 0, 1, 0, 53, 9] =
      ([.keepalive 7, .data 1 ⟨.v6 1, 53⟩ [9] true false], some .io) :=
  udpgw_codec.2.1 [.keepalive 7, .data 1 ⟨.v6 1, 53⟩ [9] true false]
    [[3, 0, 1, 7, 0],
      [22, 0, 12, 1, 0, 0, 0, 0, 0, 0, 0, 0, 0, 0, 0, 0, 0, 0, 0, 0, 1, 0, 53, 9]]
    (by
      intro pkt hpkt
      simp only [List.mem_cons, List.not_mem_nil, or_false] at hpkt
      obtain rfl | rfl := hpkt
      · exact .inl ⟨7, rfl⟩
      · exact .inr ⟨1, _, _, _, _, rfl⟩)
    (by decide) 3 (by decide)

end EasyConnection.Udpgw
