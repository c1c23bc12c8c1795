import EasyConnection.Ipc.Boundaries

/-! # Calls over one socket

A caller sends a request as a frame and waits for a frame; the other end waits for a frame,
works and sends one. Either end may be given any part of the stream at a time, and keeps nothing
between two frames. As each end waits for the other, there is never more than one frame on its
way, so nothing is lost.
-/
namespace EasyConnection.Ipc
open Codec

variable {φ : Type}

/-- What a call of `recv_frame` has come to. -/
inductive Received (φ : Type) where
  | more
  | frame (f : Frame φ)
  | failed
  deriving DecidableEq

/-- A call that has been given these pieces. Where it would find the socket closed, it waits. -/
def received (op : String) (pieces : List (List (Octet φ))) : Received φ :=
  match recvFrame op (inbox pieces) with
  | .ok (f, _) => .frame f
  | .error (.io _ _) => .more
  | .error (.ipc _) => .failed

inductive Caller (φ : Type) where
  | ready
  | sending (payload : List UInt8) (left : List (Octet φ))
  | receiving (payload : List UInt8) (pieces : List (List (Octet φ)))
  | failed
  deriving DecidableEq

inductive Callee (φ : Type) where
  | receiving (pieces : List (List (Octet φ)))
  | working (payload : List UInt8)
  | sending (payload : List UInt8) (answer : Frame φ) (left : List (Octet φ))
  | failed
  deriving DecidableEq

/-- A socket with its two ends, and the bytes that are on their way. -/
structure Sock (φ : Type) where
  caller : Caller φ
  callee : Callee φ
  up : List (Octet φ)
  down : List (Octet φ)
  /-- The requests that have been answered, with the answers. -/
  handled : List (List UInt8 × Frame φ)
  /-- The calls that have returned, with what they have received. -/
  returned : List (List UInt8 × Frame φ)
  deriving DecidableEq

namespace Sock

def opened : Sock φ := ⟨.ready, .receiving [], [], [], [], []⟩

variable (s : Sock φ)

/-- A request that is too large is refused before anything is sent. -/
def call (payload : List UInt8) : Option (Sock φ) :=
  match s.caller with
  | .ready =>
    if payload.length > maxFrame then some s
    else some { s with caller := .sending payload (Frame.wire ⟨payload, none⟩) }
  | _ => none

def callerSend (n : ℕ) : Option (Sock φ) :=
  match s.caller with
  | .sending payload left =>
    if 0 < n ∧ n < left.length then
      some { s with caller := .sending payload (left.drop n), up := s.up ++ left.take n }
    else if n = left.length then
      some { s with caller := .receiving payload [], up := s.up ++ left }
    else none
  | _ => none

def calleeRecv (op : String) (n : ℕ) : Option (Sock φ) :=
  match s.callee with
  | .receiving pieces =>
    if 0 < n ∧ n ≤ recvCapacity ∧ n ≤ s.up.length then
      let pieces := pieces ++ [s.up.take n]
      let callee := match received op pieces with
        | .more => .receiving pieces
        | .frame f => .working f.payload
        | .failed => .failed
      some { s with callee, up := s.up.drop n }
    else none
  | _ => none

/-- An answer that is too large cannot be sent. -/
def answer (f : Frame φ) : Option (Sock φ) :=
  match s.callee with
  | .working payload =>
    if f.payload.length > maxFrame then some { s with callee := .failed }
    else some { s with
      callee := .sending payload f f.wire, handled := s.handled ++ [(payload, f)] }
  | _ => none

def calleeSend (n : ℕ) : Option (Sock φ) :=
  match s.callee with
  | .sending payload f left =>
    if 0 < n ∧ n < left.length then
      some { s with callee := .sending payload f (left.drop n), down := s.down ++ left.take n }
    else if n = left.length then
      some { s with callee := .receiving [], down := s.down ++ left }
    else none
  | _ => none

def callerRecv (op : String) (n : ℕ) : Option (Sock φ) :=
  match s.caller with
  | .receiving payload pieces =>
    if 0 < n ∧ n ≤ recvCapacity ∧ n ≤ s.down.length then
      let pieces := pieces ++ [s.down.take n]
      match received op pieces with
      | .more => some { s with caller := .receiving payload pieces, down := s.down.drop n }
      | .frame f => some { s with
          caller := .ready, down := s.down.drop n, returned := s.returned ++ [(payload, f)] }
      | .failed => some { s with caller := .failed, down := s.down.drop n }
    else none
  | _ => none

section Frame
variable {s} {s' : Sock φ} {op : String} {n : ℕ}

theorem call_frame {payload : List UInt8} (h : s.call payload = some s') :
    s'.callee = s.callee ∧ s'.handled = s.handled := by
  unfold call at h
  split at h
  · split_ifs at h
    · rw [← Option.some.inj h]
      exact ⟨rfl, rfl⟩
    · rw [← Option.some.inj h]
      exact ⟨rfl, rfl⟩
  · cases h

theorem callerSend_frame (h : s.callerSend n = some s') :
    s'.callee = s.callee ∧ s'.handled = s.handled := by
  unfold callerSend at h
  split at h
  · split_ifs at h
    · rw [← Option.some.inj h]
      exact ⟨rfl, rfl⟩
    · rw [← Option.some.inj h]
      exact ⟨rfl, rfl⟩
  · cases h

theorem callerRecv_frame (h : s.callerRecv op n = some s') :
    s'.callee = s.callee ∧ s'.handled = s.handled := by
  unfold callerRecv at h
  split at h
  · split_ifs at h
    dsimp only at h
    split at h
    all_goals
      rw [← Option.some.inj h]
      exact ⟨rfl, rfl⟩
  · cases h

theorem calleeRecv_handled (h : s.calleeRecv op n = some s') : s'.handled = s.handled := by
  unfold calleeRecv at h
  split at h
  · split_ifs at h
    rw [← Option.some.inj h]
  · cases h

end Frame

end Sock

section Received
variable {pieces : List (List (Octet φ))} {f : Frame φ}

/-- Too few bytes leave the receiver waiting. -/
theorem fill_short (op : String) (closed : ℕ → String) {need : ℕ} {buf : List UInt8} {fd : Option φ}
    (hne : ∀ piece ∈ pieces, piece ≠ []) (hshort : buf.length + pieces.flatten.length < need) :
    ∃ message, fill op closed need buf fd (inbox pieces) = .error (.io op message) := by
  induction pieces generalizing buf fd with
  | nil =>
    have hbuf : ¬ need ≤ buf.length := by
      rw [List.flatten_nil, List.length_nil] at hshort
      omega
    exact ⟨_, by simp only [inbox, List.map_nil, fill, if_neg hbuf]; rfl⟩
  | cons piece pieces ih =>
    rw [List.forall_mem_cons] at hne
    rw [List.flatten_cons, List.length_append] at hshort
    have hbuf : ¬ need ≤ buf.length := by omega
    have hbytes : (recvmsg piece).bytes ≠ [] := by simpa [recvmsg] using hne.1
    have hlength : (recvmsg piece).bytes.length = piece.length := List.length_map _
    obtain ⟨message, hfill⟩ : ∃ message, fill op closed need (buf ++ (recvmsg piece).bytes)
        (fd.or (recvmsg piece).fd) (inbox pieces) = .error (.io op message) :=
      ih hne.2 (by rw [List.length_append, hlength]; omega)
    refine ⟨message, ?_⟩
    simp only [inbox, List.map_cons, fill, if_neg hbuf, if_neg hbytes]
    exact hfill

theorem received_all (op : String) (hsmall : f.payload.length ≤ maxFrame)
    (hne : ∀ piece ∈ pieces, piece ≠ []) (hflat : pieces.flatten = f.wire) :
    received op pieces = .frame f := by
  obtain ⟨taken, rest, rfl, ⟨hneed, -⟩, hrecv⟩ :=
    recvFrame_pieces op hsmall hne (hflat.trans (List.append_nil _).symm)
  have hrest : rest = [] := by
    by_contra hrest
    have hpos := List.length_pos_iff.2
      (flatten_ne_nil (fun p hp => hne p (List.mem_append_right _ hp)) hrest)
    have hlength := congrArg List.length hflat
    rw [List.flatten_append, List.length_append] at hlength
    omega
  subst hrest
  rw [List.append_nil] at hflat hrecv ⊢
  rw [received, hrecv, hflat, f.wire_descriptor]

theorem received_part (op : String) (hsmall : f.payload.length ≤ maxFrame)
    (hne : ∀ piece ∈ pieces, piece ≠ []) {rest : List (Octet φ)} (hrest : rest ≠ [])
    (hflat : pieces.flatten ++ rest = f.wire) : received op pieces = .more := by
  have hpos := List.length_pos_iff.2 hrest
  have htotal : pieces.flatten.length + rest.length = 4 + f.payload.length := by
    rw [← List.length_append, hflat, wire_length]
  have hmore {e : TunError} (h : recvFrame op (inbox pieces) = .error e) (hio : ∃ m, e = .io op m) :
      received op pieces = .more := by
    obtain ⟨message, rfl⟩ := hio
    rw [received, h]
  by_cases hhead : pieces.flatten.length < 4
  · obtain ⟨message, hfill⟩ : ∃ message, fill op closedEarly 4 [] none (inbox pieces) =
        .error (.io op message) := fill_short op closedEarly hne (by simpa using hhead)
    refine hmore (e := .io op message) ?_ ⟨message, rfl⟩
    rw [recvFrame, hfill]
  · obtain ⟨taken, left, hsplit, ⟨hfour, -⟩, hfill⟩ := fill_pieces op closedEarly 4 [] hne
      (by rw [List.nil_append]; omega) (.inl rfl)
    rw [List.nil_append] at hsplit
    subst hsplit
    have hlength : ofBeBytes ((taken.flatten.map Prod.fst).take 4) = f.payload.length := by
      have hall : (taken ++ (left ++ [rest])).flatten = f.wire ++ [] := by
        rw [List.append_nil, ← hflat]
        simp
      rw [take_bytes hall hfour (by rw [Frame.bytes]; simp), Frame.bytes,
        List.take_append_of_le_length (by simp), List.take_of_length_le (by simp)]
      exact ofBeBytes_beBytes 4 _ (lt_of_le_of_lt hsmall (by decide))
    rw [List.flatten_append, List.length_append] at htotal
    obtain ⟨message, hfill'⟩ : ∃ message, fill op (closedMidFrame (4 + f.payload.length))
        (4 + f.payload.length) (taken.flatten.map Prod.fst) (descriptor taken.flatten)
        (inbox left) = .error (.io op message) :=
      fill_short op _ (fun p hp => hne p (List.mem_append_right _ hp))
        (by rw [List.length_map]; omega)
    refine hmore (e := .io op message) ?_ ⟨message, rfl⟩
    have hfirst : fill op closedEarly 4 [] none (inbox (taken ++ left)) =
      .ok ((taken.flatten.map Prod.fst, descriptor taken.flatten), inbox left) := hfill
    simp only [recvFrame, hfirst, hlength, if_neg (Nat.not_lt.2 hsmall), hfill']

end Received

section Lockstep
variable {s s' : Sock φ} {f : Frame φ} {pieces : List (List (Octet φ))} {flying left : List (Octet φ)}

/-- A frame of which some pieces have been received and some is on its way. -/
structure OnWay (f : Frame φ) (pieces : List (List (Octet φ))) (flying left : List (Octet φ)) :
    Prop where
  small : f.payload.length ≤ maxFrame
  proper : ∀ piece ∈ pieces, piece ≠ []
  whole : pieces.flatten ++ (flying ++ left) = f.wire

theorem OnWay.send (h : OnWay f pieces flying left) (n : ℕ) :
    OnWay f pieces (flying ++ left.take n) (left.drop n) :=
  ⟨h.small, h.proper, by rw [List.append_assoc, List.take_append_drop, h.whole]⟩

theorem OnWay.sendAll (h : OnWay f pieces flying left) : OnWay f pieces (flying ++ left) [] :=
  ⟨h.small, h.proper, by rw [List.append_nil, h.whole]⟩

theorem OnWay.recv (h : OnWay f pieces flying left) {n : ℕ} (hn : 0 < n) (hle : n ≤ flying.length) :
    OnWay f (pieces ++ [flying.take n]) (flying.drop n) left := by
  refine ⟨h.small, fun piece hp => ?_, ?_⟩
  · rcases List.mem_append.1 hp with hp | hp
    · exact h.proper piece hp
    · rw [List.mem_singleton.1 hp]
      exact List.length_pos_iff.1 (by rw [List.length_take]; omega)
  · rw [List.flatten_append, List.flatten_singleton, List.append_assoc, ← List.append_assoc
      (flying.take n), List.take_append_drop, h.whole]

theorem OnWay.received_more (h : OnWay f pieces flying left) (op : String)
    (hrest : flying ++ left ≠ []) : received op pieces = .more :=
  received_part op h.small h.proper hrest h.whole

theorem OnWay.received_frame (h : OnWay f pieces [] []) (op : String) :
    received op pieces = .frame f :=
  received_all op h.small h.proper (by simpa using h.whole)

/-- Where the two ends are, with the one frame that is on its way. -/
inductive Lockstep (s : Sock φ) : Prop where
  | ready (hcaller : s.caller = .ready) (hcallee : s.callee = .receiving []) (hup : s.up = [])
      (hdown : s.down = []) (hlog : s.handled = s.returned)
  | asking {payload : List UInt8} {left : List (Octet φ)} {pieces : List (List (Octet φ))}
      (hcaller : s.caller = .sending payload left) (hleft : left ≠ [])
      (hcallee : s.callee = .receiving pieces) (hway : OnWay ⟨payload, none⟩ pieces s.up left)
      (hdown : s.down = []) (hlog : s.handled = s.returned)
  | asked {payload : List UInt8} {pieces : List (List (Octet φ))}
      (hcaller : s.caller = .receiving payload []) (hcallee : s.callee = .receiving pieces)
      (hup : s.up ≠ []) (hway : OnWay ⟨payload, none⟩ pieces s.up []) (hdown : s.down = [])
      (hlog : s.handled = s.returned)
  | working {payload : List UInt8} (hcaller : s.caller = .receiving payload [])
      (hcallee : s.callee = .working payload) (hup : s.up = []) (hdown : s.down = [])
      (hlog : s.handled = s.returned)
  | refused {payload : List UInt8} (hcaller : s.caller = .receiving payload [])
      (hcallee : s.callee = .failed) (hup : s.up = []) (hdown : s.down = [])
      (hlog : s.handled = s.returned)
  | answering {payload : List UInt8} {pieces : List (List (Octet φ))} {f : Frame φ}
      {left : List (Octet φ)} (hcaller : s.caller = .receiving payload pieces)
      (hcallee : s.callee = .sending payload f left) (hleft : left ≠ [])
      (hway : OnWay f pieces s.down left) (hup : s.up = [])
      (hlog : s.handled = s.returned ++ [(payload, f)])
  | answered {payload : List UInt8} {pieces : List (List (Octet φ))} {f : Frame φ}
      (hcaller : s.caller = .receiving payload pieces) (hcallee : s.callee = .receiving [])
      (hdown : s.down ≠ []) (hway : OnWay f pieces s.down []) (hup : s.up = [])
      (hlog : s.handled = s.returned ++ [(payload, f)])

theorem lockstep_opened : Lockstep (Sock.opened : Sock φ) := .ready rfl rfl rfl rfl rfl

theorem wire_ne_nil (f : Frame φ) : f.wire ≠ [] :=
  List.length_pos_iff.1 (by rw [wire_length]; omega)

theorem Lockstep.call (h : Lockstep s) {payload : List UInt8} (hs : s.call payload = some s') :
    Lockstep s' := by
  unfold Sock.call at hs
  split at hs
  · next hready =>
    split_ifs at hs with hlarge
    · rw [← Option.some.inj hs]
      exact h
    · obtain rfl := Option.some.inj hs
      cases h with
      | ready hcaller hcallee hup hdown hlog =>
        refine .asking rfl (wire_ne_nil _) hcallee ⟨Nat.not_lt.1 hlarge, ?_, ?_⟩ hdown hlog
        · exact fun _ hp => by cases hp
        · rw [List.flatten_nil, List.nil_append, hup, List.nil_append]
      | asking hcaller => cases hready.symm.trans hcaller
      | asked hcaller => cases hready.symm.trans hcaller
      | working hcaller => cases hready.symm.trans hcaller
      | refused hcaller => cases hready.symm.trans hcaller
      | answering hcaller => cases hready.symm.trans hcaller
      | answered hcaller => cases hready.symm.trans hcaller
  · cases hs

theorem Lockstep.callerSend (h : Lockstep s) {n : ℕ} (hs : s.callerSend n = some s') :
    Lockstep s' := by
  unfold Sock.callerSend at hs
  split at hs
  · next payload left hsending =>
    cases h with
    | asking hcaller hleft hcallee hway hdown hlog =>
      cases hsending.symm.trans hcaller
      split_ifs at hs with hpart hall
      · obtain rfl := Option.some.inj hs
        refine .asking rfl ?_ hcallee (hway.send n) hdown hlog
        exact List.length_pos_iff.1 (by rw [List.length_drop]; omega)
      · obtain rfl := Option.some.inj hs
        exact .asked rfl hcallee (List.append_ne_nil_of_right_ne_nil _ hleft) hway.sendAll hdown
          hlog
    | ready hcaller => cases hsending.symm.trans hcaller
    | asked hcaller => cases hsending.symm.trans hcaller
    | working hcaller => cases hsending.symm.trans hcaller
    | refused hcaller => cases hsending.symm.trans hcaller
    | answering hcaller => cases hsending.symm.trans hcaller
    | answered hcaller => cases hsending.symm.trans hcaller
  · cases hs

theorem Lockstep.calleeRecv (h : Lockstep s) {op : String} {n : ℕ}
    (hs : s.calleeRecv op n = some s') : Lockstep s' := by
  unfold Sock.calleeRecv at hs
  split at hs
  · next pieces hreceiving =>
    split_ifs at hs with hn
    obtain ⟨hpos, -, hle⟩ := hn
    obtain rfl := Option.some.inj hs
    have hempty (hup : s.up = []) : False := by
      rw [hup] at hle
      exact absurd hpos (Nat.not_lt.2 hle)
    cases h with
    | asking hcaller hleft hcallee hway hdown hlog =>
      cases hreceiving.symm.trans hcallee
      have hway := hway.recv hpos hle
      refine .asking hcaller hleft ?_ hway hdown hlog
      simp only [hway.received_more op (List.append_ne_nil_of_right_ne_nil _ hleft)]
    | asked hcaller hcallee hup hway hdown hlog =>
      cases hreceiving.symm.trans hcallee
      have hway := hway.recv hpos hle
      by_cases hrest : s.up.drop n = []
      · rw [hrest] at hway
        refine .working hcaller ?_ hrest hdown hlog
        simp only [hway.received_frame op]
      · refine .asked hcaller ?_ hrest hway hdown hlog
        simp only [hway.received_more op (List.append_ne_nil_of_left_ne_nil hrest _)]
    | ready hcaller hcallee hup => exact absurd hup hempty
    | working hcaller hcallee hup => exact absurd hup hempty
    | refused hcaller hcallee hup => exact absurd hup hempty
    | answering hcaller hcallee hleft hway hup => exact absurd hup hempty
    | answered hcaller hcallee hdown hway hup => exact absurd hup hempty
  · cases hs

theorem Lockstep.answer (h : Lockstep s) (hs : s.answer f = some s') : Lockstep s' := by
  unfold Sock.answer at hs
  split at hs
  · next payload hworking =>
    cases h with
    | working hcaller hcallee hup hdown hlog =>
      cases hworking.symm.trans hcallee
      split_ifs at hs with hlarge
      · obtain rfl := Option.some.inj hs
        exact .refused hcaller rfl hup hdown hlog
      · obtain rfl := Option.some.inj hs
        refine .answering hcaller rfl (wire_ne_nil f) ⟨Nat.not_lt.1 hlarge, ?_, ?_⟩ hup ?_
        · exact fun _ hp => by cases hp
        · rw [List.flatten_nil, List.nil_append, hdown, List.nil_append]
        · rw [hlog]
    | ready hcaller hcallee => cases hworking.symm.trans hcallee
    | asking hcaller hleft hcallee => cases hworking.symm.trans hcallee
    | asked hcaller hcallee => cases hworking.symm.trans hcallee
    | refused hcaller hcallee => cases hworking.symm.trans hcallee
    | answering hcaller hcallee => cases hworking.symm.trans hcallee
    | answered hcaller hcallee => cases hworking.symm.trans hcallee
  · cases hs

theorem Lockstep.calleeSend (h : Lockstep s) {n : ℕ} (hs : s.calleeSend n = some s') :
    Lockstep s' := by
  unfold Sock.calleeSend at hs
  split at hs
  · next payload g left hsending =>
    cases h with
    | answering hcaller hcallee hleft hway hup hlog =>
      cases hsending.symm.trans hcallee
      split_ifs at hs with hpart hall
      · obtain rfl := Option.some.inj hs
        refine .answering hcaller rfl ?_ (hway.send n) hup hlog
        exact List.length_pos_iff.1 (by rw [List.length_drop]; omega)
      · obtain rfl := Option.some.inj hs
        exact .answered hcaller rfl (List.append_ne_nil_of_right_ne_nil _ hleft) hway.sendAll hup
          hlog
    | ready hcaller hcallee => cases hsending.symm.trans hcallee
    | asking hcaller hleft hcallee => cases hsending.symm.trans hcallee
    | asked hcaller hcallee => cases hsending.symm.trans hcallee
    | working hcaller hcallee => cases hsending.symm.trans hcallee
    | refused hcaller hcallee => cases hsending.symm.trans hcallee
    | answered hcaller hcallee => cases hsending.symm.trans hcallee
  · cases hs

theorem Lockstep.callerRecv (h : Lockstep s) {op : String} {n : ℕ}
    (hs : s.callerRecv op n = some s') : Lockstep s' := by
  unfold Sock.callerRecv at hs
  split at hs
  · next payload pieces hreceiving =>
    split_ifs at hs with hn
    obtain ⟨hpos, -, hle⟩ := hn
    have hempty (hdown : s.down = []) : False := by
      rw [hdown] at hle
      exact absurd hpos (Nat.not_lt.2 hle)
    cases h with
    | answering hcaller hcallee hleft hway hup hlog =>
      cases hreceiving.symm.trans hcaller
      have hway := hway.recv hpos hle
      simp only [hway.received_more op (List.append_ne_nil_of_right_ne_nil _ hleft)] at hs
      obtain rfl := Option.some.inj hs
      exact .answering rfl hcallee hleft hway hup hlog
    | answered hcaller hcallee hdown hway hup hlog =>
      cases hreceiving.symm.trans hcaller
      have hway := hway.recv hpos hle
      by_cases hrest : s.down.drop n = []
      · rw [hrest] at hway
        simp only [hway.received_frame op] at hs
        obtain rfl := Option.some.inj hs
        exact .ready rfl hcallee hup hrest hlog
      · simp only [hway.received_more op (List.append_ne_nil_of_left_ne_nil hrest _)] at hs
        obtain rfl := Option.some.inj hs
        exact .answered rfl hcallee hrest hway hup hlog
    | ready hcaller hcallee hup hdown => exact absurd hdown hempty
    | asking hcaller hleft hcallee hway hdown => exact absurd hdown hempty
    | asked hcaller hcallee hup hway hdown => exact absurd hdown hempty
    | working hcaller hcallee hup hdown => exact absurd hdown hempty
    | refused hcaller hcallee hup hdown => exact absurd hdown hempty
  · cases hs

end Lockstep

end EasyConnection.Ipc
