import EasyConnection.Ipc.Frame

/-! # Where frames end

What was sent in frames is received in frames exactly if every frame ends where a `recvmsg`
does. The receiver keeps nothing between two calls, so what it has received of the next frame is
lost; and then the rest is too short for the frames that are still expected.
-/
namespace EasyConnection.Ipc
open Codec

variable {φ : Type}

def Frame.bytes (frame : Frame φ) : List UInt8 := beBytes 4 frame.payload.length ++ frame.payload

/-- The frame on the socket. -/
def Frame.wire (frame : Frame φ) : List (Octet φ) := attach frame.fd frame.bytes

/-- The pieces form groups, one for each frame. -/
def Aligned (frames : List (Frame φ)) (pieces : List (List (Octet φ))) : Prop :=
  ∃ groups : List (List (List (Octet φ))),
    groups.flatten = pieces ∧ groups.map List.flatten = frames.map Frame.wire

variable {op : String} {fd : Option φ}

section Sending

theorem attach_append (fd : Option φ) (b : UInt8) (data rest : List UInt8) :
    attach fd (b :: data) ++ attach none rest = attach fd (b :: (data ++ rest)) := by
  cases rest with
  | nil => simp [attach]
  | cons c rest => simp [attach]

theorem attach_bytes (fd : Option φ) (data : List UInt8) :
    (attach fd data).map Prod.fst = data := by
  cases data with
  | nil => rfl
  | cons b data => simp [attach, Function.comp_def]

theorem attach_descriptor (fd : Option φ) (b : UInt8) (data : List UInt8) :
    descriptor (attach fd (b :: data)) = fd := by
  have hrest : (data.map fun c => ((c, none) : Octet φ)).filterMap Prod.snd = [] := by
    rw [List.filterMap_map]
    exact List.filterMap_eq_nil_iff.2 fun _ _ => rfl
  cases fd <;> simp [attach, descriptor, hrest]

/-- However the kernel takes the bytes, the descriptor goes with the first one. -/
theorem sendLoop_ok {data : List UInt8} {results : List SendResult} {stream : List (Octet φ)}
    (h : sendLoop op data fd results = some (.ok stream)) : stream = attach fd data := by
  induction results generalizing data fd stream with
  | nil =>
    cases data with
    | nil =>
      cases h
      rfl
    | cons b data => cases h
  | cons result results ih =>
    cases data with
    | nil =>
      cases h
      rfl
    | cons b data =>
      cases result with
      | failed message => cases h
      | retry => exact ih h
      | wrote n =>
        cases n with
        | zero => cases h
        | succ n =>
          obtain ⟨r, hr, heq⟩ := Option.map_eq_some_iff.1 h
          cases r with
          | error e => cases heq
          | ok rest =>
            cases heq
            obtain rfl := ih hr
            exact (attach_append fd b (data.take n) (data.drop n)).trans
              (by rw [List.take_append_drop])

theorem sendFrames_ok {sends : List (Frame φ × List SendResult)} {stream : List (Octet φ)}
    (h : sendFrames op sends = some (.ok stream)) :
    stream = (sends.map Prod.fst).flatMap Frame.wire ∧
      ∀ frame ∈ sends.map Prod.fst, frame.payload.length ≤ maxFrame := by
  induction sends generalizing stream with
  | nil =>
    cases h
    exact ⟨rfl, nofun⟩
  | cons send sends ih =>
    obtain ⟨frame, results⟩ := send
    obtain ⟨r, hr, hrest⟩ := Option.bind_eq_some_iff.1 h
    cases r with
    | error e => cases hrest
    | ok bytes =>
      obtain ⟨r', hr', heq⟩ := Option.map_eq_some_iff.1 hrest
      cases r' with
      | error e => cases heq
      | ok rest =>
        cases heq
        obtain ⟨rfl, hsmall⟩ := ih hr'
        unfold sendFrame at hr
        split_ifs at hr with hlen
        · cases hr
        · obtain rfl := sendLoop_ok hr
          refine ⟨rfl, fun f hf => ?_⟩
          rcases List.mem_cons.1 hf with rfl | hf
          · exact Nat.le_of_not_lt hlen
          · exact hsmall f hf

end Sending

section Receiving

def inbox (pieces : List (List (Octet φ))) : Inbox φ := pieces.map fun piece => .ok (recvmsg piece)

theorem descriptor_append (l m : List (Octet φ)) :
    descriptor (l ++ m) = (descriptor l).or (descriptor m) := by
  simp [descriptor, List.filterMap_append, List.head?_append]

/-- `taken` is the shortest part of the pieces that holds `need` bytes. -/
def Fewest (need : ℕ) (taken : List (List (Octet φ))) : Prop :=
  need ≤ taken.flatten.length ∧
    (taken = [] ∨ ∃ early last, taken = early ++ [last] ∧ early.flatten.length < need)

variable {need : ℕ}

theorem fill_enough {closed : ℕ → String} {buf : List UInt8} (hbuf : need ≤ buf.length)
    (results : Inbox φ) : fill op closed need buf fd results = .ok ((buf, fd), results) := by
  cases results <;> simp only [fill, if_pos hbuf]

variable {pieces : List (List (Octet φ))}

/-- Pieces are taken until they are enough. -/
theorem fill_pieces (op : String) (closed : ℕ → String) (need : ℕ) (before : List (List (Octet φ)))
    (hne : ∀ piece ∈ pieces, piece ≠ []) (hneed : need ≤ (before ++ pieces).flatten.length)
    (hbefore : before = [] ∨ ∃ early last, before = early ++ [last] ∧ early.flatten.length < need) :
    ∃ taken rest, before ++ pieces = taken ++ rest ∧ Fewest need taken ∧
      fill op closed need (before.flatten.map Prod.fst) (descriptor before.flatten) (inbox pieces) =
        .ok ((taken.flatten.map Prod.fst, descriptor taken.flatten), inbox rest) := by
  induction pieces generalizing before with
  | nil =>
    rw [List.append_nil] at hneed
    refine ⟨before, [], rfl, ⟨hneed, hbefore⟩, fill_enough ?_ _⟩
    rw [List.length_map]
    exact hneed
  | cons piece pieces ih =>
    by_cases henough : need ≤ before.flatten.length
    · refine ⟨before, piece :: pieces, rfl, ⟨henough, hbefore⟩, fill_enough ?_ _⟩
      rw [List.length_map]
      exact henough
    · have hpiece := hne piece List.mem_cons_self
      have hsplit : before ++ piece :: pieces = (before ++ [piece]) ++ pieces := by simp
      rw [hsplit] at hneed ⊢
      obtain ⟨taken, rest, hall, hfewest, hfill⟩ := ih (before ++ [piece])
        (fun p hp => hne p (List.mem_cons_of_mem _ hp)) hneed
        (.inr ⟨before, piece, rfl, Nat.lt_of_not_le henough⟩)
      refine ⟨taken, rest, hall, hfewest, ?_⟩
      rw [← hfill]
      have hbuf : ¬ need ≤ (before.flatten.map Prod.fst).length := by
        rw [List.length_map]
        exact henough
      have hbytes : (recvmsg piece).bytes ≠ [] := by simpa [recvmsg] using hpiece
      simp only [inbox, List.map_cons, fill, if_neg hbuf, if_neg hbytes, List.flatten_append,
        List.flatten_cons, List.flatten_nil, List.append_nil, List.map_append, descriptor_append]
      rfl

/-- A long enough beginning of the stream begins with the frame. -/
theorem take_bytes {frame : Frame φ} {taken rest : List (List (Octet φ))} {stream : List (Octet φ)}
    (hflat : (taken ++ rest).flatten = frame.wire ++ stream) {n : ℕ}
    (hn : n ≤ taken.flatten.length) (hle : n ≤ frame.bytes.length) :
    (taken.flatten.map Prod.fst).take n = frame.bytes.take n := by
  have hmap := congrArg (fun l => (l.map Prod.fst).take n) hflat
  simp only [List.flatten_append, List.map_append] at hmap
  rw [List.take_append_of_le_length (by rwa [List.length_map])] at hmap
  rw [hmap, Frame.wire, attach_bytes, List.take_append_of_le_length hle]

theorem wire_length (frame : Frame φ) : frame.wire.length = 4 + frame.payload.length := by
  rw [Frame.wire, ← List.length_map (f := Prod.fst), attach_bytes, Frame.bytes, List.length_append,
    beBytes_length]

theorem Frame.wire_descriptor (frame : Frame φ) : descriptor frame.wire = frame.fd := by
  have hpos : 0 < frame.bytes.length := by simp [Frame.bytes]
  cases hbytes : frame.bytes with
  | nil => simp [hbytes] at hpos
  | cons b data => rw [Frame.wire, hbytes, attach_descriptor]

/-- A frame at the front of the stream is received with the fewest pieces that hold it. -/
theorem recvFrame_pieces (op : String) {frame : Frame φ} {stream : List (Octet φ)}
    (hsmall : frame.payload.length ≤ maxFrame) (hne : ∀ piece ∈ pieces, piece ≠ [])
    (hflat : pieces.flatten = frame.wire ++ stream) :
    ∃ taken rest, pieces = taken ++ rest ∧ Fewest frame.wire.length taken ∧
      recvFrame op (inbox pieces) =
        .ok (⟨frame.payload, descriptor taken.flatten⟩, inbox rest) := by
  have hall : frame.wire.length ≤ pieces.flatten.length := by
    rw [hflat, List.length_append]
    exact Nat.le_add_right _ _
  have hlen := wire_length frame
  have hbytes : frame.bytes.length = 4 + frame.payload.length := by
    rw [Frame.bytes, List.length_append, beBytes_length]
  obtain ⟨head, more, hsplit, ⟨hhead, hfew⟩, hfill₁⟩ := fill_pieces op closedEarly 4 [] hne
    (by rw [List.nil_append]; omega) (.inl rfl)
  rw [List.nil_append] at hsplit
  subst hsplit
  have hfew' : head = [] ∨ ∃ early last, head = early ++ [last] ∧
      early.flatten.length < 4 + frame.payload.length := by
    rcases hfew with h | ⟨early, last, heq, hlt⟩
    · exact .inl h
    · exact .inr ⟨early, last, heq, by omega⟩
  have hmore : ∀ piece ∈ more, piece ≠ [] := fun p hp => hne p (List.mem_append_right _ hp)
  obtain ⟨taken, rest, hsplit, hfewest, hfill₂⟩ := fill_pieces op
    (closedMidFrame (4 + frame.payload.length)) (4 + frame.payload.length) head hmore
    (hlen ▸ hall) hfew'
  have hlength : ofBeBytes ((head.flatten.map Prod.fst).take 4) = frame.payload.length := by
    rw [take_bytes hflat hhead (by omega), Frame.bytes, List.take_append_of_le_length (by simp),
      List.take_of_length_le (by simp)]
    exact ofBeBytes_beBytes 4 _ (lt_of_le_of_lt hsmall (by decide))
  have hpayload : ((taken.flatten.map Prod.fst).drop 4).take frame.payload.length =
      frame.payload := by
    rw [List.take_drop, take_bytes (hsplit ▸ hflat) hfewest.1 (by omega),
      List.take_of_length_le (by omega), Frame.bytes, List.drop_append_of_le_length (by simp),
      List.drop_of_length_le (by simp), List.nil_append]
  refine ⟨taken, rest, hsplit, hlen ▸ hfewest, ?_⟩
  have hfirst : fill op closedEarly 4 [] none (inbox (head ++ more)) =
      .ok ((head.flatten.map Prod.fst, descriptor head.flatten), inbox more) := hfill₁
  simp only [recvFrame, hfirst, hlength, if_neg (Nat.not_lt.2 hsmall), hfill₂, hpayload]

theorem flatten_ne_nil {l : List (List (Octet φ))} (hne : ∀ piece ∈ l, piece ≠ []) (hl : l ≠ []) :
    l.flatten ≠ [] := by
  cases l with
  | nil => exact absurd rfl hl
  | cons piece l =>
    rw [List.flatten_cons]
    exact List.append_ne_nil_of_left_ne_nil (hne piece List.mem_cons_self) _

/-- A group that holds exactly what is needed is what the receiver takes. -/
theorem Fewest.unique {taken rest group others : List (List (Octet φ))}
    (hfewest : Fewest need taken) (hgroup : group.flatten.length = need)
    (hne : ∀ piece ∈ group, piece ≠ []) (hsplit : taken ++ rest = group ++ others) :
    taken = group ∧ rest = others := by
  obtain ⟨hneed, hfew⟩ := hfewest
  rcases List.append_eq_append_iff.1 hsplit with ⟨x, rfl, rfl⟩ | ⟨x, rfl, rfl⟩
  · by_cases hx : x = []
    · subst hx
      exact ⟨(List.append_nil taken).symm, rfl⟩
    · have hflat := flatten_ne_nil (fun p hp => hne p (List.mem_append_right _ hp)) hx
      have hpos := List.length_pos_iff.2 hflat
      rw [List.flatten_append, List.length_append] at hgroup
      omega
  · rcases List.eq_nil_or_concat x with rfl | ⟨x', last', rfl⟩
    · exact ⟨List.append_nil group, rfl⟩
    · rcases hfew with hnil | ⟨early, last, heq, hlt⟩
      · simp at hnil
      · rw [List.concat_eq_append, ← List.append_assoc] at heq
        obtain ⟨rfl, _⟩ := List.append_inj' heq rfl
        rw [List.flatten_append, List.length_append] at hlt
        omega

variable {frames : List (Frame φ)}

/-- Frames that end where pieces end are received as they were sent. -/
theorem recvFrames_aligned (op : String)
    (hsmall : ∀ frame ∈ frames, frame.payload.length ≤ maxFrame)
    (hne : ∀ piece ∈ pieces, piece ≠ []) (haligned : Aligned frames pieces) :
    recvFrames op frames.length (inbox pieces) = .ok (frames, []) := by
  obtain ⟨groups, rfl, hgroups⟩ := haligned
  induction groups generalizing frames with
  | nil =>
    obtain rfl := List.map_eq_nil_iff.1 hgroups.symm
    rfl
  | cons group groups ih =>
    cases frames with
    | nil => cases hgroups
    | cons frame frames =>
      obtain ⟨hgroup, hrest⟩ := List.cons.inj hgroups
      have hflat : (group :: groups).flatten.flatten = frame.wire ++ groups.flatten.flatten := by
        rw [← hgroup]
        simp
      obtain ⟨taken, rest, hsplit, hfewest, hrecv⟩ :=
        recvFrame_pieces op (hsmall frame List.mem_cons_self) hne hflat
      obtain ⟨rfl, rfl⟩ := hfewest.unique (congrArg List.length hgroup)
        (fun p hp => hne p (List.mem_append_left _ hp)) hsplit.symm
      have hfd : descriptor taken.flatten = frame.fd := by
        rw [hgroup]
        exact frame.wire_descriptor
      have hframes := ih (fun f hf => hsmall f (List.mem_cons_of_mem _ hf)) hrest
        (fun p hp => hne p (List.mem_append_right _ hp))
      simp only [List.length_cons, recvFrames, hrecv, hframes, Except.map, hfd]

/-- The bytes that the calls of `recvmsg` return. -/
def Inbox.size (results : Inbox φ) : ℕ :=
  (results.map fun r => (r.toOption.elim 0 fun chunk => chunk.bytes.length)).sum

theorem inbox_size (pieces : List (List (Octet φ))) : (inbox pieces).size = pieces.flatten.length := by
  induction pieces with
  | nil => rfl
  | cons piece pieces ih =>
    rw [List.flatten_cons, List.length_append, ← ih]
    simp [inbox, Inbox.size, recvmsg, Except.toOption]

variable {results' results : Inbox φ}

/-- Receiving moves bytes into the buffer and loses none. -/
theorem fill_size {closed : ℕ → String} {buf buf' : List UInt8} {fd' : Option φ}
    (h : fill op closed need buf fd results = .ok ((buf', fd'), results')) :
    need ≤ buf'.length ∧ buf'.length + results'.size = buf.length + results.size := by
  induction results generalizing buf fd with
  | nil =>
    rw [fill] at h
    split_ifs at h with hbuf
    cases h
    exact ⟨hbuf, rfl⟩
  | cons result results ih =>
    simp only [fill] at h
    split_ifs at h with hbuf
    · cases h
      exact ⟨hbuf, rfl⟩
    · cases result with
      | error message => cases h
      | ok chunk =>
        simp only at h
        split_ifs at h with hempty
        obtain ⟨hneed, hsize⟩ := ih h
        refine ⟨hneed, hsize.trans ?_⟩
        simp [Inbox.size, Except.toOption, Nat.add_assoc]

/-- A frame takes at least its own bytes. -/
theorem recvFrame_size {frame : Frame φ} (h : recvFrame op results = .ok (frame, results')) :
    frame.wire.length + results'.size ≤ results.size := by
  unfold recvFrame at h
  split at h
  · cases h
  · next buf fd results₁ hfill₁ =>
    dsimp only at h
    split_ifs at h with hlen
    split at h
    · cases h
    · next buf' fd' results₂ hfill₂ =>
      cases h
      obtain ⟨_, hsize₁⟩ := fill_size hfill₁
      obtain ⟨hneed, hsize₂⟩ := fill_size hfill₂
      have hpayload := List.length_take_of_le
        (i := ofBeBytes (buf.take 4)) (l := buf'.drop 4) (by rw [List.length_drop]; omega)
      rw [wire_length]
      rw [List.length_nil] at hsize₁
      dsimp only
      omega

theorem recvFrames_size {n : ℕ} (h : recvFrames op n results = .ok (frames, results')) :
    (frames.flatMap Frame.wire).length + results'.size ≤ results.size := by
  induction n generalizing results frames with
  | zero =>
    cases h
    simp
  | succ n ih =>
    simp only [recvFrames] at h
    split at h
    · cases h
    · next frame results₁ hrecv =>
      cases hrest : recvFrames op n results₁ with
      | error e =>
        rw [hrest] at h
        cases h
      | ok p =>
        obtain ⟨rest, last⟩ := p
        rw [hrest] at h
        cases h
        have hfirst := recvFrame_size hrecv
        have hothers : (rest.flatMap Frame.wire).length + last.size ≤ results₁.size := ih hrest
        rw [List.flatMap_cons, List.length_append]
        dsimp only
        omega

/-- Frames that are received as they were sent end where pieces end: a call that took more than
its frame would leave too little for the others. -/
theorem aligned_of_recvFrames (op : String)
    (hsmall : ∀ frame ∈ frames, frame.payload.length ≤ maxFrame)
    (hne : ∀ piece ∈ pieces, piece ≠ []) (hflat : pieces.flatten = frames.flatMap Frame.wire)
    (h : recvFrames op frames.length (inbox pieces) = .ok (frames, [])) :
    Aligned frames pieces := by
  induction frames generalizing pieces with
  | nil =>
    have hpieces : pieces = [] := by
      by_contra hne'
      exact flatten_ne_nil hne hne' hflat
    exact ⟨[], hpieces.symm, rfl⟩
  | cons frame frames ih =>
    rw [List.flatMap_cons] at hflat
    obtain ⟨taken, rest, rfl, ⟨hneed, _⟩, hrecv⟩ :=
      recvFrame_pieces op (hsmall frame List.mem_cons_self) hne hflat
    simp only [List.length_cons, recvFrames, hrecv] at h
    cases hrest : recvFrames op frames.length (inbox rest) with
    | error e =>
      rw [hrest] at h
      cases h
    | ok p =>
      obtain ⟨others, last⟩ := p
      rw [hrest] at h
      obtain ⟨hframes, hlast⟩ := Prod.mk.inj (Except.ok.inj h)
      obtain rfl : others = frames := (List.cons.inj hframes).2
      obtain rfl : last = [] := hlast
      have hsize := recvFrames_size hrest
      rw [inbox_size] at hsize
      have hlength := congrArg List.length hflat
      rw [List.flatten_append, List.length_append, List.length_append] at hlength
      rw [List.flatten_append] at hflat
      obtain ⟨htaken, hothers⟩ := List.append_inj hflat (by omega)
      obtain ⟨groups, rfl, hgroups⟩ := ih (fun f hf => hsmall f (List.mem_cons_of_mem _ hf))
        (fun p hp => hne p (List.mem_append_right _ hp)) hothers hrest
      exact ⟨taken :: groups, rfl, by rw [List.map_cons, List.map_cons, htaken, hgroups]⟩

end Receiving

/-- Whatever frames successive calls have sent, and however the kernel cuts the stream, the same
number of calls returns them with their descriptors and leaves nothing, exactly if every frame
ends where a `recvmsg` result ends. -/
theorem recvFrames_iff (op op' : String) {sends : List (Frame φ × List SendResult)}
    {stream : List (Octet φ)} (hsent : sendFrames op sends = some (.ok stream))
    {pieces : List (List (Octet φ))} (hflat : pieces.flatten = stream)
    (hsize : ∀ piece ∈ pieces, 1 ≤ piece.length ∧ piece.length ≤ recvCapacity) :
    recvFrames op' sends.length (pieces.map fun piece => .ok (recvmsg piece)) =
      .ok (sends.map Prod.fst, []) ↔ Aligned (sends.map Prod.fst) pieces := by
  obtain ⟨rfl, hsmall⟩ := sendFrames_ok hsent
  have hne (piece : List (Octet φ)) (hp : piece ∈ pieces) : piece ≠ [] :=
    List.length_pos_iff.1 (hsize piece hp).1
  have hlength : sends.length = (sends.map Prod.fst).length := (List.length_map _).symm
  rw [hlength]
  exact ⟨aligned_of_recvFrames op' hsmall hne hflat, recvFrames_aligned op' hsmall hne⟩

/-- Two frames, the first with a descriptor and in two parts. -/
def twoSends : List (Frame ℕ × List SendResult) :=
  [(⟨[1], some 7⟩, [.wrote 2, .retry, .wrote 3]), (⟨[2, 3], none⟩, [.wrote 6])]

def twoFrames : List (Octet ℕ) :=
  [(0, some 7), (0, none), (0, none), (1, none), (1, none),
    (0, none), (0, none), (0, none), (2, none), (2, none), (3, none)]

theorem twoSends_ok : sendFrames "send" twoSends = some (.ok twoFrames) := by decide

/-- No piece holds bytes of both frames. -/
theorem recvFrames_apart :
    recvFrames "recv" 2 ([⟨[0, 0], some 7⟩, ⟨[0, 1, 1], none⟩, ⟨[0, 0, 0, 2, 2, 3], none⟩].map .ok) =
      .ok ([⟨[1], some 7⟩, ⟨[2, 3], none⟩], []) := by
  have hflat : [twoFrames.take 2, (twoFrames.drop 2).take 3, twoFrames.drop 5].flatten = twoFrames := by
    decide
  refine (recvFrames_iff "send" "recv" twoSends_ok hflat (by decide)).2 ?_
  exact ⟨[[twoFrames.take 2, (twoFrames.drop 2).take 3], [twoFrames.drop 5]], rfl, by decide⟩

/-- Two frames without descriptors that arrive in one piece: the second call finds the socket
empty. -/
theorem recvFrames_coalesced :
    sendFrames "send" [(⟨[1], none⟩, [.wrote 5]), (⟨[2, 3], none⟩, [.wrote 6])] =
        some (.ok (attach (none : Option ℕ) [0, 0, 0, 1, 1, 0, 0, 0, 2, 2, 3])) ∧
      recvFrames "recv" 2 [.ok (recvmsg (attach (none : Option ℕ) [0, 0, 0, 1, 1, 0, 0, 0, 2, 2, 3]))] =
        .error (.io "recv" "helper socket closed") := by
  decide

end EasyConnection.Ipc
