import EasyConnection.Codec.Bytes

/-! # DNS over one TCP stream

Each message on the stream has its length in front of it. The server answers the messages of a
stream in the order in which they were written, each with one message. An exchange writes a query
and reads one answer, some bytes at a time, so it reads the answer to its own query if all that
was asked before has been read.
-/
namespace EasyConnection.Dns
open Codec

section Framing

def frame (message : List UInt8) : List UInt8 := beBytes 2 message.length ++ message

/-- Where a reader of messages is. -/
inductive Reading where
  | high
  | low (high : UInt8)
  | body (left : ℕ) (got : List UInt8)

def messagesFrom : Reading → List UInt8 → List (List UInt8)
  | _, [] => []
  | .high, b :: s => messagesFrom (.low b) s
  | .low high, b :: s =>
    match ofBeBytes [high, b] with
    | 0 => [] :: messagesFrom .high s
    | n + 1 => messagesFrom (.body n []) s
  | .body 0 got, b :: s => (got ++ [b]) :: messagesFrom .high s
  | .body (n + 1) got, b :: s => messagesFrom (.body n (got ++ [b])) s

/-- The messages that have been written to a stream as a whole. -/
def messages (sent : List UInt8) : List (List UInt8) := messagesFrom .high sent

theorem frame_length (message : List UInt8) : (frame message).length = 2 + message.length := by
  rw [frame, List.length_append, beBytes_length]

theorem messagesFrom_body {n : ℕ} {message : List UInt8} (h : message.length = n + 1)
    (got rest : List UInt8) :
    messagesFrom (.body n got) (message ++ rest) = (got ++ message) :: messagesFrom .high rest := by
  induction n generalizing message got with
  | zero =>
    obtain ⟨b, rfl⟩ := List.length_eq_one_iff.1 h
    rfl
  | succ n ih =>
    cases message with
    | nil => cases h
    | cons b message =>
      rw [List.cons_append, messagesFrom, ih (Nat.succ.inj h), List.append_assoc,
        List.singleton_append]

theorem messagesFrom_frame {message : List UInt8} (h : message.length < 65536) (rest : List UInt8) :
    messagesFrom .high (frame message ++ rest) = message :: messagesFrom .high rest := by
  obtain ⟨a, b, hbytes⟩ := List.length_eq_two.1 (beBytes_length 2 message.length)
  have hlength : ofBeBytes [a, b] = message.length := by
    rw [← hbytes, ofBeBytes_beBytes 2 _ h]
  rw [frame, hbytes, List.append_assoc, List.cons_append, List.cons_append, List.nil_append,
    messagesFrom, messagesFrom, hlength]
  cases hn : message.length with
  | zero =>
    obtain rfl := List.length_eq_zero_iff.1 hn
    rfl
  | succ n => exact messagesFrom_body hn [] rest

theorem messages_frames {queries : List (List UInt8)} (h : ∀ q ∈ queries, q.length < 65536) :
    messages (queries.flatMap frame) = queries := by
  induction queries with
  | nil => rfl
  | cons q queries ih =>
    rw [List.forall_mem_cons] at h
    rw [messages, List.flatMap_cons, messagesFrom_frame h.1]
    exact congrArg _ (ih h.2)

end Framing

section Exchange

/-- What the server on one stream answers to its messages. -/
structure Server where
  reply : ℕ → List UInt8
  fits : ∀ k, (reply k).length < 65536

/-- The answers to so many messages. -/
def Server.output (server : Server) (n : ℕ) : List UInt8 :=
  (List.range n).flatMap fun k => frame (server.reply k)

/-- A stream: the bytes that have been written, how many have been read, and which exchanges have
written its messages. -/
structure DnsStream (ι : Type) where
  server : Server
  sent : List UInt8
  taken : ℕ
  writers : List ι

/-- What an exchange is at: the bytes it has still to write, or those it has read of the length or
of the answer. -/
inductive Stage where
  | writing (left : List UInt8)
  | header (got : List UInt8)
  | body (size : ℕ) (got : List UInt8)
  deriving DecidableEq

inductive Progress (ι : Type) where
  | going (stage : Stage) (stream : DnsStream ι)
  | done (response : List UInt8) (stream : DnsStream ι)
  | failed

def Stage.start (query : List UInt8) : Option Stage :=
  if query = [] ∨ 65535 < query.length then none else some (.writing (frame query))

namespace DnsStream
variable {ι : Type}

def opened (server : Server) : DnsStream ι := ⟨server, [], 0, []⟩

/-- The bytes that have been sent by the server and not been read. -/
def available (s : DnsStream ι) : List UInt8 :=
  (s.server.output (messages s.sent).length).drop s.taken

/-- The exchange of `i` comes to write or read `n` more bytes. -/
def advance (i : ι) (n : ℕ) (s : DnsStream ι) : Stage → Option (Progress ι)
  | .writing left =>
    if n = left.length then
      some (.going (.header []) { s with sent := s.sent ++ left, writers := s.writers ++ [i] })
    else if 0 < n ∧ n < left.length then
      some (.going (.writing (left.drop n)) { s with sent := s.sent ++ left.take n })
    else none
  | .header got =>
    if 0 < n ∧ got.length + n ≤ 2 ∧ n ≤ s.available.length then
      let got := got ++ s.available.take n
      let s := { s with taken := s.taken + n }
      if got.length < 2 then some (.going (.header got) s)
      else if ofBeBytes got = 0 then some .failed
      else some (.going (.body (ofBeBytes got) []) s)
    else none
  | .body size got =>
    if 0 < n ∧ got.length + n ≤ size ∧ n ≤ s.available.length then
      let got := got ++ s.available.take n
      let s := { s with taken := s.taken + n }
      if got.length < size then some (.going (.body size got) s) else some (.done got s)
    else none

/-- The response is what the server has answered to the query of `i`. -/
def Answered (s : DnsStream ι) (i : ι) (query response : List UInt8) : Prop :=
  ∃ k, s.writers[k]? = some i ∧ (messages s.sent)[k]? = some query ∧ s.server.reply k = response

end DnsStream

end Exchange

section Pairing
variable {ι : Type} {i : ι} {n : ℕ} {s : DnsStream ι} {query : List UInt8}
  {queries : List (List UInt8)} {stage : Stage} {read : ℕ}

/-- All that was asked has been answered, and the answers have been read. -/
structure Settled (s : DnsStream ι) (queries : List (List UInt8)) : Prop where
  sent : s.sent = queries.flatMap frame
  fits : ∀ q ∈ queries, q.length < 65536
  writers : s.writers.length = queries.length
  taken : s.taken = (s.server.output queries.length).length

/-- The query of `i` is the last message, and so many bytes of its answer have been read. -/
structure Asked (i : ι) (query : List UInt8) (queries : List (List UInt8)) (read : ℕ)
    (s : DnsStream ι) : Prop where
  sent : s.sent = (queries ++ [query]).flatMap frame
  fits : ∀ q ∈ queries ++ [query], q.length < 65536
  writers : ∃ earlier, s.writers = earlier ++ [i] ∧ earlier.length = queries.length
  taken : s.taken = (s.server.output queries.length).length + read

/-- The exchange of `i` is under way on a stream that was settled. -/
def Mid (i : ι) (query : List UInt8) (queries : List (List UInt8)) (s : DnsStream ι) : Stage → Prop
  | .writing left => ∃ written, written ++ left = frame query ∧ query.length < 65536 ∧
      s.sent = queries.flatMap frame ++ written ∧ (∀ q ∈ queries, q.length < 65536) ∧
      s.writers.length = queries.length ∧ s.taken = (s.server.output queries.length).length
  | .header got => Asked i query queries got.length s ∧ got.length < 2 ∧
      got = (frame (s.server.reply queries.length)).take got.length
  | .body size got => Asked i query queries (2 + got.length) s ∧ got.length < size ∧
      size = (s.server.reply queries.length).length ∧
      got = (s.server.reply queries.length).take got.length

def Progress.Fine (i : ι) (query : List UInt8) (queries : List (List UInt8)) : Progress ι → Prop
  | .going stage s => Mid i query queries s stage
  | .done response s => Settled s (queries ++ [query]) ∧ s.Answered i query response
  | .failed => True

theorem settled_opened (server : Server) : Settled (.opened server : DnsStream ι) [] :=
  ⟨rfl, by simp, rfl, rfl⟩

theorem output_succ (server : Server) (n : ℕ) :
    server.output (n + 1) = server.output n ++ frame (server.reply n) := by
  rw [Server.output, List.range_succ, List.flatMap_append, List.flatMap_singleton]
  rfl

theorem Settled.start (h : Settled s queries) (hstart : Stage.start query = some stage) (i : ι) :
    Mid i query queries s stage := by
  unfold Stage.start at hstart
  split_ifs at hstart with hquery
  obtain rfl := Option.some.inj hstart
  rw [not_or] at hquery
  exact ⟨[], rfl, by omega, by rw [h.sent, List.append_nil], h.fits, h.writers, h.taken⟩

theorem Asked.available_eq (h : Asked i query queries read s) :
    s.available = (frame (s.server.reply queries.length)).drop read := by
  rw [DnsStream.available, h.sent, messages_frames h.fits, List.length_append, List.length_singleton,
    output_succ, h.taken, List.drop_append, Nat.add_sub_cancel_left,
    List.drop_of_length_le (Nat.le_add_right ..), List.nil_append]

theorem Asked.take (h : Asked i query queries read s) (n : ℕ) :
    Asked i query queries (read + n) { s with taken := s.taken + n } :=
  ⟨h.sent, h.fits, h.writers, by rw [h.taken, Nat.add_assoc]⟩

theorem Asked.settled (h : Asked i query queries (2 + (s.server.reply queries.length).length) s) :
    Settled s (queries ++ [query]) := by
  obtain ⟨earlier, hwriters, hlength⟩ := h.writers
  refine ⟨h.sent, h.fits, ?_, ?_⟩
  · rw [hwriters, List.length_append, List.length_append, hlength]
    rfl
  · rw [h.taken, List.length_append, List.length_singleton, output_succ, List.length_append,
      frame_length]

theorem Asked.answered (h : Asked i query queries read s) :
    s.Answered i query (s.server.reply queries.length) := by
  obtain ⟨earlier, hwriters, hlength⟩ := h.writers
  refine ⟨queries.length, ?_, ?_, rfl⟩
  · rw [hwriters, ← hlength, List.getElem?_concat_length]
  · rw [h.sent, messages_frames h.fits, List.getElem?_concat_length]

theorem Mid.write {left : List UInt8} {p : Progress ι} (h : Mid i query queries s (.writing left))
    (hadvance : s.advance i n (.writing left) = some p) : p.Fine i query queries := by
  obtain ⟨written, hframe, hquery, hsent, hfits, hwriters, htaken⟩ := h
  rw [DnsStream.advance] at hadvance
  split_ifs at hadvance with hall hpart
  · obtain rfl := Option.some.inj hadvance
    refine ⟨⟨?_, ?_, ⟨s.writers, rfl, hwriters⟩, htaken⟩, by decide, rfl⟩
    · rw [hsent, List.append_assoc, hframe, List.flatMap_append, List.flatMap_singleton]
    · rw [List.forall_mem_append, List.forall_mem_singleton]
      exact ⟨hfits, hquery⟩
  · obtain rfl := Option.some.inj hadvance
    refine ⟨written ++ left.take n, ?_, hquery, ?_, hfits, hwriters, htaken⟩
    · rw [List.append_assoc, List.take_append_drop, hframe]
    · rw [hsent, List.append_assoc]

theorem Mid.readHeader {got : List UInt8} {p : Progress ι} (h : Mid i query queries s (.header got))
    (hadvance : s.advance i n (.header got) = some p) : p.Fine i query queries := by
  obtain ⟨hasked, hshort, hgot⟩ := h
  rw [DnsStream.advance, hasked.available_eq] at hadvance
  split_ifs at hadvance with hcond
  obtain ⟨hpos, hle, -⟩ := hcond
  have hmore : got ++ ((frame (s.server.reply queries.length)).drop got.length).take n =
      (frame (s.server.reply queries.length)).take (got.length + n) := by
    rw [List.take_add, ← hgot]
  have hlength : ((frame (s.server.reply queries.length)).take (got.length + n)).length =
      got.length + n := by
    rw [List.length_take, frame_length]
    omega
  dsimp only at hadvance
  rw [hmore] at hadvance
  rw [hlength] at hadvance
  split_ifs at hadvance with hpart hempty
  · obtain rfl := Option.some.inj hadvance
    refine ⟨?_, hlength.trans_lt hpart, by rw [hlength]⟩
    rw [hlength]
    exact hasked.take n
  · obtain rfl := Option.some.inj hadvance
    trivial
  · obtain rfl := Option.some.inj hadvance
    have htwo : got.length + n = 2 := by omega
    have hsize : ofBeBytes ((frame (s.server.reply queries.length)).take (got.length + n)) =
        (s.server.reply queries.length).length := by
      rw [htwo, frame, List.take_left' (beBytes_length 2 _), ofBeBytes_beBytes 2 _ (s.server.fits _)]
    refine ⟨?_, ?_, hsize, rfl⟩
    · have htake := hasked.take n
      rwa [htwo] at htake
    · exact Nat.pos_of_ne_zero hempty

theorem Mid.readBody {size : ℕ} {got : List UInt8} {p : Progress ι}
    (h : Mid i query queries s (.body size got))
    (hadvance : s.advance i n (.body size got) = some p) : p.Fine i query queries := by
  obtain ⟨hasked, hshort, rfl, hgot⟩ := h
  rw [DnsStream.advance, hasked.available_eq] at hadvance
  split_ifs at hadvance with hcond
  obtain ⟨hpos, hle, -⟩ := hcond
  have hdrop : (frame (s.server.reply queries.length)).drop (2 + got.length) =
      (s.server.reply queries.length).drop got.length := by
    rw [frame, ← List.drop_drop, List.drop_left' (beBytes_length 2 _)]
  have hmore : got ++ ((s.server.reply queries.length).drop got.length).take n =
      (s.server.reply queries.length).take (got.length + n) := by
    rw [List.take_add, ← hgot]
  have hlength : ((s.server.reply queries.length).take (got.length + n)).length = got.length + n := by
    rw [List.length_take]
    omega
  have htake := hasked.take n
  rw [Nat.add_assoc] at htake
  dsimp only at hadvance
  rw [hdrop, hmore, hlength] at hadvance
  split_ifs at hadvance with hpart
  · obtain rfl := Option.some.inj hadvance
    refine ⟨?_, hlength.trans_lt hpart, rfl, by rw [hlength]⟩
    rw [hlength]
    exact htake
  · obtain rfl := Option.some.inj hadvance
    have hall : got.length + n = (s.server.reply queries.length).length := by omega
    rw [hall] at htake
    rw [hall, List.take_length]
    exact ⟨htake.settled, htake.answered⟩

theorem Mid.advance {p : Progress ι} (h : Mid i query queries s stage)
    (hadvance : s.advance i n stage = some p) : p.Fine i query queries := by
  cases stage with
  | writing left => exact h.write hadvance
  | header got => exact h.readHeader hadvance
  | body size got => exact h.readBody hadvance

end Pairing

end EasyConnection.Dns
