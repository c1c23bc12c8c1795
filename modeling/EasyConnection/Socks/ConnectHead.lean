import EasyConnection.Socks.HttpConnect

/-! # What the proxy accepts and what it relays

A request head is a request line, header lines and a blank line. The proxy accepts it however it
arrives, but it relays all that follows only when the head ends where one of its reads does.
-/
namespace EasyConnection.Socks
open Async Codec

/-- A line of text with its line feed. -/
structure Line where
  bytes : List UInt8
  text : String
  terminated : ∃ body, 10 ∉ body ∧ bytes = body ++ [10]
  wellFormed : fromUtf8 bytes = some text

/-- A request head for a target. -/
structure Head (host : String) (port : UInt16) where
  request : Line
  headers : List Line
  blank : Line
  target : requestTarget request.text = .ok (host, port)
  goesOn : ∀ line ∈ headers, endsHead line.text = false ∧ line.text.utf8ByteSize ≤ 8192
  ends : endsHead blank.text = true

def Head.bytes {host : String} {port : UInt16} (head : Head host port) : List UInt8 :=
  head.request.bytes ++ ((head.headers.map Line.bytes).flatten ++ head.blank.bytes)

/-- A later state of a reader, in which it has still to return `rest`. -/
structure Follows (r r' : BufReader) (rest : List UInt8) : Prop where
  pending : r'.pending = rest
  fed : ∀ all, BufReader.Fed all r → BufReader.Fed all r'

theorem Follows.trans {r r' r'' : BufReader} {rest rest' : List UInt8} (h : Follows r r' rest)
    (h' : Follows r' r'' rest') : Follows r r'' rest' :=
  ⟨h'.pending, fun all hall => h'.fed all (h.fed all hall)⟩

theorem readLine_line {r : BufReader} (line : Line) {rest : List UInt8}
    (hr : r.pending = line.bytes ++ rest) :
    ∃ r', readLine r = .ok (line.text, r') ∧ Follows r r' rest := by
  obtain ⟨body, hbody, hbytes⟩ := line.terminated
  rw [hbytes] at hr
  obtain ⟨hline, hrest⟩ := BufReader.readUntil_line hbody hr
  refine ⟨(r.readUntil 10).2, ?_, hrest, fun all hall => hall.readUntil 10⟩
  rw [readLine, hline, ← hbytes, line.wellFormed]

theorem consumeHeaders_lines {headers : List Line} {blank : Line} {r : BufReader}
    {rest : List UInt8}
    (hgo : ∀ line ∈ headers, endsHead line.text = false ∧ line.text.utf8ByteSize ≤ 8192)
    (hends : endsHead blank.text = true)
    (hr : r.pending = (headers.map Line.bytes).flatten ++ blank.bytes ++ rest) :
    ∃ r', consumeHeaders r = .ok r' ∧ Follows r r' rest := by
  induction headers generalizing r with
  | nil =>
    obtain ⟨r', hline, hfollows⟩ := readLine_line blank hr
    refine ⟨r', ?_, hfollows⟩
    rw [consumeHeaders_line hline, if_pos hends]
  | cons line headers ih =>
    obtain ⟨hline, hlen⟩ := hgo line List.mem_cons_self
    obtain ⟨r₁, hread, hfirst⟩ := readLine_line line (by simpa using hr)
    obtain ⟨r', hrest, hfollows⟩ :=
      ih (fun l hl => hgo l (List.mem_cons_of_mem line hl)) (r := r₁) (by simpa using hfirst.pending)
    refine ⟨r', ?_, hfirst.trans hfollows⟩
    rw [consumeHeaders_line hread, if_neg (by simp [hline]), if_neg (by omega), hrest]

section
variable {host : String} {port : UInt16}

/-- A head is read however it arrives. -/
theorem readHead_head (head : Head host port) {r : BufReader} {rest : List UInt8}
    (hr : r.pending = head.bytes ++ rest) :
    ∃ r', readHead r = .ok ((host, port), r') ∧ Follows r r' rest := by
  obtain ⟨r₁, hread, hfirst⟩ := readLine_line head.request (by simpa [Head.bytes] using hr)
  obtain ⟨r', hheaders, hfollows⟩ :=
    consumeHeaders_lines head.goesOn head.ends (by simpa using hfirst.pending)
  refine ⟨r', ?_, hfirst.trans hfollows⟩
  rw [readHead, hread]
  simp only [Except.bind, head.target, hheaders, Except.map]

/-- The bytes behind a request head are all relayed if and only if the head ends where one of the
reads does. -/
theorem connect_relays_rest_iff {client : Client}
    {connect : String → UInt16 → Except SocksError Upstream} {upstream : Upstream}
    (head : Head host port) {rest : List UInt8}
    (hsent : client.segments.flatten = head.bytes ++ rest)
    (hconnect : connect host port = .ok upstream) (hclient : client.refuses = none)
    (hrelay : upstream.fault = none) :
    (handleHttpConnect client connect).toUpstream = some rest ↔
      ∃ k, ((BufReader.ofSegments bufCapacity client.segments).reads.take k).flatten =
        head.bytes := by
  have hpending := BufReader.pending_ofSegments bufCapacity (by decide) client.segments
  obtain ⟨r', hread, hfollows⟩ := readHead_head head (hpending.trans hsent)
  have hfed := hfollows.fed _ (BufReader.fed_ofSegments bufCapacity client.segments)
  have hall : (BufReader.ofSegments bufCapacity client.segments).reads.flatten =
      head.bytes ++ r'.pending := by
    rw [hfollows.pending, ← hsent, ← hpending]
    rfl
  rw [← hfed.intoInner_eq_iff hall, hfollows.pending]
  simp only [handleHttpConnect, hread, hconnect, hclient, relayBoth, hrelay, Option.some.injEq]

end

def sampleHead : Head "example.com" 443 where
  request :=
    { bytes := utf8 "CONNECT example.com:443 HTTP/1.1\r\n"
      text := "CONNECT example.com:443 HTTP/1.1\r\n"
      terminated := ⟨utf8 "CONNECT example.com:443 HTTP/1.1\r", by decide, by decide⟩
      wellFormed := by decide +kernel }
  headers :=
    [{ bytes := utf8 "Host: example.com\r\n"
       text := "Host: example.com\r\n"
       terminated := ⟨utf8 "Host: example.com\r", by decide, by decide⟩
       wellFormed := by decide +kernel }]
  blank :=
    { bytes := utf8 "\r\n"
      text := "\r\n"
      terminated := ⟨utf8 "\r", by decide, by decide⟩
      wellFormed := by decide +kernel }
  target := by decide +kernel
  goesOn := by decide +kernel
  ends := by decide

/-- The first bytes of a TLS record. -/
def clientHello : List UInt8 := [0x16, 0x03, 0x01]

/-- An upstream that answers nothing. -/
def sampleUpstream : Upstream := ⟨[], none⟩

theorem connect_relays_rest_waiting :
    (handleHttpConnect ⟨[sampleHead.bytes, clientHello], none⟩ fun _ _ => .ok sampleUpstream).toUpstream
      = some clientHello :=
  (connect_relays_rest_iff sampleHead (by simp) rfl rfl rfl).2 ⟨1, by decide +kernel⟩

/-- A client that does not wait for the answer to its request loses what it sends. -/
theorem connect_loses_rest :
    (handleHttpConnect ⟨[sampleHead.bytes ++ clientHello], none⟩
      fun _ _ => .ok sampleUpstream).toUpstream = some [] := by
  decide +kernel

end EasyConnection.Socks
