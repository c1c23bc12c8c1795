import EasyConnection.Codec.Fallible
import EasyConnection.Codec.Search
import EasyConnection.Codec.Sha1
import EasyConnection.Codec.Str
import EasyConnection.WebSocket.Base64
import EasyConnection.WebSocket.Frame

/-! # The answer to a request for an upgrade

The two clients read the head of the answer byte by byte and look for the same fields. The
WebSocket client looks at the first field of a name only, the HTTP Upgrade client at all of them.
The value that the WebSocket server proves itself with is compared without regard to case, though
its letters are not those of a word.
-/
namespace EasyConnection.WebSocket
open Codec

section Head

def headEnd : List UInt8 := [13, 10, 13, 10]

def maxHead : ℕ := 8192

/-- The head and what follows it, with room for so many further bytes. -/
def readHead (tooLarge : String) : (room : ℕ) → (buf stream : List UInt8) →
    Except WsError (List UInt8 × List UInt8)
  | 0, _, _ => .error (.handshake tooLarge)
  | _ + 1, _, [] => .error .io
  | room + 1, buf, b :: stream =>
    if headEnd.isSuffixOf (buf ++ [b]) then .ok (buf ++ [b], stream)
    else readHead tooLarge room (buf ++ [b]) stream

def readHeaders (tooLarge : String) (stream : List UInt8) :
    Except WsError (String × List UInt8) := do
  let (head, rest) ← readHead tooLarge maxHead [] stream
  return (fromUtf8Lossy head, rest)

/-- The stream begins with a head that ends with the first empty line, and goes on with `rest`. -/
def HeadOf (stream head rest : List UInt8) : Prop :=
  ∃ i, position headEnd stream = some i ∧ i + headEnd.length ≤ maxHead ∧
    head = stream.take (i + headEnd.length) ∧ rest = stream.drop (i + headEnd.length)

theorem HeadOf.unique {stream head head' rest rest' : List UInt8} (h : HeadOf stream head rest)
    (h' : HeadOf stream head' rest') : head = head' ∧ rest = rest' := by
  obtain ⟨i, hi, -, rfl, rfl⟩ := h
  obtain ⟨j, hj, -, rfl, rfl⟩ := h'
  obtain rfl := Option.some.inj (hi.symm.trans hj)
  exact ⟨rfl, rfl⟩

end Head

section Fields

/-- The value of the first field of a name. -/
def headerValue (headers name : String) : Option (List Char) :=
  ((lines headers.toList).findSome? (fieldValue name)).map trim

/-- The token is an item of a list with commas. -/
def listed (token : String) (value : List Char) : Bool :=
  (value.splitOn ',').any fun part => eqIgnoreAsciiCase (trim part) token.toList

def headerHasToken (headers name token : String) : Bool :=
  (headerValue headers name).any (listed token)

/-- Any field of the name may have the token here. -/
def HttpUpgrade.headerHasToken (headers name token : String) : Bool :=
  (lines headers.toList).any fun line => (fieldValue name line).any (listed token)

end Fields

section Clients

def statusLine (headers : String) : Option (List Char) := (lines headers.toList).head?

def switches (headers : String) : Bool :=
  (splitWhitespace ((statusLine headers).getD []))[1]? == some "101".toList

/-- The checks that both clients make, by their own reading of a field. -/
def checkUpgrade (client : String) (hasToken : String → String → String → Bool) (headers : String) :
    Except WsError Unit :=
  if !switches headers then
    .error (.handshake (client ++ " expected 101, got " ++
      String.ofList ((statusLine headers).getD "empty".toList)))
  else if !hasToken headers "upgrade" "websocket" || !hasToken headers "connection" "upgrade" then
    .error (.handshake (client ++ " response is missing required Upgrade headers"))
  else .ok ()

def guid : String := "258EAFA5-E914-47DA-95CA-C5AB0DC85B11"

def httpUpgrade (stream : List UInt8) : Except WsError (List UInt8) := do
  let (headers, rest) ← readHeaders "HTTP response headers too large" stream
  checkUpgrade "HTTP Upgrade" HttpUpgrade.headerHasToken headers
  return rest

end Clients

section Hidden
variable {headers name token : String}

/-- The first field of a name, with its value. -/
def FirstField (headers name : String) (value : List Char) : Prop :=
  ∃ before line after raw, lines headers.toList = before ++ line :: after ∧
    (∀ earlier ∈ before, fieldValue name earlier = none) ∧ fieldValue name line = some raw ∧
    value = trim raw

theorem headerValue_eq_some_iff {value : List Char} :
    headerValue headers name = some value ↔ FirstField headers name value := by
  rw [headerValue, Option.map_eq_some_iff]
  constructor
  · rintro ⟨raw, hraw, rfl⟩
    obtain ⟨before, line, after, hlines, hline, hbefore⟩ := List.findSome?_eq_some_iff.1 hraw
    exact ⟨before, line, after, raw, hlines, hbefore, hline, rfl⟩
  · rintro ⟨before, line, after, raw, hlines, hbefore, hline, rfl⟩
    exact ⟨raw, List.findSome?_eq_some_iff.2 ⟨before, line, after, hlines, hline, hbefore⟩, rfl⟩

theorem FirstField.unique {value value' : List Char} (h : FirstField headers name value)
    (h' : FirstField headers name value') : value = value' :=
  Option.some.inj ((headerValue_eq_some_iff.2 h).symm.trans (headerValue_eq_some_iff.2 h'))

theorem headerHasToken_iff : headerHasToken headers name token = true ↔
    ∃ value, FirstField headers name value ∧ listed token value = true := by
  rw [headerHasToken, Option.any_eq_true]
  simp only [headerValue_eq_some_iff]

theorem listed_trim (value : List Char) : listed token (trim value) = listed token value := by
  have hany : ∀ v : List Char, listed token v =
      ((v.splitOn ',').map trim).any fun part => eqIgnoreAsciiCase part token.toList := by
    intro v
    rw [listed, List.any_map]
    rfl
  rw [hany, hany, map_trim_splitOn_trim (by decide)]

/-- A field of the name other than the first has the token, and the first has it not. -/
def Hidden (headers name token : String) : Prop :=
  ∃ before line after value, lines headers.toList = before ++ line :: after ∧
    (∀ earlier ∈ before, fieldValue name earlier = none) ∧ fieldValue name line = some value ∧
    listed token value = false ∧
    ∃ later ∈ after, ∃ v, fieldValue name later = some v ∧ listed token v = true

theorem anyField_iff : HttpUpgrade.headerHasToken headers name token = true ↔
    ∃ line ∈ lines headers.toList, ∃ v, fieldValue name line = some v ∧ listed token v = true := by
  simp only [HttpUpgrade.headerHasToken, List.any_eq_true, Option.any_eq_true]

theorem anyField_of_firstField (h : headerHasToken headers name token = true) :
    HttpUpgrade.headerHasToken headers name token = true := by
  obtain ⟨value, ⟨before, line, after, raw, hlines, -, hraw, rfl⟩, hlisted⟩ := headerHasToken_iff.1 h
  rw [listed_trim] at hlisted
  have hmem : line ∈ lines headers.toList := by
    rw [hlines]
    exact List.mem_append_right _ List.mem_cons_self
  exact anyField_iff.2 ⟨line, hmem, raw, hraw, hlisted⟩

/-- The clients differ on a field exactly if its token is hidden. -/
theorem hidden_iff : Hidden headers name token ↔
    headerHasToken headers name token = false ∧
      HttpUpgrade.headerHasToken headers name token = true := by
  rw [← Bool.not_eq_true, headerHasToken_iff, anyField_iff]
  constructor
  · rintro ⟨before, line, after, raw, hlines, hbefore, hraw, hnot, later, hlater, v, hv, hlisted⟩
    constructor
    · rintro ⟨value, hfield, htrue⟩
      obtain rfl := hfield.unique ⟨before, line, after, raw, hlines, hbefore, hraw, rfl⟩
      rw [listed_trim, hnot] at htrue
      cases htrue
    · have hmem : later ∈ lines headers.toList := by
        rw [hlines]
        exact List.mem_append_right _ (List.mem_cons_of_mem _ hlater)
      exact ⟨later, hmem, v, hv, hlisted⟩
  · rintro ⟨hnot, later, hmem, v, hv, hlisted⟩
    -- the first field of the name, which is not the one that has the token
    have hsome : ((lines headers.toList).findSome? (fieldValue name)).isSome := by
      rw [List.findSome?_isSome_iff]
      exact ⟨later, hmem, hv ▸ rfl⟩
    obtain ⟨raw, hraw⟩ := Option.isSome_iff_exists.1 hsome
    obtain ⟨before, line, after, hlines, hline, hbefore⟩ := List.findSome?_eq_some_iff.1 hraw
    have hfalse : listed token raw = false := by
      rw [← Bool.not_eq_true, ← listed_trim]
      exact fun htrue => hnot ⟨_, ⟨before, line, after, raw, hlines, hbefore, hline, rfl⟩, htrue⟩
    refine ⟨before, line, after, raw, hlines, hbefore, hline, hfalse, later, ?_, v, hv, hlisted⟩
    rw [hlines, List.mem_append, List.mem_cons] at hmem
    rcases hmem with hearlier | rfl | hlater
    · rw [hbefore later hearlier] at hv
      cases hv
    · rw [Option.some.inj (hline.symm.trans hv), hlisted] at hfalse
      cases hfalse
    · exact hlater

end Hidden

section Acceptance
variable {headers name token : String}

/-- A field of the name has the token in its list. -/
def HasToken (headers name token : String) : Prop :=
  ∃ line ∈ lines headers.toList, ∃ value, fieldValue name line = some value ∧
    listed token value = true

/-- The status and the fields of an answer to the request for an upgrade. -/
structure Upgraded (headers : String) : Prop where
  status : (splitWhitespace ((statusLine headers).getD []))[1]? = some "101".toList
  upgrade : HasToken headers "upgrade" "websocket"
  connection : HasToken headers "connection" "upgrade"

/-- The Base64 by which the server shows that it has read the key. -/
def proof (keyRaw : List UInt8) : List Char :=
  Base64.pad (Base64.encode Base64.standard
    (Sha1.digest ((base64Encode keyRaw).toUTF8.data.toList ++ guid.toUTF8.data.toList)))

/-- An answer that a client with this key is to accept, and what follows it. -/
def Agreed (keyRaw stream rest : List UInt8) : Prop :=
  ∃ head, HeadOf stream head rest ∧ Upgraded (fromUtf8Lossy head) ∧
    FirstField (fromUtf8Lossy head) "sec-websocket-accept" (proof keyRaw)

theorem checkUpgrade_eq_ok_iff {client : String} {hasToken : String → String → String → Bool} :
    checkUpgrade client hasToken headers = .ok () ↔
      switches headers = true ∧ hasToken headers "upgrade" "websocket" = true ∧
        hasToken headers "connection" "upgrade" = true := by
  unfold checkUpgrade
  cases switches headers with
  | false => exact iff_of_false (fun h => by cases h) fun h => by cases h.1
  | true =>
    cases hasToken headers "upgrade" "websocket" with
    | false => exact iff_of_false (fun h => by cases h) fun h => by cases h.2.1
    | true =>
      cases hasToken headers "connection" "upgrade" with
      | false => exact iff_of_false (fun h => by cases h) fun h => by cases h.2.2
      | true => exact iff_of_true rfl ⟨rfl, rfl, rfl⟩

end Acceptance

section Alike
variable {headers name token : String}

/-- The clients read a field alike unless its token is hidden, and accept the same answers unless
one of the two tokens is hidden in an answer that the HTTP Upgrade client accepts. -/
theorem upgrade_clients_agree_iff (headers name token : String) :
    (headerHasToken headers name token = HttpUpgrade.headerHasToken headers name token ↔
      ¬ Hidden headers name token) ∧
    ((checkUpgrade "WebSocket" headerHasToken headers = .ok () ↔
        checkUpgrade "HTTP Upgrade" HttpUpgrade.headerHasToken headers = .ok ()) ↔
      ¬ (checkUpgrade "HTTP Upgrade" HttpUpgrade.headerHasToken headers = .ok () ∧
        (Hidden headers "upgrade" "websocket" ∨ Hidden headers "connection" "upgrade"))) := by
  constructor
  · rw [hidden_iff]
    cases hfirst : headerHasToken headers name token with
    | true => simp [anyField_of_firstField hfirst]
    | false => simp
  · rw [hidden_iff, hidden_iff, checkUpgrade_eq_ok_iff, checkUpgrade_eq_ok_iff]
    constructor
    · rintro h ⟨haccepts, hhidden⟩
      obtain ⟨-, hupgrade, hconnection⟩ := h.2 haccepts
      rcases hhidden with ⟨hnot, -⟩ | ⟨hnot, -⟩
      · rw [hnot] at hupgrade
        cases hupgrade
      · rw [hnot] at hconnection
        cases hconnection
    · intro h
      constructor
      · rintro ⟨hstatus, hupgrade, hconnection⟩
        exact ⟨hstatus, anyField_of_firstField hupgrade,
          anyField_of_firstField hconnection⟩
      · intro haccepts
        obtain ⟨hupgrade, hconnection⟩ := not_or.1 (not_and.1 h haccepts)
        obtain ⟨hstatus, hupgrade', hconnection'⟩ := haccepts
        refine ⟨hstatus, ?_, ?_⟩
        · rw [← Bool.not_eq_false]
          exact fun hnot => hupgrade ⟨hnot, hupgrade'⟩
        · rw [← Bool.not_eq_false]
          exact fun hnot => hconnection ⟨hnot, hconnection'⟩

def twoConnectionFields : String :=
  "HTTP/1.1 101 Switching Protocols\r\nUpgrade: websocket\r\nConnection: keep-alive\r\n" ++
    "Connection: Upgrade\r\n\r\n"

theorem second_field_read_by_one :
    headerHasToken twoConnectionFields "connection" "upgrade" = false ∧
      HttpUpgrade.headerHasToken twoConnectionFields "connection" "upgrade" = true ∧
      checkUpgrade "WebSocket" headerHasToken twoConnectionFields =
        .error (.handshake "WebSocket response is missing required Upgrade headers") ∧
      checkUpgrade "HTTP Upgrade" HttpUpgrade.headerHasToken twoConnectionFields = .ok () := by
  decide +kernel

end Alike

end EasyConnection.WebSocket
