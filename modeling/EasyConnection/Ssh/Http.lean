import EasyConnection.Async.Gather
import EasyConnection.Codec.Search
import EasyConnection.Codec.Usize
import EasyConnection.Net.Parse
import EasyConnection.Ssh.Zones

/-! # The answers of the zone hosts

The answer is read until its length is reached or the stream ends, and is then taken apart. The
lengths are the server's: each sum and each slice is one that may leave its range.
-/
namespace EasyConnection.Ssh
open Async Codec Net

section Text

/-- A numeral with an optional plus sign, unless it exceeds 64 bits. -/
def parseUsize (radix : ℕ) (s : List Char) : Option ℕ := do
  let digits := match s with
    | '+' :: rest => rest
    | _ => s
  let values ← digits.mapM (digitValue radix)
  let n := values.foldl (fun n d => n * radix + d) 0
  if digits ≠ [] ∧ n < usizeBound then some n else none

example : parseUsize 16 "+fF".toList = some 255 ∧ parseUsize 10 "".toList = none ∧
    parseUsize 10 "18446744073709551616".toList = none := by
  decide

end Text

section Head

def crlf : List UInt8 := [13, 10]

def findHeaderEnd (buf : List UInt8) : Option ℕ := position (crlf ++ crlf) buf

/-- Only the first field of that name counts, whether it is a number or not. -/
def contentLength (headers : List UInt8) : Option ℕ :=
  ((lines (fromUtf8Lossy headers).toList).findSome? (fieldValue "content-length")).bind fun v =>
    parseUsize 10 (trim v)

def headHasChunked (head : String) : Bool :=
  (lines head.toList).any fun line => (fieldValue "transfer-encoding" line).any fun v =>
    (position "chunked".toList (v.map Char.toLower)).isSome

/-- The second word of the first line, if it is a number. -/
def statusOf (head : String) : UInt16 :=
  ((((lines head.toList).head?).bind fun line => (splitWhitespace line)[1]?).bind parseU16).getD 0

end Head

section Chunked

/-- What follows a semicolon is not part of the size. -/
def chunkSize (line : List UInt8) : Option ℕ :=
  (fromUtf8 line).bind fun line => parseUsize 16 (trim ((trim line.toList).takeWhile (· ≠ ';')))

/-- The size of the next chunk and what follows its line. -/
def chunkHeader (rest : List UInt8) : Machine (Option (ℕ × List UInt8)) :=
  match position crlf rest with
  | none => .ok none
  | some nl => do
    match chunkSize (← sliceTo nl rest) with
    | none => return none
    | some size =>
      let start ← addUsize nl 2
      return some (size, ← sliceFrom start rest)

inductive ChunkStep where
  | broken
  | last
  | chunk (data rest : List UInt8)
  deriving DecidableEq

def chunkStep (rest : List UInt8) : Machine ChunkStep := do
  match ← chunkHeader rest with
  | none => return .broken
  | some (size, rest) =>
    if size = 0 then return .last
    let needed ← addUsize size 2
    if rest.length < needed then return .broken
    return .chunk (← sliceTo size rest) (← sliceFrom needed rest)

theorem chunkHeader_shorter {rest after : List UInt8} {size : ℕ}
    (h : chunkHeader rest = .ok (some (size, after))) : after.length < rest.length := by
  unfold chunkHeader at h
  split at h
  · cases h
  · obtain ⟨line, -, h⟩ := except_bind_eq_ok.1 h
    split at h
    · cases h
    · obtain ⟨start, hstart, h⟩ := except_bind_eq_ok.1 h
      obtain ⟨_, hafter, h⟩ := except_bind_eq_ok.1 h
      obtain ⟨rfl, rfl⟩ := Prod.mk.inj (Option.some.inj (Except.ok.inj h))
      rw [addUsize] at hstart
      rw [sliceFrom] at hafter
      split_ifs at hstart hafter with hsum hle
      obtain rfl := Except.ok.inj hstart
      obtain rfl := Except.ok.inj hafter
      rw [List.length_drop]
      omega

theorem chunkStep_shorter {rest data after : List UInt8}
    (h : chunkStep rest = .ok (.chunk data after)) : after.length < rest.length := by
  obtain ⟨header, hheader, h⟩ := except_bind_eq_ok.1 h
  cases header with
  | none => cases h
  | some header =>
    obtain ⟨size, body⟩ := header
    have hbody := chunkHeader_shorter hheader
    dsimp only at h
    split at h
    · cases h
    · obtain ⟨needed, -, h⟩ := except_bind_eq_ok.1 h
      split at h
      · cases h
      · obtain ⟨_, -, h⟩ := except_bind_eq_ok.1 h
        obtain ⟨_, hafter, h⟩ := except_bind_eq_ok.1 h
        obtain ⟨-, rfl⟩ := ChunkStep.chunk.inj (Except.ok.inj h)
        rw [sliceFrom] at hafter
        split_ifs at hafter
        obtain rfl := Except.ok.inj hafter
        rw [List.length_drop]
        omega

def decodeLoop (out rest : List UInt8) : Machine (Option (List UInt8)) :=
  match h : chunkStep rest with
  | .error fault => .error fault
  | .ok .broken => .ok none
  | .ok .last => .ok (some out)
  | .ok (.chunk data after) =>
    have := chunkStep_shorter h
    decodeLoop (out ++ data) after
termination_by rest.length

def decodeChunked (input : List UInt8) : Machine (Option (List UInt8)) := decodeLoop [] input

end Chunked

section Exchange

/-- A body that cannot be decoded is taken as it is. -/
def splitHttp (buf : List UInt8) : Machine (Except SshError HttpResponse) :=
  if sshBanner <+: buf then .ok (.ok ⟨0, buf⟩)
  else match findHeaderEnd buf with
    | none => .ok (.error loadFailed)
    | some headerEnd => do
      match fromUtf8 (← sliceTo headerEnd buf) with
      | none => return .error loadFailed
      | some head =>
        let body ← sliceFrom (← addUsize headerEnd 4) buf
        if headHasChunked head then
          return .ok ⟨statusOf head, (← decodeChunked body).getD body⟩
        return .ok ⟨statusOf head, body⟩

def maxBody : ℕ := 1024 * 1024

def tooLarge : SshError :=
  .zones "Could not load zones. Check connection and try again. (response too large)"

def responseRoom (length n : ℕ) : Machine Bool := do
  return decide ((← addUsize length n) ≤ maxBody + 8192)

/-- The buffer has the whole answer, as far as its length is known. -/
def responseComplete (buf : List UInt8) : Machine Bool :=
  if sshBanner <+: buf then .ok true
  else match findHeaderEnd buf with
    | none => .ok false
    | some headerEnd => do
      match contentLength (← sliceTo headerEnd buf) with
      | none => return false
      | some len =>
        let start ← addUsize headerEnd 4
        return decide ((← addUsize start len) ≤ buf.length)

/-- How a connection to a zone host goes: whether it is opened and takes the request, what its reads
return, and whether the last of them is the end of the stream or fails. -/
structure ZoneStream where
  opened : Except SshError Unit
  reads : List (List UInt8)
  ending : Except SshError Unit

def exchangeAttempt (stream : ZoneStream) : Machine (Except SshError HttpResponse) :=
  match stream.opened with
  | .error e => .ok (.error e)
  | .ok () =>
    match gather responseRoom responseComplete [] stream.reads with
    | .failed fault => .error fault
    | .tooLarge => .ok (.error tooLarge)
    | .stopped buf _ => splitHttp buf
    | .closed buf =>
      match stream.ending with
      | .error e => .ok (.error e)
      | .ok () => splitHttp buf

end Exchange

end EasyConnection.Ssh
