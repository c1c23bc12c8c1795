import EasyConnection.Codec.Chunks
import EasyConnection.Codec.Lines

/-! # The requests for an upgrade

What the WebSocket client and the HTTP Upgrade client write before they read. The host and the path
are put into the head as they are.
-/
namespace EasyConnection.WebSocket
open Codec

def base64Table : List Char :=
  "ABCDEFGHIJKLMNOPQRSTUVWXYZabcdefghijklmnopqrstuvwxyz0123456789+/".toList

def base64Char (n : ℕ) : Char := base64Table.getD (n &&& 63) '='

def encodeChunk (chunk : List UInt8) : List Char :=
  let a := (chunk.getD 0 0).toNat
  let b := (chunk.getD 1 0).toNat
  let c := (chunk.getD 2 0).toNat
  let n := a <<< 16 ||| b <<< 8 ||| c
  [base64Char (n >>> 18), base64Char (n >>> 12),
    if 1 < chunk.length then base64Char (n >>> 6) else '=',
    if 2 < chunk.length then base64Char n else '=']

def base64Encode (bytes : List UInt8) : String := String.ofList ((chunks 3 bytes).flatMap encodeChunk)

example : base64Encode [0x66, 0x6f, 0x6f, 0x62] = "Zm9vYg==" := by decide

def orRoot (path : String) : String := if path = "" then "/" else path

/-- The key is of sixteen random bytes. -/
def websocketRequest (host path : String) (keyRaw : List UInt8) : String :=
  "GET " ++ orRoot path ++ " HTTP/1.1" ++ "\r\n" ++
    "Host: " ++ host ++ "\r\n" ++
    "Upgrade: websocket" ++ "\r\n" ++
    "Connection: Upgrade" ++ "\r\n" ++
    "Sec-WebSocket-Key: " ++ base64Encode keyRaw ++ "\r\n" ++
    "Sec-WebSocket-Version: 13" ++ "\r\n" ++
    "\r\n"

def httpUpgradeRequest (host path : String) : String :=
  "GET " ++ orRoot path ++ " HTTP/1.1" ++ "\r\n" ++
    "Host: " ++ host ++ "\r\n" ++
    "Connection: Upgrade" ++ "\r\n" ++
    "Upgrade: websocket" ++ "\r\n" ++
    "\r\n"

section Lines
variable {host path : String}

theorem mem_encodeChunk {chunk : List UInt8} {c : Char} (h : c ∈ encodeChunk chunk) :
    c ∈ '=' :: base64Table := by
  have hchar : ∀ n, base64Char n ∈ '=' :: base64Table := by
    intro n
    rw [base64Char, List.getD_eq_getElem?_getD]
    cases hn : base64Table[n &&& 63]? with
    | none => exact List.mem_cons_self
    | some c => exact List.mem_cons_of_mem _ (List.mem_of_getElem? hn)
  simp only [encodeChunk, List.mem_cons, List.not_mem_nil, or_false] at h
  rcases h with rfl | rfl | rfl | rfl
  · exact hchar _
  · exact hchar _
  · split_ifs
    · exact hchar _
    · exact List.mem_cons_self
  · split_ifs
    · exact hchar _
    · exact List.mem_cons_self

theorem oneLine_base64Encode (bytes : List UInt8) : OneLine (base64Encode bytes) := by
  have hmem : ∀ c ∈ (base64Encode bytes).toList, c ∈ '=' :: base64Table := by
    intro c hc
    rw [base64Encode, String.toList_ofList] at hc
    obtain ⟨chunk, -, hchunk⟩ := List.mem_flatMap.1 hc
    exact mem_encodeChunk hchunk
  exact ⟨fun h => absurd (hmem _ h) (by decide), fun h => absurd (hmem _ h) (by decide)⟩

theorem oneLine_orRoot (h : OneLine path) : OneLine (orRoot path) := by
  unfold orRoot
  split_ifs
  · decide
  · exact h

theorem requestLine_isLine (h : OneLine path) : IsLine ("GET " ++ orRoot path ++ " HTTP/1.1") :=
  .append (.append (by decide) (oneLine_orRoot h)) (by decide)

/-- A host and a path without line breaks leave the lines of the head as they are. -/
theorem headLines_websocketRequest (hhost : OneLine host) (hpath : OneLine path)
    (keyRaw : List UInt8) :
    headLines (websocketRequest host path keyRaw) =
      ["GET " ++ orRoot path ++ " HTTP/1.1", "Host: " ++ host, "Upgrade: websocket",
        "Connection: Upgrade", "Sec-WebSocket-Key: " ++ base64Encode keyRaw,
        "Sec-WebSocket-Version: 13"] := by
  have htext : websocketRequest host path keyRaw = headText
      ["GET " ++ orRoot path ++ " HTTP/1.1", "Host: " ++ host, "Upgrade: websocket",
        "Connection: Upgrade", "Sec-WebSocket-Key: " ++ base64Encode keyRaw,
        "Sec-WebSocket-Version: 13"] := by
    unfold websocketRequest
    generalize base64Encode keyRaw = key
    simp only [headText, String.append_assoc]
  rw [htext]
  apply headLines_head
  simp only [List.forall_mem_cons]
  exact ⟨requestLine_isLine hpath, IsLine.append (by decide) hhost, by decide, by decide,
    IsLine.append (by decide) (oneLine_base64Encode keyRaw), by decide, by simp⟩

theorem headLines_httpUpgradeRequest (hhost : OneLine host) (hpath : OneLine path) :
    headLines (httpUpgradeRequest host path) =
      ["GET " ++ orRoot path ++ " HTTP/1.1", "Host: " ++ host, "Connection: Upgrade",
        "Upgrade: websocket"] := by
  have htext : httpUpgradeRequest host path = headText
      ["GET " ++ orRoot path ++ " HTTP/1.1", "Host: " ++ host, "Connection: Upgrade",
        "Upgrade: websocket"] := by
    unfold httpUpgradeRequest
    generalize orRoot path = path
    simp only [headText, String.append_assoc]
  rw [htext]
  apply headLines_head
  simp only [List.forall_mem_cons]
  exact ⟨requestLine_isLine hpath, IsLine.append (by decide) hhost, by decide, by decide, by simp⟩

end Lines

end EasyConnection.WebSocket
