import EasyConnection.Codec.Bytes
import EasyConnection.Codec.Chunks

/-! # SHA-1

The message is filled up to blocks of 64 bytes with its length at the end. Each block is sixteen
words, from which eighty are made, one for each round.
-/
namespace EasyConnection.Codec.Sha1

abbrev Word := BitVec 32

/-- The five words of the state. -/
structure State where
  a : Word
  b : Word
  c : Word
  d : Word
  e : Word

def State.initial : State := ⟨0x67452301, 0xefcdab89, 0x98badcfe, 0x10325476, 0xc3d2e1f0⟩

def padMessage (message : List UInt8) : List UInt8 :=
  message ++ 0x80 :: List.replicate ((119 - message.length % 64) % 64) 0 ++
    beBytes 8 (8 * message.length)

def blockWords (block : List UInt8) : List Word :=
  (chunks 4 block).map fun bytes => BitVec.ofNat 32 (ofBeBytes bytes)

/-- So many further words, where the words so far stand in front, the last one first. -/
def expand : ℕ → List Word → List Word
  | 0, words => words
  | n + 1, words =>
    let word := words.getD 2 0 ^^^ words.getD 7 0 ^^^ words.getD 13 0 ^^^ words.getD 15 0
    expand n (word.rotateLeft 1 :: words)

def schedule (block : List UInt8) : List Word := (expand 64 (blockWords block).reverse).reverse

/-- The function and the constant of a round. -/
def mix (t : ℕ) (b c d : Word) : Word :=
  if t < 20 then ((b &&& c) ||| (~~~b &&& d)) + 0x5a827999
  else if t < 40 then (b ^^^ c ^^^ d) + 0x6ed9eba1
  else if t < 60 then ((b &&& c) ||| (b &&& d) ||| (c &&& d)) + 0x8f1bbcdc
  else (b ^^^ c ^^^ d) + 0xca62c1d6

def rounds : ℕ → List Word → State → State
  | _, [], s => s
  | t, word :: words, ⟨a, b, c, d, e⟩ =>
    rounds (t + 1) words ⟨a.rotateLeft 5 + mix t b c d + e + word, a, b.rotateLeft 30, c, d⟩

def compress (s : State) (block : List UInt8) : State :=
  let r := rounds 0 (schedule block) s
  ⟨s.a + r.a, s.b + r.b, s.c + r.c, s.d + r.d, s.e + r.e⟩

def digest (message : List UInt8) : List UInt8 :=
  let s := (chunks 64 (padMessage message)).foldl compress .initial
  [s.a, s.b, s.c, s.d, s.e].flatMap fun word => beBytes 4 word.toNat

example : digest [0x61, 0x62, 0x63] =
    [0xa9, 0x99, 0x3e, 0x36, 0x47, 0x06, 0x81, 0x6a, 0xba, 0x3e, 0x25, 0x71, 0x78, 0x50, 0xc2,
      0x6c, 0x9c, 0xd0, 0xd8, 0x9d] := by
  decide +kernel

end EasyConnection.Codec.Sha1
