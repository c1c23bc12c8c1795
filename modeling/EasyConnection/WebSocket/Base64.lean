import EasyConnection.Codec.Base64
import EasyConnection.WebSocket.Request

/-! # The Base64 of the handshake

The client has an encoder of its own. It writes what the strict decoder of the standard alphabet
reads, group by group.
-/
namespace EasyConnection.WebSocket
open Codec Codec.Base64

theorem base64Char_eq (n : ℕ) : base64Char n = standard.symbol (n % 64) := by
  have htable : ∀ k < 64, base64Table.getD k '=' = standard.symbol k := by decide +kernel
  have hmod : n &&& 63 = n % 64 := Nat.and_two_pow_sub_one_eq_mod n 6
  rw [base64Char, hmod]
  exact htable _ (Nat.mod_lt _ (by decide))

/-- The bits of three bytes side by side, cut into four. -/
theorem base64Chars_joined (x y z : UInt8) :
    base64Char ((x.toNat <<< 16 ||| y.toNat <<< 8 ||| z.toNat) >>> 18) =
        standard.symbol (x.toNat / 4) ∧
      base64Char ((x.toNat <<< 16 ||| y.toNat <<< 8 ||| z.toNat) >>> 12) =
        standard.symbol (x.toNat % 4 * 16 + y.toNat / 16) ∧
      base64Char ((x.toNat <<< 16 ||| y.toNat <<< 8 ||| z.toNat) >>> 6) =
        standard.symbol (y.toNat % 16 * 4 + z.toNat / 64) ∧
      base64Char (x.toNat <<< 16 ||| y.toNat <<< 8 ||| z.toNat) =
        standard.symbol (z.toNat % 64) := by
  have hx := x.toNat_lt
  have hy := y.toNat_lt
  have hz := z.toNat_lt
  have hlow : y.toNat <<< 8 < 2 ^ 16 := by
    rw [Nat.shiftLeft_eq]
    omega
  have hhigh : x.toNat <<< 16 + y.toNat <<< 8 = (x.toNat * 256 + y.toNat) <<< 8 := by
    simp only [Nat.shiftLeft_eq]
    omega
  have hbits : x.toNat <<< 16 ||| y.toNat <<< 8 ||| z.toNat =
      (x.toNat * 256 + y.toNat) * 256 + z.toNat := by
    rw [← Nat.shiftLeft_add_eq_or_of_lt hlow, hhigh, ← Nat.shiftLeft_add_eq_or_of_lt hz,
      Nat.shiftLeft_eq]
  simp only [hbits, base64Char_eq, Nat.shiftRight_eq_div_pow]
  refine ⟨?_, ?_, ?_, ?_⟩ <;> congr 1 <;> omega

theorem encodeChunk_one (x : UInt8) : encodeChunk [x] = pad (encode standard [x]) := by
  obtain ⟨h₁, h₂, -, -⟩ := base64Chars_joined x 0 0
  simp only [encodeChunk, List.getD_cons_zero, List.getD_cons_succ, List.getD_nil, h₁, h₂]
  simp [pad, padding, encode, sextets]

theorem encodeChunk_two (x y : UInt8) : encodeChunk [x, y] = pad (encode standard [x, y]) := by
  obtain ⟨h₁, h₂, h₃, -⟩ := base64Chars_joined x y 0
  simp only [encodeChunk, List.getD_cons_zero, List.getD_cons_succ, List.getD_nil, h₁, h₂, h₃]
  simp [pad, padding, encode, sextets]

/-- A full group needs no padding, and leaves that of the others as it is. -/
theorem encodeChunk_three (x y z : UInt8) (rest : List UInt8) :
    encodeChunk [x, y, z] ++ pad (encode standard rest) =
      pad (encode standard (x :: y :: z :: rest)) := by
  obtain ⟨h₁, h₂, h₃, h₄⟩ := base64Chars_joined x y z
  simp only [encodeChunk, List.getD_cons_zero, List.getD_cons_succ, h₁, h₂, h₃, h₄]
  simp [pad, padding, encode, sextets, Nat.add_assoc]

theorem base64Encode_toList (bytes : List UInt8) :
    (base64Encode bytes).toList = pad (encode standard bytes) := by
  rw [base64Encode, String.toList_ofList]
  fun_induction sextets bytes with
  | case1 =>
    rw [chunks_nil (by decide)]
    rfl
  | case2 x => rw [chunks_of_length_le (by simp) (by simp), List.flatMap_singleton, encodeChunk_one]
  | case3 x y => rw [chunks_of_length_le (by simp) (by simp), List.flatMap_singleton, encodeChunk_two]
  | case4 x y z rest ih =>
    have hlength : [x, y, z].length = 3 := rfl
    have hchunks : chunks 3 (x :: y :: z :: rest) = [x, y, z] :: chunks 3 rest :=
      chunks_append (by decide) hlength rest
    rw [hchunks, List.flatMap_cons, ih, encodeChunk_three]

theorem base64Encode_length (bytes : List UInt8) :
    (base64Encode bytes).length = 4 * ((bytes.length + 2) / 3) := by
  have hgroups : (chunks 3 bytes).length = (bytes.length + 2) / 3 := by
    rw [chunks, List.length_map, List.length_range]
    rfl
  rw [base64Encode, String.length_ofList, List.length_flatMap, ← hgroups]
  simp [encodeChunk, Nat.mul_comm]

/-- The strict decoder reads the bytes back, and each three bytes or fewer take four characters. -/
theorem base64_round_trip (bytes : List UInt8) :
    decode standard (base64Encode bytes).toList = some bytes ∧
      (base64Encode bytes).length = 4 * ((bytes.length + 2) / 3) := by
  constructor
  · rw [base64Encode_toList, decode_pad_encode]
  · exact base64Encode_length bytes

end EasyConnection.WebSocket
