import EasyConnection.Net.Address
import Mathlib.Data.List.TakeWhile

/-! # Reading addresses

Addresses from their text, group by group. A reader answers with what is left
of the text; an address has to use up all of it.
-/
namespace EasyConnection.Net

/-- The value of a character as a digit in a radix of at most 16. -/
def digitValue (radix : ℕ) (c : Char) : Option ℕ :=
  let n := c.toNat
  let v := if 48 ≤ n ∧ n ≤ 57 then n - 48
    else if 97 ≤ n ∧ n ≤ 102 then n - 87
    else if 65 ≤ n ∧ n ≤ 70 then n - 55
    else radix
  if v < radix then some v else none

/-- A number below `upto` with at most `maxDigits` digits. -/
def readNumber (radix maxDigits upto : ℕ) (zeroPrefix : Bool) (cs : List Char) :
    Option (ℕ × List Char) :=
  let digits := cs.takeWhile fun c => (digitValue radix c).isSome
  let value := (digits.filterMap (digitValue radix)).foldl (fun n d => n * radix + d) 0
  if digits = [] ∨ maxDigits < digits.length ∨ upto ≤ value then none
  else if !zeroPrefix ∧ digits.head? = some '0' ∧ 1 < digits.length then none
  else some (value, cs.drop digits.length)

def readGiven (c : Char) : List Char → Option (List Char)
  | [] => none
  | d :: rest => if c = d then some rest else none

/-- The separator stands before every group but the first. -/
def readSeparator {α : Type} (sep : Char) (index : ℕ) (inner : List Char → Option (α × List Char))
    (cs : List Char) : Option (α × List Char) :=
  if index = 0 then inner cs else (readGiven sep cs).bind inner

def readOctet (index : ℕ) : List Char → Option (ℕ × List Char) :=
  readSeparator '.' index (readNumber 10 3 256 false)

def readIpv4 (cs : List Char) : Option (BitVec 32 × List Char) := do
  let (a, cs) ← readOctet 0 cs
  let (b, cs) ← readOctet 1 cs
  let (c, cs) ← readOctet 2 cs
  let (d, cs) ← readOctet 3 cs
  return (BitVec.ofNat 32 (((a * 256 + b) * 256 + c) * 256 + d), cs)

/-- Up to `room` groups of an IPv6 address, the last two of them perhaps as an IPv4 address.
The flag tells whether they were. -/
def readGroups : (room index : ℕ) → List Char → List ℕ × Bool × List Char
  | 0, _, cs => ([], false, cs)
  | room + 1, index, cs =>
    match if 0 < room then readSeparator ':' index readIpv4 cs else none with
    | some (v4, rest) => ([v4.toNat / 65536, v4.toNat % 65536], true, rest)
    | none =>
      match readSeparator ':' index (readNumber 16 4 65536 true) cs with
      | some (group, rest) =>
        let (groups, embedded, rest) := readGroups room (index + 1) rest
        (group :: groups, embedded, rest)
      | none => ([], false, cs)

def ofGroups (groups : List ℕ) : BitVec 128 :=
  BitVec.ofNat 128 (groups.foldl (fun n g => n * 65536 + g) 0)

def readIpv6 (cs : List Char) : Option (BitVec 128 × List Char) :=
  let (head, embedded, rest) := readGroups 8 0 cs
  if head.length = 8 then some (ofGroups head, rest)
  else if embedded then none
  else do
    let rest ← readGiven ':' rest
    let rest ← readGiven ':' rest
    let (tail, _, rest) := readGroups (7 - head.length) 0 rest
    return (ofGroups (head ++ List.replicate (8 - head.length - tail.length) 0 ++ tail), rest)

def parseIpAddr (s : String) : Option IpAddr :=
  match readIpv4 s.toList with
  | some (a, rest) => if rest = [] then some (.v4 a) else none
  | none =>
    match readIpv6 s.toList with
    | some (a, rest) => if rest = [] then some (.v6 a) else none
    | none => none

example : parseIpAddr "192.0.2.1" = some (.ofOctets 192 0 2 1) ∧ parseIpAddr "192.0.02.1" = none ∧
    parseIpAddr "::ffff:192.0.2.1" = some (.v6 0xffffc0000201) := by
  decide

section Alphabet

/-- A reader takes at most `k` characters, all of one kind. -/
def Consumes {α : Type} (kind : Char → Prop) (k : ℕ) (read : List Char → Option (α × List Char)) :
    Prop :=
  ∀ cs v rest, read cs = some (v, rest) →
    ∃ used, cs = used ++ rest ∧ (∀ c ∈ used, kind c) ∧ used.length ≤ k

variable {α : Type} {kind kind' : Char → Prop} {k l : ℕ} {read : List Char → Option (α × List Char)}

theorem Consumes.mono (h : Consumes kind k read) (hkind : ∀ c, kind c → kind' c) (hk : k ≤ l) :
    Consumes kind' l read := by
  intro cs v rest hread
  obtain ⟨used, hcs, hused, hlength⟩ := h cs v rest hread
  exact ⟨used, hcs, fun c hc => hkind c (hused c hc), Nat.le_trans hlength hk⟩

theorem readNumber_consumes (radix maxDigits upto : ℕ) (zeroPrefix : Bool) :
    Consumes (fun c => (digitValue radix c).isSome) maxDigits
      (readNumber radix maxDigits upto zeroPrefix) := by
  intro cs v rest h
  unfold readNumber at h
  dsimp only at h
  split at h
  · cases h
  rename_i hlength
  split at h
  · cases h
  obtain ⟨rfl, rfl⟩ := Prod.mk.inj (Option.some.inj h)
  refine ⟨cs.takeWhile fun c => (digitValue radix c).isSome, ?_, ?_, by omega⟩
  · exact List.prefix_iff_eq_append.1 (List.takeWhile_prefix _) |>.symm
  · intro c hc
    exact List.mem_takeWhile_imp (p := fun c => (digitValue radix c).isSome) hc

theorem readGiven_eq_some {c : Char} {cs rest : List Char} (h : readGiven c cs = some rest) :
    cs = c :: rest := by
  cases cs with
  | nil => cases h
  | cons d cs =>
    rw [readGiven] at h
    split at h
    · rename_i heq
      rw [heq, Option.some.inj h]
    · cases h

theorem readSeparator_consumes (h : Consumes kind k read) (sep : Char) (index : ℕ) :
    Consumes (fun c => kind c ∨ c = sep) (k + 1) (readSeparator sep index read) := by
  intro cs v rest hread
  unfold readSeparator at hread
  split at hread
  · obtain ⟨used, hcs, hused, hlength⟩ := h cs v rest hread
    exact ⟨used, hcs, fun c hc => .inl (hused c hc), by omega⟩
  · obtain ⟨cs', hsep, hread⟩ := Option.bind_eq_some_iff.1 hread
    obtain ⟨used, rfl, hused, hlength⟩ := h cs' v rest hread
    refine ⟨sep :: used, readGiven_eq_some hsep, ?_, by simpa using hlength⟩
    exact List.forall_mem_cons.2 ⟨.inr rfl, fun c hc => .inl (hused c hc)⟩

def ipv4Char (c : Char) : Prop := (digitValue 10 c).isSome ∨ c = '.'

def ipv6Char (c : Char) : Prop := (digitValue 16 c).isSome ∨ c = '.' ∨ c = ':'

theorem digitValue_isSome (radix : ℕ) (c : Char) :
    (digitValue radix c).isSome ↔ c.toNat - 48 < radix ∧ 48 ≤ c.toNat ∧ c.toNat ≤ 57 ∨
      c.toNat - 87 < radix ∧ 97 ≤ c.toNat ∧ c.toNat ≤ 102 ∨
      c.toNat - 55 < radix ∧ 65 ≤ c.toNat ∧ c.toNat ≤ 70 := by
  unfold digitValue
  dsimp only
  repeat' split
  all_goals
    simp only [Option.isSome_some, Option.isSome_none, true_iff, Bool.false_eq_true, false_iff]
    omega

theorem ipv6Char_of_ipv4Char {c : Char} (h : ipv4Char c) : ipv6Char c := by
  rcases h with h | h
  · left
    rw [digitValue_isSome] at h ⊢
    omega
  · exact .inr (.inl h)

theorem readOctet_consumes (index : ℕ) :
    Consumes ipv4Char 4 (readOctet index) :=
  readSeparator_consumes (readNumber_consumes 10 3 256 false) '.' index

theorem readIpv4_consumes : Consumes ipv4Char 16 readIpv4 := by
  intro cs v rest h
  unfold readIpv4 at h
  simp only [bind, Option.bind_eq_some_iff, Prod.exists] at h
  obtain ⟨_, _, ha, _, _, hb, _, _, hc, _, _, hd, hv⟩ := h
  obtain ⟨-, rfl⟩ := Prod.mk.inj (Option.some.inj hv)
  obtain ⟨u, rfl, hu, hul⟩ := readOctet_consumes 0 _ _ _ ha
  obtain ⟨v, rfl, hv, hvl⟩ := readOctet_consumes 1 _ _ _ hb
  obtain ⟨w, rfl, hw, hwl⟩ := readOctet_consumes 2 _ _ _ hc
  obtain ⟨x, rfl, hx, hxl⟩ := readOctet_consumes 3 _ _ _ hd
  refine ⟨u ++ (v ++ (w ++ x)), by simp only [List.append_assoc], ?_, ?_⟩
  · simp only [List.forall_mem_append]
    exact ⟨hu, hv, hw, hx⟩
  · simp only [List.length_append]
    omega

theorem readGroups_consumes (room index : ℕ) (cs : List Char) :
    ∃ used, cs = used ++ (readGroups room index cs).2.2 ∧ (∀ c ∈ used, ipv6Char c) ∧
      used.length ≤ 5 * room + 17 := by
  induction room generalizing index cs with
  | zero => exact ⟨[], rfl, by simp, by simp⟩
  | succ room ih =>
    have hsep := readSeparator_consumes
      (readIpv4_consumes.mono (fun c => ipv6Char_of_ipv4Char) le_rfl) ':' index
    have hgroup := readSeparator_consumes (readNumber_consumes 16 4 65536 true) ':' index
    rw [readGroups]
    split
    · rename_i v4 rest hv4
      split at hv4
      · obtain ⟨used, hcs, hused, hlength⟩ := hsep cs v4 rest hv4
        refine ⟨used, hcs, fun c hc => ?_, by omega⟩
        exact (hused c hc).elim id fun h => .inr (.inr h)
      · cases hv4
    · split
      · rename_i group rest hnumber
        obtain ⟨used, hcs, hused, hlength⟩ := hgroup cs group rest hnumber
        obtain ⟨used', hcs', hused', hlength'⟩ := ih (index + 1) rest
        refine ⟨used ++ used', ?_, ?_, ?_⟩
        · rw [hcs, List.append_assoc, ← hcs']
        · refine List.forall_mem_append.2 ⟨fun c hc => ?_, hused'⟩
          exact (hused c hc).imp_right .inr
        · rw [List.length_append]
          omega
      · exact ⟨[], rfl, by simp, by simp⟩

theorem readIpv6_consumes : Consumes ipv6Char 120 readIpv6 := by
  intro cs v rest h
  obtain ⟨used, hcs, hused, hlength⟩ := readGroups_consumes 8 0 cs
  unfold readIpv6 at h
  dsimp only at h
  split at h
  · obtain ⟨-, rfl⟩ := Prod.mk.inj (Option.some.inj h)
    exact ⟨used, hcs, hused, by omega⟩
  split at h
  · cases h
  · simp only [bind, Option.bind_eq_some_iff] at h
    obtain ⟨mid, hmid, mid', hmid', hv⟩ := h
    obtain ⟨-, rfl⟩ := Prod.mk.inj (Option.some.inj hv)
    rw [readGiven_eq_some hmid, readGiven_eq_some hmid'] at hcs
    generalize (readGroups 8 0 cs).1.length = filled
    obtain ⟨used', hcs', hused', hlength'⟩ := readGroups_consumes (7 - filled) 0 mid'
    refine ⟨used ++ ':' :: ':' :: used', ?_, ?_, ?_⟩
    · rw [hcs, List.append_assoc, List.cons_append, List.cons_append, ← hcs']
    · have hcolon : ipv6Char ':' := .inr (.inr rfl)
      exact List.forall_mem_append.2 ⟨hused, List.forall_mem_cons.2 ⟨hcolon,
        List.forall_mem_cons.2 ⟨hcolon, hused'⟩⟩⟩
    · simp only [List.length_append, List.length_cons]
      omega

theorem parseIpAddr_v4 {s : String} {a : BitVec 32} (h : parseIpAddr s = some (.v4 a)) :
    (∀ c ∈ s.toList, ipv4Char c) ∧ s.toList.length ≤ 16 := by
  unfold parseIpAddr at h
  split at h
  · rename_i a' rest hread
    split at h
    · rename_i hrest
      subst hrest
      obtain ⟨used, hs, hused, hlength⟩ := readIpv4_consumes _ _ _ hread
      rw [hs, List.append_nil]
      exact ⟨hused, hlength⟩
    · cases h
  · split at h
    · split at h <;> cases h
    · cases h

theorem parseIpAddr_v6 {s : String} {a : BitVec 128} (h : parseIpAddr s = some (.v6 a)) :
    (∀ c ∈ s.toList, ipv6Char c) ∧ s.toList.length ≤ 120 := by
  unfold parseIpAddr at h
  split at h
  · split at h <;> cases h
  · split at h
    · rename_i a' rest hread
      split at h
      · rename_i hrest
        subst hrest
        obtain ⟨used, hs, hused, hlength⟩ := readIpv6_consumes _ _ _ hread
        rw [hs, List.append_nil]
        exact ⟨hused, hlength⟩
      · cases h
    · cases h

/-- What begins with a bracket is no address. -/
theorem parseIpAddr_bracket (s : List Char) : parseIpAddr (String.ofList ('[' :: s)) = none := by
  have hmem : '[' ∈ (String.ofList ('[' :: s)).toList := by
    rw [String.toList_ofList]
    exact List.mem_cons_self
  cases h : parseIpAddr (String.ofList ('[' :: s)) with
  | none => rfl
  | some a =>
    cases a with
    | v4 a => exact absurd ((parseIpAddr_v4 h).1 '[' hmem) (by unfold ipv4Char; decide)
    | v6 a => exact absurd ((parseIpAddr_v6 h).1 '[' hmem) (by unfold ipv6Char; decide)

end Alphabet

end EasyConnection.Net
