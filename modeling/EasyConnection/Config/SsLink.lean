import EasyConnection.Config.Import

/-! # Shadowsocks links

A link is written in the clear, with its password and name escaped, or with all but its name in
Base64. Both are read back as they were written.
-/
namespace EasyConnection.Config
open Codec Net

variable {c : Char}

section Escapes

/-- The characters that a URI has for data without an escape. -/
def isUnreserved (c : Char) : Bool :=
  let n := c.toNat
  (48 ≤ n && n ≤ 57) || (65 ≤ n && n ≤ 90) || (97 ≤ n && n ≤ 122) || n == 45 || n == 46 ||
    n == 95 || n == 126

/-- Every byte that is not unreserved is written as two hexadecimal digits, of either case. -/
inductive Escaped : List UInt8 → List Char → Prop where
  | nil : Escaped [] []
  | plain {c : Char} {bytes : List UInt8} {text : List Char} (hc : isUnreserved c)
      (h : Escaped bytes text) : Escaped (UInt8.ofNat c.toNat :: bytes) (c :: text)
  | escaped {b : UInt8} {x y : Char} {bytes : List UInt8} {text : List Char}
      (hb : isUnreserved (Char.ofUInt8 b) = false) (hx : digitValue 16 x = some (b.toNat / 16))
      (hy : digitValue 16 y = some (b.toNat % 16)) (h : Escaped bytes text) :
      Escaped (b :: bytes) ('%' :: x :: y :: text)

def PercentEncodes (raw encoded : String) : Prop := Escaped raw.toUTF8.data.toList encoded.toList

theorem isUnreserved_iff : isUnreserved c = true ↔
    48 ≤ c.toNat ∧ c.toNat ≤ 57 ∨ 65 ≤ c.toNat ∧ c.toNat ≤ 90 ∨ 97 ≤ c.toNat ∧ c.toNat ≤ 122 ∨
      c.toNat = 45 ∨ c.toNat = 46 ∨ c.toNat = 95 ∨ c.toNat = 126 := by
  simp [isUnreserved, or_assoc]

theorem isUnreserved_of_digit {radix : ℕ} (h : (digitValue radix c).isSome) : isUnreserved c := by
  rw [digitValue_isSome] at h
  rw [isUnreserved_iff]
  omega

variable {b : UInt8}

theorem percentBytes_escape {x y : UInt8} (h : hexPair x y = some b) (rest : List UInt8) :
    percentBytes (0x25 :: x :: y :: rest) = b :: percentBytes rest := by
  rw [percentBytes, if_pos rfl, h]

theorem isUnreserved_toNat_lt (h : isUnreserved c) : c.toNat < 128 := by
  rw [isUnreserved_iff] at h
  omega

theorem ofUInt8_ofNat (h : c.toNat < 128) : Char.ofUInt8 (UInt8.ofNat c.toNat) = c := by
  apply Char.ext
  apply UInt32.toNat_inj.1
  change (UInt8.ofNat c.toNat).toUInt32.toNat = c.toNat
  rw [UInt8.toNat_toUInt32, UInt8.toNat_ofNat_of_lt' (by omega : c.toNat < 256)]

theorem ofNat_toNat_ne (hc : c.toNat < 128) (hne : c.toNat ≠ b.toNat) :
    UInt8.ofNat c.toNat ≠ b := by
  intro heq
  apply hne
  rw [← heq, UInt8.toNat_ofNat_of_lt' (by omega : c.toNat < 256)]

theorem hexPair_digits {x y : Char} (hx : digitValue 16 x = some (b.toNat / 16))
    (hy : digitValue 16 y = some (b.toNat % 16)) :
    hexPair (UInt8.ofNat x.toNat) (UInt8.ofNat y.toNat) = some b := by
  have hx' := isUnreserved_of_digit (Option.isSome_of_mem hx)
  have hy' := isUnreserved_of_digit (Option.isSome_of_mem hy)
  have hplus : UInt8.ofNat x.toNat ≠ 0x2b := by
    refine ofNat_toNat_ne (isUnreserved_toNat_lt hx') ?_
    rw [isUnreserved_iff] at hx'
    change x.toNat ≠ 43
    omega
  rw [hexPair, ofUInt8_ofNat (isUnreserved_toNat_lt hx'), ofUInt8_ofNat (isUnreserved_toNat_lt hy'),
    hx, hy]
  simp only [bind, Option.bind_some, if_neg hplus, pure]
  rw [show 16 * (b.toNat / 16) + b.toNat % 16 = b.toNat by omega, UInt8.ofNat_toNat]

theorem Escaped.mem {bytes : List UInt8} {text : List Char} (h : Escaped bytes text) :
    ∀ c ∈ text, isUnreserved c ∨ c = '%' := by
  induction h with
  | nil => simp
  | plain hc _ ih => exact List.forall_mem_cons.2 ⟨.inl hc, ih⟩
  | escaped _ hx hy _ ih =>
    refine List.forall_mem_cons.2 ⟨.inr rfl, List.forall_mem_cons.2 ⟨.inl ?_,
      List.forall_mem_cons.2 ⟨.inl ?_, ih⟩⟩⟩
    · exact isUnreserved_of_digit (Option.isSome_of_mem hx)
    · exact isUnreserved_of_digit (Option.isSome_of_mem hy)

theorem utf8EncodeChar_unreserved (h : isUnreserved c) :
    String.utf8EncodeChar c = [UInt8.ofNat c.toNat] ∧ UInt8.ofNat c.toNat ≠ 0x25 := by
  have hlt := isUnreserved_toNat_lt h
  refine ⟨utf8EncodeChar_ascii hlt, ofNat_toNat_ne hlt ?_⟩
  rw [isUnreserved_iff] at h
  change c.toNat ≠ 37
  omega

/-- An escape is read as its byte. -/
theorem Escaped.percentBytes_append {bytes : List UInt8} {text : List Char} (h : Escaped bytes text)
    (rest : List UInt8) :
    percentBytes (text.flatMap String.utf8EncodeChar ++ rest) = bytes ++ percentBytes rest := by
  induction h with
  | nil => rfl
  | plain hc _ ih =>
    obtain ⟨hbytes, hne⟩ := utf8EncodeChar_unreserved hc
    rw [List.flatMap_cons, hbytes, List.cons_append, List.nil_append, List.cons_append,
      percentBytes_cons hne, ih, List.cons_append]
  | escaped _ hx hy _ ih =>
    have hxb := (utf8EncodeChar_unreserved (isUnreserved_of_digit (Option.isSome_of_mem hx))).1
    have hyb := (utf8EncodeChar_unreserved (isUnreserved_of_digit (Option.isSome_of_mem hy))).1
    rw [List.flatMap_cons, List.flatMap_cons, List.flatMap_cons, hxb, hyb,
      utf8EncodeChar_ascii (by decide : '%'.toNat < 128)]
    simp only [List.cons_append, List.nil_append]
    rw [← ih]
    exact percentBytes_escape (hexPair_digits hx hy) _

/-- Characters that stand for themselves. -/
theorem percentBytes_plain {text : List Char} (h : ∀ c ∈ text, c.toNat < 128 ∧ c ≠ '%')
    (rest : List UInt8) :
    percentBytes (text.flatMap String.utf8EncodeChar ++ rest) =
      text.flatMap String.utf8EncodeChar ++ percentBytes rest := by
  induction text with
  | nil => rfl
  | cons c text ih =>
    obtain ⟨⟨hlt, hne⟩, htext⟩ := List.forall_mem_cons.1 h
    have hbyte : UInt8.ofNat c.toNat ≠ 0x25 :=
      ofNat_toNat_ne hlt fun heq => hne (Char.ext (UInt32.toNat_inj.1 heq))
    rw [List.flatMap_cons, utf8EncodeChar_ascii hlt, List.cons_append, List.nil_append,
      List.cons_append, percentBytes_cons hbyte, ih htext, List.cons_append]

/-- Escaped bytes between characters that stand for themselves. -/
theorem Escaped.percentBytes_between {before after text : List Char} {bytes : List UInt8}
    (hbefore : ∀ c ∈ before, c.toNat < 128 ∧ c ≠ '%') (h : Escaped bytes text)
    (hafter : ∀ c ∈ after, c.toNat < 128 ∧ c ≠ '%') :
    percentBytes ((before ++ (text ++ after)).flatMap String.utf8EncodeChar) =
      before.flatMap String.utf8EncodeChar ++ (bytes ++ after.flatMap String.utf8EncodeChar) := by
  have hend := percentBytes_plain hafter []
  rw [List.append_nil, percentBytes, List.append_nil] at hend
  rw [List.flatMap_append, percentBytes_plain hbefore, List.flatMap_append, h.percentBytes_append,
    hend]

theorem PercentEncodes.percentDecode {raw encoded : String} (h : PercentEncodes raw encoded) :
    percentDecode encoded = raw := by
  have hbytes := Escaped.percentBytes_append h []
  rw [List.append_nil, ← toUTF8_eq_flatMap, percentBytes, List.append_nil] at hbytes
  rw [Config.percentDecode, hbytes, fromUtf8Lossy_toUTF8]

end Escapes

section Characters

def isGraphic (c : Char) : Prop := 33 ≤ c.toNat ∧ c.toNat < 127

theorem graphic_of_unreserved (h : isUnreserved c) : isGraphic c := by
  rw [isUnreserved_iff] at h
  unfold isGraphic
  omega

theorem isGraphic.not_whitespace (h : isGraphic c) : isWhitespace c = false := by
  obtain ⟨hlow, hhigh⟩ := h
  simp only [isWhitespace, Bool.or_eq_false_iff, Bool.and_eq_false_iff, decide_eq_false_iff_not,
    beq_eq_false_iff_ne]
  omega

theorem isGraphic.not_control (h : isGraphic c) : isControl c = false := by
  obtain ⟨hlow, hhigh⟩ := h
  simp only [isControl, Bool.or_eq_false_iff, Bool.and_eq_false_iff, decide_eq_false_iff_not]
  omega

theorem isUnreserved_of_toLower (h : isUnreserved c.toLower) : isUnreserved c := by
  unfold Char.toLower at h
  split at h
  · rename_i hupper
    rw [isUnreserved_iff]
    have hlow : 65 ≤ c.toNat := UInt32.le_iff_toNat_le.1 hupper.1
    have hhigh : c.toNat ≤ 90 := UInt32.le_iff_toNat_le.1 hupper.2
    omega
  · exact h

def supportedMethods : List String := ["aes-128-gcm", "aes-256-gcm"]

theorem mem_method {method : String} (h : toAsciiLowercase method ∈ supportedMethods) :
    ∀ c ∈ method.toList, isUnreserved c := by
  intro c hc
  apply isUnreserved_of_toLower
  have hlower : c.toLower ∈ (toAsciiLowercase method).toList := by
    rw [toAsciiLowercase, String.toList_ofList]
    exact List.mem_map_of_mem hc
  have hnames : ∀ name ∈ supportedMethods, name.toList.all isUnreserved = true := by decide
  exact List.all_eq_true.1 (hnames _ h) _ hlower

end Characters

section Hosts

/-- A host as it stands in a link: a DNS name, an IPv4 address, or an IPv6 address in brackets. -/
inductive WrittenHost : String → String → Prop where
  | name {host : String} (hne : host ≠ "") (hsize : host.utf8ByteSize ≤ 253)
      (hchars : ∀ c ∈ host.toList, isUnreserved c) : WrittenHost host host
  | v4 {host : String} {a : BitVec 32} (h : parseIpAddr host = some (.v4 a)) : WrittenHost host host
  | v6 {host : String} {a : BitVec 128} (h : parseIpAddr host = some (.v6 a)) :
      WrittenHost ("[" ++ host ++ "]") host

def isHostChar (c : Char) : Prop := isUnreserved c ∨ c = ':' ∨ c = '[' ∨ c = ']'

theorem isHostChar.graphic (h : isHostChar c) : isGraphic c := by
  rcases h with h | rfl | rfl | rfl
  · exact graphic_of_unreserved h
  all_goals exact ⟨by decide, by decide⟩

theorem isUnreserved_of_ipv4Char (h : ipv4Char c) : isUnreserved c := by
  rcases h with h | rfl
  · exact isUnreserved_of_digit h
  · decide

theorem ipv6Char_cases (h : ipv6Char c) : isUnreserved c ∨ c = ':' := by
  rcases h with h | rfl | h
  · exact .inl (isUnreserved_of_digit h)
  · exact .inl (by decide)
  · exact .inr h

variable {written host : String}

theorem utf8ByteSize_of_graphic {s : String} (h : ∀ c ∈ s.toList, isGraphic c) :
    s.utf8ByteSize = s.toList.length := by
  have hsize : s.utf8ByteSize = (s.toList.flatMap String.utf8EncodeChar).length := by
    rw [← toUTF8_eq_flatMap]
    rfl
  rw [hsize]
  generalize s.toList = cs at h
  induction cs with
  | nil => rfl
  | cons c cs ih =>
    obtain ⟨hc, hcs⟩ := List.forall_mem_cons.1 h
    rw [List.flatMap_cons, utf8EncodeChar_ascii (by have := hc.2; omega), List.length_append, ih hcs,
      List.length_singleton, List.length_cons, Nat.add_comm]

theorem WrittenHost.chars (h : WrittenHost written host) : ∀ c ∈ written.toList, isHostChar c := by
  cases h with
  | name hne hsize hchars => exact fun c hc => .inl (hchars c hc)
  | v4 h => exact fun c hc => .inl (isUnreserved_of_ipv4Char ((parseIpAddr_v4 h).1 c hc))
  | v6 h =>
    intro c hc
    simp only [String.toList_append, List.mem_append] at hc
    rcases hc with (hc | hc) | hc
    · exact .inr (.inr (.inl (List.mem_singleton.1 hc)))
    · exact (ipv6Char_cases ((parseIpAddr_v6 h).1 c hc)).imp_right .inl
    · exact .inr (.inr (.inr (List.mem_singleton.1 hc)))

/-- What the checks ask of a host. -/
structure ValidHost (host : String) : Prop where
  notBlank : isBlank host = false
  size : host.utf8ByteSize ≤ 255
  chars : ∀ c ∈ host.toList, isControl c = false ∧ isWhitespace c = false ∧ c ≠ '/'

theorem validHost_of_chars (hne : host ≠ "") (hsize : host.utf8ByteSize ≤ 255)
    (hchars : ∀ c ∈ host.toList, isUnreserved c ∨ c = ':') : ValidHost host := by
  have hgraphic : ∀ c ∈ host.toList, isGraphic c := by
    intro c hc
    exact isHostChar.graphic ((hchars c hc).imp_right .inl)
  refine ⟨?_, hsize, fun c hc => ⟨(hgraphic c hc).not_control, (hgraphic c hc).not_whitespace, ?_⟩⟩
  · obtain ⟨c, hc⟩ := List.exists_mem_of_ne_nil _ (mt String.toList_eq_nil_iff.1 hne)
    rw [isBlank, List.all_eq_false]
    exact ⟨c, hc, by rw [(hgraphic c hc).not_whitespace]; decide⟩
  · rintro rfl
    exact absurd (hchars '/' hc) (by decide)

theorem ne_empty_of_parseIpAddr {a : IpAddr} (h : parseIpAddr host = some a) : host ≠ "" := by
  rintro rfl
  have hnone : parseIpAddr "" = none := by decide
  rw [hnone] at h
  cases h

theorem validHost_of_address {a : IpAddr} (h : parseIpAddr host = some a)
    (hchars : ∀ c ∈ host.toList, isUnreserved c ∨ c = ':') (hlength : host.toList.length ≤ 120) :
    ValidHost host := by
  refine validHost_of_chars (ne_empty_of_parseIpAddr h) ?_ hchars
  rw [utf8ByteSize_of_graphic fun c hc => isHostChar.graphic ((hchars c hc).imp_right .inl)]
  omega

theorem WrittenHost.valid (h : WrittenHost written host) : ValidHost host := by
  cases h with
  | name hne hsize hchars => exact validHost_of_chars hne (by omega) fun c hc => .inl (hchars c hc)
  | v4 h =>
    obtain ⟨hchars, hlength⟩ := parseIpAddr_v4 h
    exact validHost_of_address h (fun c hc => .inl (isUnreserved_of_ipv4Char (hchars c hc)))
      (by omega)
  | v6 h =>
    obtain ⟨hchars, hlength⟩ := parseIpAddr_v6 h
    exact validHost_of_address h (fun c hc => ipv6Char_cases (hchars c hc)) hlength

theorem colon_not_mem_digits (port : UInt16) : ':' ∉ Nat.toDigits 10 port.toNat := fun h =>
  absurd (Nat.isDigit_of_mem_toDigits (by decide) (by decide) h) (by decide)

theorem parsePort_toDigits (port : UInt16) : parsePort (Nat.toDigits 10 port.toNat) = .ok port := by
  rw [parsePort, parseU16_toDigits]
  rfl

theorem splitHostPort_plain {port : UInt16} {default : UInt16} (hne : host ≠ "")
    (hchars : ∀ c ∈ host.toList, isUnreserved c) :
    splitHostPort (host.toList ++ ':' :: Nat.toDigits 10 port.toNat) default = .ok (host, port) := by
  have hcolon : ':' ∉ host.toList := fun h => absurd (hchars ':' h) (by decide)
  obtain ⟨c, cs, hcs⟩ := List.exists_cons_of_ne_nil (mt String.toList_eq_nil_iff.1 hne)
  have hc : c ≠ '[' := by
    rintro rfl
    exact absurd (hchars '[' (by rw [hcs]; exact List.mem_cons_self)) (by decide)
  unfold splitHostPort
  split
  · rename_i rest heq
    rw [hcs, List.cons_append] at heq
    exact absurd (List.cons.inj heq).1 hc
  · rw [rsplitOnce_append (colon_not_mem_digits port)]
    dsimp only
    rw [if_neg hcolon, parsePort_toDigits, String.ofList_toList]
    rfl

theorem WrittenHost.splitHostPort (h : WrittenHost written host) (port default : UInt16) :
    splitHostPort (written.toList ++ ':' :: Nat.toDigits 10 port.toNat) default =
      .ok (host, port) := by
  cases h with
  | name hne hsize hchars => exact splitHostPort_plain hne hchars
  | v4 h =>
    exact splitHostPort_plain (ne_empty_of_parseIpAddr h)
      fun c hc => isUnreserved_of_ipv4Char ((parseIpAddr_v4 h).1 c hc)
  | v6 h =>
    have hbracket : ']' ∉ host.toList := by
      intro hmem
      exact absurd ((parseIpAddr_v6 h).1 ']' hmem) (by unfold ipv6Char; decide)
    have hwritten : ("[" ++ host ++ "]").toList ++ ':' :: Nat.toDigits 10 port.toNat =
        '[' :: (host.toList ++ ']' :: ':' :: Nat.toDigits 10 port.toNat) := by
      simp
    rw [hwritten, Config.splitHostPort, splitOnce_append hbracket]
    refine except_bind_eq_ok.2 ⟨_, rfl, except_bind_eq_ok.2 ⟨port, parsePort_toDigits port, ?_⟩⟩
    rw [String.ofList_toList]
    rfl

end Hosts

section Reading
variable {L : ImportLibrary} {id : Uuid} {now : Time}

/-- What the checks ask of a name. -/
structure ValidName (name : String) : Prop where
  notBlank : isBlank name = false
  size : name.utf8ByteSize ≤ 128
  chars : ∀ c ∈ name.toList, isControl c = false

variable {method : String}

theorem isBlank_method (h : toAsciiLowercase method ∈ supportedMethods) :
    isBlank method = false := by
  have hne : method.toList ≠ [] := by
    intro hnil
    rw [toAsciiLowercase, hnil] at h
    exact absurd h (by decide)
  obtain ⟨c, hc⟩ := List.exists_mem_of_ne_nil _ hne
  rw [isBlank, List.all_eq_false]
  exact ⟨c, hc, by rw [(graphic_of_unreserved (mem_method h c hc)).not_whitespace]; decide⟩

variable {host : String}

theorem validateConnection_shadowsocks [Texts] {name : String} {port : UInt16}
    (hname : ValidName name) (hhost : ValidHost host) (hport : port ≠ 0)
    (hmethod : toAsciiLowercase method ∈ supportedMethods) :
    validateConnection (.newShadowsocks id now name host port method) = .ok () := by
  unfold validateConnection
  simp only [except_bind_eq_ok]
  refine ⟨(), require_eq_ok.2 ?_, (), require_eq_ok.2 ?_, (), require_eq_ok.2 ?_,
    (), require_eq_ok.2 ?_, (), require_eq_ok.2 ?_, (), rfl, (), rfl, (), rfl, (), rfl, (), ?_,
    (), rfl, (), rfl, (), rfl, (), rfl, rfl⟩
  · exact congrArg not hname.notBlank
  · have hchars := hname.chars
    simp only [Bool.and_eq_true, decide_eq_true_eq, Bool.not_eq_true', List.any_eq_false]
    exact ⟨hname.size, fun c hc => by simp [hchars c hc]⟩
  · exact congrArg not hhost.notBlank
  · have hchars := hhost.chars
    simp only [Bool.and_eq_true, decide_eq_true_eq, Bool.not_eq_true', List.any_eq_false]
    refine ⟨⟨hhost.size, fun c hc => by simp [(hchars c hc).1, (hchars c hc).2.1]⟩, fun hc => ?_⟩
    exact (hchars '/' hc).2.2 rfl
  · exact bne_iff_ne.2 hport
  · exact except_bind_eq_ok.2 ⟨(), require_eq_ok.2 (congrArg not (isBlank_method hmethod)),
      require_eq_ok.2 (decide_eq_true hmethod)⟩

theorem parseImport_ss [Texts] {raw : String} {rest : List Char}
    (hraw : raw.toList = "ss://".toList ++ rest)
    (hgraphic : ∀ c ∈ rest, isGraphic c) (hsize : raw.utf8ByteSize ≤ maxImportBytes) :
    parseImport L id now raw = parseSs L id now ("ss://".toList ++ rest) := by
  have htrim : trim raw.toList = "ss://".toList ++ rest := by
    rw [hraw, trim_eq_self]
    intro c hc
    rcases List.mem_append.1 hc with hc | hc
    · have hscheme : "ss://".toList.all (fun c => !isWhitespace c) = true := by decide
      simpa using List.all_eq_true.1 hscheme c hc
    · exact (hgraphic c hc).not_whitespace
  have hlower : "ss://".toList <+:
      (toAsciiLowercase (String.ofList ("ss://".toList ++ rest))).toList := by
    have heq : (toAsciiLowercase (String.ofList ("ss://".toList ++ rest))).toList =
        "ss://".toList ++ rest.map Char.toLower := by
      simp [toAsciiLowercase]
    rw [heq]
    exact List.prefix_append _ _
  unfold parseImport
  rw [if_neg (Nat.not_lt.2 hsize)]
  dsimp only
  rw [htrim, if_neg (by simp), if_neg (by simp), if_pos hlower]

/-- `method:password@host:port` -/
def ssAddress (method password written : String) (port : UInt16) : List Char :=
  method.toList ++ ':' :: password.toList ++
    '@' :: (written.toList ++ ':' :: Nat.toDigits 10 port.toNat)

theorem isUnreserved_of_mem_toDigits {n : ℕ} (h : c ∈ Nat.toDigits 10 n) : isUnreserved c := by
  have hdigit := Nat.isDigit_of_mem_toDigits (by decide) (by decide) h
  rw [isUnreserved_iff]
  left
  simp only [Char.isDigit, Bool.and_eq_true, decide_eq_true_eq] at hdigit
  exact ⟨UInt32.le_iff_toNat_le.1 hdigit.1, UInt32.le_iff_toNat_le.1 hdigit.2⟩

theorem WrittenHost.at_not_mem {written : String} (h : WrittenHost written host) (port : UInt16) :
    '@' ∉ written.toList ++ ':' :: Nat.toDigits 10 port.toNat := by
  intro hmem
  rcases List.mem_append.1 hmem with hmem | hmem
  · exact absurd (h.chars '@' hmem) (by unfold isHostChar; decide)
  · rcases List.mem_cons.1 hmem with hmem | hmem
    · exact absurd hmem (by decide)
    · exact absurd (isUnreserved_of_mem_toDigits hmem) (by decide)

/-- A link whose text before the name is read as an address. -/
theorem parseSs_eq [Texts] {body name : List Char} {password written decodedName : String}
    {port : UInt16} (hgraphic : ∀ c ∈ body ++ '#' :: name, isGraphic c) (hhash : '#' ∉ body)
    (hdecoded : percentDecode (String.ofList name) = decodedName)
    (htext : ssText L body = .ok (ssAddress method password written port))
    (hmethod : toAsciiLowercase method ∈ supportedMethods) (hhost : WrittenHost written host)
    (hport : port ≠ 0) (hname : ValidName decodedName) :
    parseSs L id now ("ss://".toList ++ (body ++ '#' :: name)) =
      .ok ⟨.newShadowsocks id now decodedName host port method, some password⟩ := by
  have hrest : trim (("ss://".toList ++ (body ++ '#' :: name)).drop 5) = body ++ '#' :: name :=
    trim_eq_self fun c hc => (hgraphic c hc).not_whitespace
  have hcolon : ':' ∉ method.toList := fun hmem => absurd (mem_method hmethod ':' hmem) (by decide)
  unfold parseSs
  rw [hrest, splitFragment, splitOnce_append hhash]
  dsimp only
  refine except_bind_eq_ok.2 ⟨_, htext, ?_⟩
  refine except_bind_eq_ok.2 ⟨_, okOr_eq_ok.2 (rsplitOnce_append (hhost.at_not_mem port)), ?_⟩
  refine except_bind_eq_ok.2 ⟨_, okOr_eq_ok.2 (splitOnce_append hcolon), ?_⟩
  refine except_bind_eq_ok.2 ⟨_, hhost.splitHostPort port 8388, ?_⟩
  dsimp only [Option.getD]
  rw [hdecoded, String.ofList_toList, String.ofList_toList]
  rw [validateConnection_shadowsocks hname hhost.valid hport hmethod]
  rfl

end Reading

section Forms
variable {L : ImportLibrary} {method password written : String} {port : UInt16}

theorem fromUtf8Lossy_flatMap (cs : List Char) :
    fromUtf8Lossy (cs.flatMap String.utf8EncodeChar) = String.ofList cs := by
  rw [← toUTF8_ofList, fromUtf8Lossy_toUTF8]

theorem plain_of_hostChar (h : isHostChar c) : c.toNat < 128 ∧ c ≠ '%' := by
  refine ⟨Nat.lt_succ_of_lt h.graphic.2, ?_⟩
  rintro rfl
  exact absurd h (by unfold isHostChar; decide)

/-- The form in the clear. -/
theorem ssText_clear {escaped : String} (hmethod : ∀ c ∈ method.toList, isUnreserved c)
    (hwritten : ∀ c ∈ written.toList, isHostChar c) (hpassword : PercentEncodes password escaped) :
    ssText L (ssAddress method escaped written port) =
      .ok (ssAddress method password written port) := by
  have hat : '@' ∈ ssAddress method escaped written port := by simp [ssAddress]
  have hbefore : ∀ c ∈ method.toList ++ [':'], c.toNat < 128 ∧ c ≠ '%' := by
    refine List.forall_mem_append.2 ⟨fun c hc => ?_, List.forall_mem_singleton.2 (by decide)⟩
    exact plain_of_hostChar (.inl (hmethod c hc))
  have hafter : ∀ c ∈ '@' :: (written.toList ++ ':' :: Nat.toDigits 10 port.toNat),
      c.toNat < 128 ∧ c ≠ '%' := by
    refine List.forall_mem_cons.2 ⟨by decide, List.forall_mem_append.2 ⟨fun c hc => ?_,
      List.forall_mem_cons.2 ⟨by decide, fun c hc => ?_⟩⟩⟩
    · exact plain_of_hostChar (hwritten c hc)
    · exact plain_of_hostChar (.inl (isUnreserved_of_mem_toDigits hc))
  have hsplit : ∀ middle, ssAddress method middle written port = (method.toList ++ [':']) ++
      (middle.toList ++ '@' :: (written.toList ++ ':' :: Nat.toDigits 10 port.toNat)) := by
    intro middle
    simp [ssAddress]
  rw [ssText, if_pos hat, percentDecode, toUTF8_ofList, hsplit,
    hpassword.percentBytes_between hbefore hafter, toUTF8_eq_flatMap, ← List.flatMap_append,
    ← List.flatMap_append, ← hsplit, fromUtf8Lossy_flatMap, String.toList_ofList]

/-- The decoders of the library are those of the two alphabets. -/
structure DecodesBase64 (L : ImportLibrary) : Prop where
  standard : ∀ s, (L.decodeStandard s).toOption = Base64.decode Base64.standard s.toList
  urlSafe : ∀ s, (L.decodeUrlSafe s).toOption = Base64.decode Base64.urlSafe s.toList

/-- Spaces are left out and the padding is put in. -/
theorem decodeBase64_of_pad {text : List Char} {bytes : List UInt8}
    (hgraphic : ∀ c ∈ text, isGraphic c)
    (h : L.decodeStandard (String.ofList (Base64.pad text)) = .ok bytes ∨
      (∃ e, L.decodeStandard (String.ofList (Base64.pad text)) = .error e) ∧
        L.decodeUrlSafe (String.ofList (Base64.pad text)) = .ok bytes) :
    decodeBase64 L (String.ofList text) = .ok bytes := by
  have hclean : (String.ofList text).toList.filter (fun c => !isWhitespace c) = text := by
    rw [String.toList_ofList, List.filter_eq_self]
    exact fun c hc => congrArg not (hgraphic c hc).not_whitespace
  have hsize : (String.ofList text).utf8ByteSize = text.length := by
    rw [utf8ByteSize_of_graphic] <;> rw [String.toList_ofList]
    exact hgraphic
  unfold decodeBase64
  rw [hclean]
  dsimp only
  rw [hsize]
  have hone : String.ofList ['='] = "=" := rfl
  have htwo : String.ofList ['=', '='] = "==" := rfl
  rw [Base64.pad, String.ofList_append] at h
  rcases Base64.padding_cases text.length with ⟨hmod, hp⟩ | ⟨hmod, hp⟩ | ⟨hmod | hmod, hp⟩
  all_goals
    rw [hmod]
    simp only [hp, hone, htwo, String.ofList_nil, String.append_empty] at h
    rcases h with h | ⟨⟨e, he⟩, h⟩
    · simp only [h]
    · simp only [he, h, Except.mapError]

variable {a : Base64.Alphabet}

theorem graphic_of_symbol (ha : a = Base64.standard ∨ a = Base64.urlSafe) :
    ∀ n < 64, isGraphic (a.symbol n) ∧ a.symbol n ≠ '@' ∧ a.symbol n ≠ '#' := by
  unfold isGraphic
  rcases ha with rfl | rfl <;> decide

theorem mem_base64 (ha : a = Base64.standard ∨ a = Base64.urlSafe) {padded : Bool}
    {bytes : List UInt8} (hc : c ∈ Base64.text a padded bytes) :
    isGraphic c ∧ c ≠ '@' ∧ c ≠ '#' := by
  rcases Base64.mem_text hc with ⟨n, hn, rfl⟩ | rfl
  · exact graphic_of_symbol ha n hn
  · exact ⟨⟨by decide, by decide⟩, by decide, by decide⟩

/-- A text of either alphabet, with or without padding, is decoded. -/
theorem DecodesBase64.decodeBase64 (hL : DecodesBase64 L)
    (ha : a = Base64.standard ∨ a = Base64.urlSafe) (padded : Bool) (bytes : List UInt8) :
    decodeBase64 L (String.ofList (Base64.text a padded bytes)) = .ok bytes := by
  refine decodeBase64_of_pad (fun c hc => (mem_base64 ha hc).1) ?_
  have hstandard := hL.standard (String.ofList (Base64.pad (Base64.text a padded bytes)))
  have hurl := hL.urlSafe (String.ofList (Base64.pad (Base64.text a padded bytes)))
  rw [String.toList_ofList, Base64.pad_text] at hstandard hurl
  rw [Base64.pad_text]
  rcases ha with rfl | rfl
  · rw [Base64.decode_pad_encode] at hstandard
    exact .inl (toOption_eq_some.1 hstandard)
  · rw [Base64.decode_pad_encode] at hurl
    rcases Base64.decode_of_agrees Base64.standard_agrees_urlSafe bytes with h | h
    · exact .inl (toOption_eq_some.1 (hstandard.trans h))
    · exact .inr ⟨toOption_eq_none.1 (hstandard.trans h), toOption_eq_some.1 hurl⟩

/-- The form in Base64. -/
theorem ssText_base64 (hL : DecodesBase64 L) (ha : a = Base64.standard ∨ a = Base64.urlSafe)
    (padded : Bool) (text : String) :
    ssText L (Base64.text a padded text.toUTF8.data.toList) = .ok text.toList := by
  have hat : '@' ∉ Base64.text a padded text.toUTF8.data.toList :=
    fun hc => (mem_base64 ha hc).2.1 rfl
  rw [ssText, if_neg hat, hL.decodeBase64 ha]
  refine except_bind_eq_ok.2 ⟨_, rfl, except_bind_eq_ok.2 ⟨text, ?_, rfl⟩⟩
  exact okOr_eq_ok.2 (fromUtf8_toUTF8 text)

/-- The links that stand for a profile. -/
inductive SsLink (method password written : String) (port : UInt16) (name : String) :
    String → Prop where
  | clear {escapedPassword escapedName : String}
      (hpassword : PercentEncodes password escapedPassword)
      (hname : PercentEncodes name escapedName) :
      SsLink method password written port name
        ("ss://" ++ method ++ ":" ++ escapedPassword ++ "@" ++ written ++ ":" ++
          toString port.toNat ++ "#" ++ escapedName)
  | base64 {a : Base64.Alphabet} (ha : a = Base64.standard ∨ a = Base64.urlSafe) (padded : Bool)
      {escapedName : String} (hname : PercentEncodes name escapedName) :
      SsLink method password written port name
        ("ss://" ++ String.ofList (Base64.text a padded (method ++ ":" ++ password ++ "@" ++
          written ++ ":" ++ toString port.toNat).toUTF8.data.toList) ++ "#" ++ escapedName)

end Forms

section RoundTrip
variable {L : ImportLibrary} {id : Uuid} {now : Time}
  {method password written host name raw : String} {port : UInt16}

theorem escaped_graphic {encoded : String} (h : PercentEncodes name encoded) :
    ∀ c ∈ encoded.toList, isGraphic c := by
  intro c hc
  rcases Escaped.mem h c hc with hc | rfl
  · exact graphic_of_unreserved hc
  · exact ⟨by decide, by decide⟩

theorem mem_ssAddress {escaped : String} (hmethod : ∀ c ∈ method.toList, isUnreserved c)
    (hpassword : PercentEncodes password escaped) (hwritten : ∀ c ∈ written.toList, isHostChar c) :
    ∀ c ∈ ssAddress method escaped written port, isHostChar c ∨ c = '%' ∨ c = '@' := by
  intro c hc
  simp only [ssAddress, List.mem_append, List.mem_cons] at hc
  rcases hc with (hc | rfl | hc) | rfl | hc | rfl | hc
  · exact .inl (.inl (hmethod c hc))
  · exact .inl (.inr (.inl rfl))
  · exact (Escaped.mem hpassword c hc).imp .inl .inl
  · exact .inr (.inr rfl)
  · exact .inl (hwritten c hc)
  · exact .inl (.inr (.inl rfl))
  · exact .inl (.inl (isUnreserved_of_mem_toDigits hc))

section Parsed
variable [Texts] (hmethod : toAsciiLowercase method ∈ supportedMethods)
  (hhost : WrittenHost written host) (hport : port ≠ 0) (hname : ValidName name)
  (hsize : raw.utf8ByteSize ≤ maxImportBytes)
include hmethod hhost hport hname hsize

/-- A link of either form is read as its address and its name. -/
theorem parseImport_form {body : List Char} {escapedName : String}
    (hraw : raw.toList = "ss://".toList ++ (body ++ '#' :: escapedName.toList))
    (hbody : ∀ c ∈ body, isGraphic c ∧ c ≠ '#') (hescaped : PercentEncodes name escapedName)
    (htext : ssText L body = .ok (ssAddress method password written port)) :
    parseImport L id now raw =
      .ok ⟨.newShadowsocks id now name host port method, some password⟩ := by
  have hgraphic : ∀ c ∈ body ++ '#' :: escapedName.toList, isGraphic c :=
    List.forall_mem_append.2 ⟨fun c hc => (hbody c hc).1,
      List.forall_mem_cons.2 ⟨⟨by decide, by decide⟩, escaped_graphic hescaped⟩⟩
  have hdecoded : percentDecode (String.ofList escapedName.toList) = name := by
    rw [String.ofList_toList]
    exact hescaped.percentDecode
  rw [parseImport_ss hraw hgraphic hsize]
  exact parseSs_eq hgraphic (fun hc => (hbody '#' hc).2 rfl) hdecoded htext hmethod hhost hport hname

theorem parseImport_clear {escapedPassword escapedName : String}
    (hraw : raw.toList = "ss://".toList ++
      (ssAddress method escapedPassword written port ++ '#' :: escapedName.toList))
    (hpassword : PercentEncodes password escapedPassword)
    (hescaped : PercentEncodes name escapedName) :
    parseImport L id now raw =
      .ok ⟨.newShadowsocks id now name host port method, some password⟩ := by
  have hbody : ∀ c ∈ ssAddress method escapedPassword written port, isGraphic c ∧ c ≠ '#' := by
    intro c hc
    rcases mem_ssAddress (mem_method hmethod) hpassword hhost.chars c hc with hc | rfl | rfl
    · exact ⟨hc.graphic, fun heq => absurd (heq ▸ hc) (by unfold isHostChar; decide)⟩
    all_goals exact ⟨⟨by decide, by decide⟩, by decide⟩
  have htext : ssText L (ssAddress method escapedPassword written port) = _ :=
    ssText_clear (mem_method hmethod) hhost.chars hpassword
  exact parseImport_form hmethod hhost hport hname hsize hraw hbody hescaped htext

theorem SsLink.parseImport_eq (hL : DecodesBase64 L)
    (hlink : SsLink method password written port name raw) :
    parseImport L id now raw =
      .ok ⟨.newShadowsocks id now name host port method, some password⟩ := by
  cases hlink with
  | clear hpassword hescaped =>
    refine parseImport_clear hmethod hhost hport hname hsize ?_ hpassword hescaped
    simp [ssAddress]
  | @base64 a ha padded escapedName hescaped =>
    have htext := ssText_base64 hL ha padded
      (method ++ ":" ++ password ++ "@" ++ written ++ ":" ++ toString port.toNat)
    refine parseImport_form hmethod hhost hport hname hsize ?_
      (fun c hc => ⟨(mem_base64 ha hc).1, (mem_base64 ha hc).2.2⟩) hescaped (htext.trans ?_)
    · simp
    · simp [ssAddress]

end Parsed

theorem escaped_unreserved {s : String} (h : ∀ c ∈ s.toList, isUnreserved c) :
    PercentEncodes s s := by
  rw [PercentEncodes, toUTF8_eq_flatMap]
  generalize s.toList = cs at h
  induction cs with
  | nil => exact .nil
  | cons c cs ih =>
    obtain ⟨hc, hcs⟩ := List.forall_mem_cons.1 h
    rw [List.flatMap_cons, (utf8EncodeChar_unreserved hc).1]
    exact .plain hc (ih hcs)

/-- Every link of at most a mebibyte is read back. -/
theorem ss_links_round_trip [Texts] (hL : DecodesBase64 L)
    (hmethod : toAsciiLowercase method ∈ ["aes-128-gcm", "aes-256-gcm"])
    (hhost : WrittenHost written host) (hport : port ≠ 0) (hname : ValidName name)
    (hlink : SsLink method password written port name raw)
    (hsize : raw.utf8ByteSize ≤ 1024 * 1024) :
    ∃ p, parseImport L id now raw = .ok p ∧ p.config.settings = .shadowsocks method ∧
      p.password = some password ∧ p.config.host = host ∧ p.config.port = port ∧
      p.config.name = name := by
  exact ⟨_, hlink.parseImport_eq hmethod hhost hport hname hsize hL, rfl, rfl, rfl, rfl, rfl⟩

def base64Library : ImportLibrary := Sample.importLibrary []

theorem base64Library_decodes : DecodesBase64 base64Library := by
  have hokOr : ∀ {α : Type} (r : Option α), (okOr "Invalid byte" r).toOption = r := by
    intro α r
    cases r <;> rfl
  exact ⟨fun s => hokOr _, fun s => hokOr _⟩

theorem home_valid : ValidName "Home" := by
  have hcontrol : "Home".toList.all (fun c => !isControl c) = true := by decide
  exact ⟨by decide, by decide, fun c hc => by simpa using List.all_eq_true.1 hcontrol c hc⟩

theorem home_escaped : PercentEncodes "Home" "Home" :=
  escaped_unreserved (List.all_eq_true.1 (by decide))

open Sample

theorem at_sign_password_read_back :
    ∃ p, parseImport base64Library 1 0 "ss://AES-256-gcm:%40@[2001:db8::1]:8388#Home" = .ok p ∧
      p.config.settings = .shadowsocks "AES-256-gcm" ∧ p.password = some "@" ∧
      p.config.host = "2001:db8::1" ∧ p.config.port = 8388 ∧ p.config.name = "Home" := by
  have hhost : parseIpAddr "2001:db8::1" = some (.v6 0x20010db8000000000000000000000001) := by
    decide
  have hpassword : PercentEncodes "@" "%40" := by
    have hbytes : "@".toUTF8.data.toList = [0x40] := by decide
    rw [PercentEncodes, hbytes]
    exact .escaped (by decide) (by decide) (by decide) .nil
  have hmethod : toAsciiLowercase "AES-256-gcm" ∈ ["aes-128-gcm", "aes-256-gcm"] := by decide
  exact ss_links_round_trip base64Library_decodes hmethod (.v6 hhost) (by decide) home_valid
    (.clear hpassword home_escaped) (by decide)

theorem parseImport_of_long_password [Texts] {password : String}
    (h : ∀ c ∈ password.toList, isUnreserved c)
    (hlength : maxImportBytes ≤ password.toList.length) :
    ∃ raw, SsLink "aes-256-gcm" password "example.com" 8388 "Home" raw ∧
      parseImport L id now raw =
        .error (.importError "import exceeds the 1024 KiB size limit") := by
  refine ⟨_, .clear (escaped_unreserved h) home_escaped, if_pos ?_⟩
  have hsize : password.utf8ByteSize = password.toList.length :=
    utf8ByteSize_of_graphic fun c hc => graphic_of_unreserved (h c hc)
  have hscheme : "ss://".utf8ByteSize = 5 := by decide
  simp only [String.utf8ByteSize_append]
  omega

theorem too_long_password_refused :
    ∃ password raw, SsLink "aes-256-gcm" password "example.com" 8388 "Home" raw ∧
      parseImport base64Library 1 0 raw =
        .error (.importError "import exceeds the 1024 KiB size limit") := by
  refine ⟨String.ofList (List.replicate maxImportBytes 'a'), parseImport_of_long_password ?_ ?_⟩
  · intro c hc
    rw [String.toList_ofList] at hc
    rw [List.eq_of_mem_replicate hc]
    decide
  · rw [String.toList_ofList, List.length_replicate]

end RoundTrip

end EasyConnection.Config
