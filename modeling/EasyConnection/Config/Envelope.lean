import Mathlib.Algebra.Order.BigOperators.Group.List
import EasyConnection.Codec.Base64
import EasyConnection.Config.Packed
import EasyConnection.Config.SmartLink

/-! # The envelope of a Smart Config link

A link carries a packed value in a path below `/i/`: compressed or not, masked or not, in Base64,
with some of its bytes escaped. The URL, Base64 and zlib libraries are parameters. Whatever a
sender chooses at each layer, the link is read as the configuration it was made from.
-/
namespace EasyConnection.Config
open Codec

section Decoder

def maxLinkBytes : ℕ := 16 * 1024

def maxDecodedBytes : ℕ := 1024 * 1024

def mask : List UInt8 := [58, 127, 178, 217, 76, 133, 225, 98]

structure SmartUrl where
  scheme : String
  hostStr : Option String
  path : String
  deriving DecidableEq

/-- The functions of the libraries. `inflate` stops at a number of bytes. -/
structure SmartLibrary where
  parseUrl : String → Option SmartUrl
  decodeStandard : String → Option (List UInt8)
  decodeNoPad : String → Option (List UInt8)
  inflate : ℕ → List UInt8 → Option (List UInt8)

/-- A check that ends the import with a message. -/
def demand (ok : Bool) (message : String) : Except ConfigError Unit :=
  if ok then .ok () else .error (smartError message)

def toDigit (b : UInt8) : Except ConfigError ℕ :=
  okOr (smartError "invalid link encoding") (Net.digitValue 16 (Char.ofUInt8 b))

def decodePercentBytes : List UInt8 → Except ConfigError (List UInt8)
  | [] => .ok []
  | b :: rest =>
    if b = 0x25 then
      match rest with
      | hi :: lo :: rest => do
        let hi ← toDigit hi
        let lo ← toDigit lo
        return UInt8.ofNat (16 * hi + lo) :: (← decodePercentBytes rest)
      | _ => .error (smartError "invalid link encoding")
    else do return b :: (← decodePercentBytes rest)

def decodePercent (input : String) : Except ConfigError String := do
  let out ← decodePercentBytes (textBytes input)
  okOr (smartError "link is not UTF-8") (fromUtf8 out)

/-- What follows `/i/` in a path, if anything does. -/
def pathToken (path : String) : Option String :=
  match path.toList with
  | '/' :: 'i' :: '/' :: token => if token = [] then none else some (String.ofList token)
  | _ => none

def linkToken (L : SmartLibrary) (link : String) : Except ConfigError String := do
  demand (link.utf8ByteSize ≤ maxLinkBytes) "link is too long"
  let url ← okOr (smartError "invalid URL") (L.parseUrl (trimmed link))
  demand (url.scheme ∈ ["http", "https"] && url.hostStr.isSome) "expected an HTTP(S) import URL"
  okOr (smartError "expected a /i/ Smart Config link") (pathToken url.path)

def decodeBase64Token (L : SmartLibrary) (token : String) : Except ConfigError (List UInt8) :=
  okOr (smartError "invalid base64 payload") (L.decodeStandard token <|> L.decodeNoPad token)

def keystream (seed : UInt8) (index : ℕ) : UInt8 :=
  mask.getD (index % mask.length) 0 ^^^ seed <<< UInt8.ofNat (index % mask.length)

def applyMask (seed : UInt8) (body : List UInt8) : List UInt8 :=
  body.mapIdx fun index byte => byte ^^^ keystream seed index

def unmask (flags seed : UInt8) (body : List UInt8) : List UInt8 :=
  if flags &&& 2 = 0 then body else applyMask seed body

def decompress (L : SmartLibrary) (flags : UInt8) (body : List UInt8) :
    Except ConfigError (List UInt8) := do
  if flags &&& 1 = 0 then return body
  let output ← okOr (smartError "invalid compressed payload") (L.inflate (maxDecodedBytes + 1) body)
  demand (output.length ≤ maxDecodedBytes) "payload is too large"
  return output

def openEnvelope (L : SmartLibrary) (encoded : List UInt8) : Except ConfigError (List UInt8) := do
  demand (3 ≤ encoded.length && encoded.length ≤ maxDecodedBytes) "invalid payload length"
  let flags := encoded.getD 0 0
  demand (flags >>> 2 == 1) "unsupported envelope version"
  decompress L flags (unmask flags (encoded.getD 1 0) (encoded.drop 2))

def readRoot (unpacked : List UInt8) : Except ConfigError Packed := do
  let (root, rest) ← (PackedParser.read (maxDepth + 1)).run unpacked
  demand rest.isEmpty "unexpected trailing payload"
  return root

def isAsciiControl (c : Char) : Bool := c.toNat < 0x20 || c.toNat == 0x7f

def isAsciiWhitespace (c : Char) : Bool := [' ', '\t', '\n', '\x0c', '\r'].contains c

def hostAccepted (name : String) (port : UInt16) : Bool :=
  name != "" && name.utf8ByteSize ≤ 253 &&
    !(name.toList.any fun c =>
      isAsciiControl c || isAsciiWhitespace c || ['/', '\\', '@', '?', '#'].contains c) &&
    port != 0

/-- The integer as a number below a bound. -/
def tryFrom (bound : ℕ) (value : ℤ) : Option ℕ :=
  if 0 ≤ value ∧ value < bound then some value.toNat else none

def strField (value : Packed) (key : String) : Except ConfigError String := do
  (← value.get key).asStr

def intField (value : Packed) (key : String) : Except ConfigError ℤ := do
  (← value.get key).asInt

def smartHost (host : Packed) : Except ConfigError RocketSmartHost := do
  let name ← strField host "0"
  let port ← okOr (smartError "invalid Smart Config port") (tryFrom 65536 (← intField host "1"))
  let flag ← okOr (smartError "invalid host flags") (tryFrom 256 (← intField host "2"))
  let delay ← okOr (smartError "invalid host delay") (tryFrom 65536 (← intField host "3"))
  demand (hostAccepted name (UInt16.ofNat port)) "invalid Smart Config host"
  return ⟨name, UInt16.ofNat port, UInt8.ofNat flag, UInt16.ofNat delay⟩

def isSmart (item : Packed) : Bool := (strField item "0").toOption == some "smart"

def pathAccepted (path : String) : Bool :=
  path.toList.head? == some '/' && path.utf8ByteSize ≤ 2048 &&
    !path.toList.contains '\r' && !path.toList.contains '\n'

def smartConfig (root : Packed) : Except ConfigError RocketSmartConfig := do
  let configs ← root.asArray
  let config ← okOr (smartError "no Smart Config in link") (configs.find? isSmart)
  demand ((← intField config "13") == 1) "unsupported Smart Config version"
  let hosts ← (← (← config.get "14").asArray).mapM smartHost
  demand (1 ≤ hosts.length && hosts.length ≤ 64) "invalid Smart Config host count"
  let path ← strField config "16"
  demand (pathAccepted path) "invalid Smart Config path"
  let username ← strField config "4"
  let password ← strField config "15"
  demand (username.utf8ByteSize ≤ 4096 && password.utf8ByteSize ≤ 4096)
    "Smart Config credentials are too long"
  return ⟨username, password, path, hosts⟩

def decodeRocketSmartLink (L : SmartLibrary) (link : String) :
    Except ConfigError RocketSmartConfig := do
  let token ← decodePercent (← linkToken L link)
  let encoded ← decodeBase64Token L token
  let unpacked ← openEnvelope L encoded
  smartConfig (← readRoot unpacked)

theorem demand_eq_ok {ok : Bool} {message : String} : demand ok message = .ok () ↔ ok = true := by
  cases ok with
  | false => exact iff_of_false (fun h => by cases h) (by decide)
  | true => exact iff_of_true rfl rfl

theorem smartHost_accepted {value : Packed} {host : RocketSmartHost} (h : smartHost value = .ok host) :
    hostAccepted host.host host.port = true := by
  unfold smartHost at h
  simp only [except_bind_eq_ok] at h
  obtain ⟨name, -, _, -, port, -, _, -, flag, -, _, -, delay, -, _, haccepted, h⟩ := h
  obtain rfl := Except.ok.inj h
  exact demand_eq_ok.1 haccepted

/-- The hosts and the path of a link that is decoded have passed their checks. -/
theorem decodeRocketSmartLink_accepted {L : SmartLibrary} {link : String} {smart : RocketSmartConfig}
    (h : decodeRocketSmartLink L link = .ok smart) :
    (∀ host ∈ smart.hosts, hostAccepted host.host host.port = true) ∧
      pathAccepted smart.path = true := by
  unfold decodeRocketSmartLink smartConfig at h
  simp only [except_bind_eq_ok] at h
  obtain ⟨_, -, _, -, _, -, _, -, _, -, configs, -, config, -, _, -, _, -, _, -, _, -, hosts, hhosts,
    _, -, path, -, _, hpath, username, -, password, -, _, -, h⟩ := h
  obtain rfl := Except.ok.inj h
  refine ⟨fun host hmem => ?_, demand_eq_ok.1 hpath⟩
  obtain ⟨value, -, hvalue⟩ := mem_of_mapM_eq_ok hhosts hmem
  exact smartHost_accepted hvalue

end Decoder

section Sender

/-- Encoders that the decoders of the libraries undo. -/
structure SmartEncoders (L : SmartLibrary) where
  encodeStandard : List UInt8 → String
  encodeNoPad : List UInt8 → String
  deflate : List UInt8 → List UInt8
  decodeStandard_encodeStandard : ∀ bytes, L.decodeStandard (encodeStandard bytes) = some bytes
  decodeNoPad_encodeNoPad : ∀ bytes, L.decodeNoPad (encodeNoPad bytes) = some bytes
  /-- Without padding, the first decoder fails or there was none to leave out. -/
  decodeStandard_encodeNoPad : ∀ bytes,
    L.decodeStandard (encodeNoPad bytes) = none ∨ L.decodeStandard (encodeNoPad bytes) = some bytes
  length_le_standard : ∀ bytes, bytes.length ≤ (encodeStandard bytes).utf8ByteSize
  length_le_noPad : ∀ bytes, bytes.length ≤ (encodeNoPad bytes).utf8ByteSize
  inflate_deflate : ∀ limit bytes, L.inflate limit (deflate bytes) = some (bytes.take limit)
  deflate_ne_nil : ∀ bytes, deflate bytes ≠ []

/-- What a sender chooses. -/
structure Envelope where
  masked : Bool
  compressed : Bool
  seed : UInt8
  padded : Bool
  deriving DecidableEq, Repr

variable {L : SmartLibrary}

/-- The version, and a bit for each choice. -/
def envelopeFlags (masked compressed : Bool) : UInt8 :=
  4 ||| (if masked then 2 else 0) ||| if compressed then 1 else 0

def Envelope.body (e : Envelope) (E : SmartEncoders L) (packed : List UInt8) : List UInt8 :=
  let content := if e.compressed then E.deflate packed else packed
  if e.masked then applyMask e.seed content else content

def Envelope.close (e : Envelope) (E : SmartEncoders L) (packed : List UInt8) : List UInt8 :=
  envelopeFlags e.masked e.compressed :: e.seed :: e.body E packed

def Envelope.text (e : Envelope) (E : SmartEncoders L) (packed : List UInt8) : String :=
  if e.padded then E.encodeStandard (e.close E packed) else E.encodeNoPad (e.close E packed)

/-- Some bytes of a text are written as two hexadecimal digits, a percent sign always. -/
inductive Escapes : List UInt8 → List UInt8 → Prop where
  | nil : Escapes [] []
  | plain {b : UInt8} {raw escaped : List UInt8} (hb : b ≠ 0x25) (h : Escapes raw escaped) :
      Escapes (b :: raw) (b :: escaped)
  | escaped {x y : UInt8} {hi lo : ℕ} {raw escaped : List UInt8} (hx : toDigit x = .ok hi)
      (hy : toDigit y = .ok lo) (h : Escapes raw escaped) :
      Escapes (UInt8.ofNat (16 * hi + lo) :: raw) (0x25 :: x :: y :: escaped)

/-- The link carries the text below `/i/`, and the URL library takes it for what it is. -/
structure Carries (L : SmartLibrary) (link text : String) : Prop where
  parsed : ∃ (site token : String) (url : SmartUrl), link = site ++ "/i/" ++ token ∧
    Escapes (textBytes text) (textBytes token) ∧ L.parseUrl (trimmed link) = some url ∧
    url.scheme ∈ ["http", "https"] ∧ url.hostStr.isSome ∧ url.path = "/i/" ++ token

def hostValue (host : RocketSmartHost) : Packed :=
  .map [("0", .str host.host), ("1", .int host.port.toNat), ("2", .int host.flag.toNat),
    ("3", .int host.delay.toNat)]

def smartValue (smart : RocketSmartConfig) : Packed :=
  .array [.map [("0", .str "smart"), ("4", .str smart.username), ("13", .int 1),
    ("14", .array (smart.hosts.map hostValue)), ("15", .str smart.password),
    ("16", .str smart.path)]]

/-- The configurations within the bounds of the decoder. -/
structure Importable (smart : RocketSmartConfig) : Prop where
  username : smart.username.utf8ByteSize ≤ 4096
  password : smart.password.utf8ByteSize ≤ 4096
  path_slash : smart.path.toList.head? = some '/'
  path_length : smart.path.utf8ByteSize ≤ 2048
  path_line : '\r' ∉ smart.path.toList ∧ '\n' ∉ smart.path.toList
  hosts_count : 1 ≤ smart.hosts.length ∧ smart.hosts.length ≤ 64
  hosts_accepted : ∀ host ∈ smart.hosts, hostAccepted host.host host.port = true

end Sender

section RoundTrip
variable {L : SmartLibrary}

theorem demand_then {α : Type} {ok : Bool} (hok : ok = true) (message : String)
    (next : Unit → Except ConfigError α) : (demand ok message >>= next) = next () := by
  rw [demand, if_pos hok]
  rfl

theorem Escapes.decodePercentBytes {raw escaped : List UInt8} (h : Escapes raw escaped) :
    decodePercentBytes escaped = .ok raw := by
  induction h with
  | nil => rfl
  | plain hb _ ih =>
    unfold Config.decodePercentBytes
    rw [if_neg hb, ih]
    rfl
  | escaped hx hy _ ih =>
    rw [Config.decodePercentBytes, if_pos rfl, hx, hy, ih]
    rfl

theorem Escapes.length_le {raw escaped : List UInt8} (h : Escapes raw escaped) :
    raw.length ≤ escaped.length := by
  induction h with
  | nil => exact Nat.le_refl 0
  | plain _ _ ih => exact Nat.succ_le_succ ih
  | escaped _ _ _ ih =>
    simp only [List.length_cons]
    omega

theorem Escapes.decodePercent {raw token : String} (h : Escapes (textBytes raw) (textBytes token)) :
    decodePercent token = .ok raw := by
  rw [Config.decodePercent, h.decodePercentBytes]
  exact okOr_eq_ok.mpr (fromUtf8_toUTF8 raw)

theorem pathToken_append {token : String} (h : token ≠ "") :
    pathToken ("/i/" ++ token) = some token := by
  have htoken : token.toList ≠ [] := fun hnil => h (String.toList_eq_nil_iff.mp hnil)
  have hpath : ("/i/" ++ token).toList = '/' :: 'i' :: '/' :: token.toList :=
    String.toList_append
  rw [pathToken, hpath]
  simp only [if_neg htoken, String.ofList_toList]

theorem applyMask_length (seed : UInt8) (body : List UInt8) :
    (applyMask seed body).length = body.length := List.length_mapIdx

/-- The mask is its own inverse. -/
theorem applyMask_applyMask (seed : UInt8) (body : List UInt8) :
    applyMask seed (applyMask seed body) = body := by
  apply List.ext_getElem
  · rw [applyMask_length, applyMask_length]
  · intro i h₁ h₂
    simp only [applyMask, List.getElem_mapIdx, UInt8.xor_assoc, UInt8.xor_self, UInt8.xor_zero]

theorem flags_version (masked compressed : Bool) :
    (envelopeFlags masked compressed >>> 2 == 1) = true := by
  revert masked compressed
  decide

theorem flags_masked (masked compressed : Bool) :
    envelopeFlags masked compressed &&& 2 = 0 ↔ masked = false := by
  revert masked compressed
  decide

theorem flags_compressed (masked compressed : Bool) :
    envelopeFlags masked compressed &&& 1 = 0 ↔ compressed = false := by
  revert masked compressed
  decide

section Opening
variable (e : Envelope) (E : SmartEncoders L) {packed : List UInt8}

theorem Envelope.body_ne_nil (h : packed ≠ []) : e.body E packed ≠ [] := by
  have hcontent : (if e.compressed then E.deflate packed else packed) ≠ [] := by
    split
    · exact E.deflate_ne_nil packed
    · exact h
  rw [Envelope.body]
  split
  · intro hnil
    apply hcontent
    rw [← List.length_eq_zero_iff, ← applyMask_length e.seed, hnil]
    rfl
  · exact hcontent

theorem Envelope.unmask_body :
    unmask (envelopeFlags e.masked e.compressed) e.seed (e.body E packed) =
      if e.compressed then E.deflate packed else packed := by
  simp only [unmask, flags_masked, Envelope.body]
  cases e.masked with
  | false => rfl
  | true => exact applyMask_applyMask _ _

theorem decompress_content (masked compressed : Bool) (hpacked : packed.length ≤ maxDecodedBytes) :
    decompress L (envelopeFlags masked compressed)
      (if compressed then E.deflate packed else packed) = .ok packed := by
  simp only [decompress, flags_compressed]
  cases compressed with
  | false => rfl
  | true =>
    have htake : packed.take (maxDecodedBytes + 1) = packed := List.take_of_length_le (by omega)
    rw [if_neg (by decide), if_pos rfl, E.inflate_deflate, htake]
    exact demand_then (decide_eq_true hpacked) _ _

theorem openEnvelope_close (hne : packed ≠ []) (hpacked : packed.length ≤ maxDecodedBytes)
    (hclosed : (e.close E packed).length ≤ maxDecodedBytes) :
    openEnvelope L (e.close E packed) = .ok packed := by
  have hbody : 1 ≤ (e.body E packed).length := List.length_pos_iff.mpr (e.body_ne_nil E hne)
  have hlength : (decide (3 ≤ (e.close E packed).length) &&
      decide ((e.close E packed).length ≤ maxDecodedBytes)) = true := by
    have hclose : (e.close E packed).length = (e.body E packed).length + 2 := rfl
    simp only [Bool.and_eq_true, decide_eq_true_eq]
    omega
  rw [openEnvelope, demand_then hlength]
  refine (demand_then (flags_version e.masked e.compressed) _ _).trans ?_
  change decompress L (envelopeFlags e.masked e.compressed)
    (unmask (envelopeFlags e.masked e.compressed) e.seed (e.body E packed)) = .ok packed
  rw [e.unmask_body, decompress_content E e.masked e.compressed hpacked]

theorem decodeBase64Token_text :
    decodeBase64Token L (e.text E packed) = .ok (e.close E packed) := by
  apply okOr_eq_ok.mpr
  rw [Envelope.text]
  cases e.padded with
  | true =>
    rw [if_pos rfl, E.decodeStandard_encodeStandard]
    rfl
  | false =>
    rw [if_neg (by decide), E.decodeNoPad_encodeNoPad]
    obtain hstandard | hstandard := E.decodeStandard_encodeNoPad (e.close E packed)
    · rw [hstandard]
      rfl
    · rw [hstandard]
      rfl

theorem Envelope.length_close_le : (e.close E packed).length ≤ (e.text E packed).utf8ByteSize := by
  rw [Envelope.text]
  split
  · exact E.length_le_standard _
  · exact E.length_le_noPad _

end Opening

section Link
variable {link text : String}

/-- The token of the link is the text, and the text is no longer than the link. -/
theorem Carries.token (h : Carries L link text) (hsize : link.utf8ByteSize ≤ maxLinkBytes)
    (htext : text ≠ "") : text.utf8ByteSize ≤ link.utf8ByteSize ∧
      (linkToken L link >>= decodePercent) = .ok text := by
  obtain ⟨site, token, url, hlink, hescapes, hurl, hscheme, hhost, hpath⟩ := h.parsed
  have hlength : text.utf8ByteSize ≤ token.utf8ByteSize := hescapes.length_le
  have htoken : token ≠ "" := by
    rintro rfl
    apply htext
    apply String.utf8ByteSize_eq_zero_iff.mp
    exact Nat.le_zero.mp hlength
  constructor
  · rw [hlink, String.utf8ByteSize_append]
    omega
  · have hchecked : (decide (url.scheme ∈ ["http", "https"]) && url.hostStr.isSome) = true := by
      rw [Bool.and_eq_true, decide_eq_true_eq]
      exact ⟨hscheme, hhost⟩
    have hlinkToken : linkToken L link = .ok token := by
      rw [linkToken, demand_then (decide_eq_true hsize), hurl]
      refine (demand_then hchecked _ _).trans ?_
      rw [hpath, pathToken_append htoken]
      rfl
    rw [hlinkToken]
    exact hescapes.decodePercent

end Link

section Value

theorem tryFrom_ofNat {bound n : ℕ} (h : n < bound) : tryFrom bound n = some n := by
  rw [tryFrom, if_pos (by omega), Int.toNat_natCast]

/-- A field that holds a number below the bound is read as that number. -/
theorem boundedField {value : Packed} {key : String} {bound n : ℕ} {α : Type} {message : String}
    {next : ℕ → Except ConfigError α} (hfield : intField value key = .ok (n : ℤ)) (h : n < bound) :
    (intField value key >>= fun i => okOr (smartError message) (tryFrom bound i) >>= next) =
      next n := by
  rw [hfield]
  change (okOr _ (tryFrom bound n) >>= next) = _
  rw [tryFrom_ofNat h]
  rfl

theorem smartHost_hostValue {host : RocketSmartHost}
    (h : hostAccepted host.host host.port = true) : smartHost (hostValue host) = .ok host := by
  have hname : strField (hostValue host) "0" = .ok host.host := rfl
  have hport : intField (hostValue host) "1" = .ok (host.port.toNat : ℤ) := rfl
  have hflag : intField (hostValue host) "2" = .ok (host.flag.toNat : ℤ) := rfl
  have hdelay : intField (hostValue host) "3" = .ok (host.delay.toNat : ℤ) := rfl
  have hport_lt : host.port.toNat < 65536 := host.port.toNat_lt
  have hflag_lt : host.flag.toNat < 256 := host.flag.toNat_lt
  have hdelay_lt : host.delay.toNat < 65536 := host.delay.toNat_lt
  unfold smartHost
  refine except_bind_eq_ok.mpr ⟨_, hname, ?_⟩
  rw [boundedField hport hport_lt, boundedField hflag hflag_lt, boundedField hdelay hdelay_lt,
    UInt16.ofNat_toNat, UInt16.ofNat_toNat, UInt8.ofNat_toNat, demand_then h]
  rfl

variable {smart : RocketSmartConfig}

theorem Importable.pathAccepted (h : Importable smart) : pathAccepted smart.path = true := by
  simp [Config.pathAccepted, h.path_slash, h.path_length, h.path_line]

theorem smartConfig_smartValue (h : Importable smart) :
    smartConfig (smartValue smart) = .ok smart := by
  have hhosts : (smart.hosts.map hostValue).mapM smartHost = .ok smart.hosts :=
    mapM_map_eq_ok fun host hmem => smartHost_hostValue (h.hosts_accepted host hmem)
  have hcount : (decide (1 ≤ smart.hosts.length) && decide (smart.hosts.length ≤ 64)) = true := by
    simp only [Bool.and_eq_true, decide_eq_true_eq]
    exact h.hosts_count
  have hcredentials : (decide (smart.username.utf8ByteSize ≤ 4096) &&
      decide (smart.password.utf8ByteSize ≤ 4096)) = true := by
    simp only [Bool.and_eq_true, decide_eq_true_eq]
    exact ⟨h.username, h.password⟩
  unfold smartConfig
  refine except_bind_eq_ok.mpr ⟨_, rfl, ?_⟩
  refine except_bind_eq_ok.mpr ⟨_, rfl, ?_⟩
  refine except_bind_eq_ok.mpr ⟨1, rfl, ?_⟩
  refine (demand_then rfl _ _).trans ?_
  refine except_bind_eq_ok.mpr ⟨_, rfl, ?_⟩
  refine except_bind_eq_ok.mpr ⟨_, rfl, ?_⟩
  rw [hhosts]
  refine (demand_then hcount _ _).trans ?_
  refine except_bind_eq_ok.mpr ⟨_, rfl, ?_⟩
  rw [demand_then h.pathAccepted]
  refine except_bind_eq_ok.mpr ⟨_, rfl, ?_⟩
  refine except_bind_eq_ok.mpr ⟨_, rfl, ?_⟩
  exact demand_then hcredentials _ _

theorem hostAccepted_length {name : String} {port : UInt16} (h : hostAccepted name port = true) :
    name.utf8ByteSize ≤ 253 := by
  simp only [hostAccepted, Bool.and_eq_true, decide_eq_true_eq] at h
  exact h.1.1.2

theorem maxLength_hostValue (levels : ℕ) {host : RocketSmartHost}
    (h : hostAccepted host.host host.port = true) :
    maxLength (levels + 2) (hostValue host) ≤ 299 := by
  have hname := hostAccepted_length h
  have hkey : ∀ key ∈ ["0", "1", "2", "3"], key.utf8ByteSize = 1 := by decide
  simp only [List.forall_mem_cons] at hkey
  simp only [hostValue, maxLength, List.map_cons, List.map_nil, List.sum_cons, List.sum_nil, hkey]
  omega

theorem maxLength_hosts_le (levels : ℕ) (h : Importable smart) :
    ((smart.hosts.map hostValue).map (maxLength (levels + 2))).sum ≤ smart.hosts.length * 299 := by
  have hsum := List.sum_le_card_nsmul ((smart.hosts.map hostValue).map (maxLength (levels + 2))) 299
  simp only [List.map_map, List.length_map, List.forall_mem_map, Nat.nsmul_eq_mul] at hsum ⊢
  exact hsum fun host hmem => maxLength_hostValue levels (h.hosts_accepted host hmem)

/-- A configuration within the bounds is never too long for the decoder, however it is packed. -/
theorem maxLength_smartValue (levels : ℕ) (h : Importable smart) :
    maxLength (levels + 5) (smartValue smart) ≤ maxDecodedBytes := by
  have hhosts := maxLength_hosts_le levels h
  have hcount := h.hosts_count
  have husername := h.username
  have hpassword := h.password
  have hpath := h.path_length
  have hkey : ∀ key ∈ ["0", "4", "13", "14", "15", "16", "smart"], key.utf8ByteSize ≤ 5 := by decide
  simp only [List.forall_mem_cons] at hkey
  simp only [smartValue, maxLength, List.map_cons, List.map_nil, List.sum_cons, List.sum_nil,
    maxDecodedBytes]
  omega

end Value

/-- For any sender, a link of acceptable length is decoded to the configuration it was made from. -/
theorem smart_link_round_trip (E : SmartEncoders L) (e : Envelope) {smart : RocketSmartConfig}
    {packed : List UInt8} {link : String} (hsmart : Importable smart)
    (hpacked : Encodes (maxDepth + 1) (smartValue smart) packed)
    (hlink : Carries L link (e.text E packed)) (hsize : link.utf8ByteSize ≤ maxLinkBytes) :
    decodeRocketSmartLink L link = .ok smart := by
  have hne : packed ≠ [] := by
    rintro rfl
    exact (nomatch hpacked.reads.run_eq)
  have hlength : packed.length ≤ maxDecodedBytes :=
    hpacked.length_le.trans (maxLength_smartValue 28 hsmart)
  have hclose : (e.close E packed).length ≤ (e.text E packed).utf8ByteSize :=
    e.length_close_le E
  have htext : e.text E packed ≠ "" := by
    intro htext
    rw [htext] at hclose
    exact (nomatch hclose)
  obtain ⟨htoken, hdecoded⟩ := hlink.token hsize htext
  have hclosed : (e.close E packed).length ≤ maxDecodedBytes :=
    (hclose.trans (htoken.trans hsize)).trans (by decide)
  have hroot : readRoot packed = .ok (smartValue smart) := by
    rw [readRoot, hpacked.reads.run_eq]
    rfl
  obtain ⟨token, hlinkToken, hpercent⟩ := except_bind_eq_ok.mp hdecoded
  rw [decodeRocketSmartLink]
  refine except_bind_eq_ok.mpr ⟨token, hlinkToken, ?_⟩
  refine except_bind_eq_ok.mpr ⟨_, hpercent, ?_⟩
  refine except_bind_eq_ok.mpr ⟨_, decodeBase64Token_text e E, ?_⟩
  refine except_bind_eq_ok.mpr ⟨_, openEnvelope_close e E hne hlength hclosed, ?_⟩
  exact except_bind_eq_ok.mpr ⟨_, hroot, smartConfig_smartValue hsmart⟩

section Sample
open Base64

theorem escapes_self {raw : List UInt8} (h : 0x25 ∉ raw) : Escapes raw raw := by
  induction raw with
  | nil => exact .nil
  | cons b raw ih =>
    rw [List.mem_cons, not_or] at h
    exact .plain (Ne.symm h.1) (ih h.2)

theorem length_le_sextets (bytes : List UInt8) : bytes.length ≤ (sextets bytes).length := by
  fun_induction sextets bytes with
  | case4 x y z rest ih =>
    simp only [List.length_cons]
    omega
  | _ => simp

theorem length_le_utf8ByteSize (cs : List Char) : cs.length ≤ (String.ofList cs).utf8ByteSize := by
  induction cs with
  | nil => exact Nat.le_refl 0
  | cons c cs ih =>
    have hcons : String.ofList (c :: cs) = String.singleton c ++ String.ofList cs := by
      rw [← String.toList_inj]
      simp
    have hpos := c.utf8Size_pos
    rw [hcons, String.utf8ByteSize_append, String.utf8ByteSize_singleton, List.length_cons]
    omega

/-- Libraries that know one site, with a byte in front in place of the compression. -/
def plainLibrary : SmartLibrary where
  parseUrl text :=
    if text.toList.take 9 = "https://h".toList then
      some ⟨"https", some "h", String.ofList (text.toList.drop 9)⟩
    else none
  decodeStandard s := decode standard s.toList
  decodeNoPad s := (s.toList.mapM standard.value).bind octets
  inflate limit
    | 0x78 :: bytes => some (bytes.take limit)
    | _ => none

theorem decodeNoPad_encode (bytes : List UInt8) :
    ((encode standard bytes).mapM standard.value).bind octets = some bytes := by
  rw [← decode_pad_encode_eq, decode_pad_encode]

theorem plainLibrary_decodes (bytes : List UInt8) :
    plainLibrary.decodeStandard (String.ofList (text standard true bytes)) = some bytes ∧
      plainLibrary.decodeNoPad (String.ofList (text standard false bytes)) = some bytes := by
  simp only [plainLibrary, String.toList_ofList]
  exact ⟨decode_pad_encode bytes, decodeNoPad_encode bytes⟩

theorem plainLibrary_unpadded (bytes : List UInt8) :
    plainLibrary.decodeStandard (String.ofList (text standard false bytes)) = none ∨
      plainLibrary.decodeStandard (String.ofList (text standard false bytes)) = some bytes := by
  have hbody : (encode standard bytes).takeWhile (· ≠ '=') = encode standard bytes := by
    refine List.takeWhile_eq_self_iff.2 fun c hc => ?_
    obtain ⟨n, hn, rfl⟩ := mem_encode hc
    exact decide_eq_true (symbol_ne_pad hn)
  simp only [plainLibrary, String.toList_ofList, text, Bool.false_eq_true, if_false, decode, hbody]
  split_ifs
  · exact .inr (decodeNoPad_encode bytes)
  · exact .inl rfl

theorem length_le_text (padded : Bool) (bytes : List UInt8) :
    bytes.length ≤ (String.ofList (text standard padded bytes)).utf8ByteSize := by
  refine Nat.le_trans ?_ (length_le_utf8ByteSize _)
  have hle : bytes.length ≤ (encode standard bytes).length := by
    rw [encode, List.length_map]
    exact length_le_sextets bytes
  cases padded with
  | false => exact hle
  | true => exact hle.trans (List.length_append ▸ Nat.le_add_right _ _)

def plainEncoders : SmartEncoders plainLibrary where
  encodeStandard bytes := String.ofList (text standard true bytes)
  encodeNoPad bytes := String.ofList (text standard false bytes)
  deflate bytes := 0x78 :: bytes
  decodeStandard_encodeStandard bytes := (plainLibrary_decodes bytes).1
  decodeNoPad_encodeNoPad bytes := (plainLibrary_decodes bytes).2
  decodeStandard_encodeNoPad := plainLibrary_unpadded
  length_le_standard := length_le_text true
  length_le_noPad := length_le_text false
  inflate_deflate _ _ := rfl
  deflate_ne_nil _ := List.cons_ne_nil _ _

theorem smart_importable : Importable Sample.smart where
  username := by decide
  password := by decide
  path_slash := by decide
  path_length := by decide
  path_line := by decide
  hosts_count := by decide
  hosts_accepted := by decide

def smallPacked : List UInt8 :=
  [0x91, 0x86, 0xa1, 0x30, 0xa5, 0x73, 0x6d, 0x61, 0x72, 0x74, 0xa1, 0x34, 0xa1, 0x75,
    0xa2, 0x31, 0x33, 0x01, 0xa2, 0x31, 0x34, 0x91, 0x84, 0xa1, 0x30, 0xa1, 0x68,
    0xa1, 0x31, 0xd4, 16, 0, 0xc4, 1, 80, 0xa1, 0x32, 17, 0xa1, 0x33, 0,
    0xa2, 0x31, 0x35, 0xa1, 0x70, 0xa2, 0x31, 0x36, 0xa1, 0x2f]

theorem encodes_str {levels : ℕ} (s : String) (h : (textBytes s).length < 32) :
    Encodes (levels + 1) (.str s) (StrForm.fixstr.header (textBytes s).length ++ textBytes s) :=
  ⟨.fixstr, h, rfl⟩

theorem encodes_int {levels n : ℕ} (form : IntForm) (h : form.Fits levels n) :
    Encodes (levels + 1) (.int n) (form.bytes n) :=
  ⟨n, form, rfl, h, rfl⟩

theorem encodes_field {levels : ℕ} (key : String) {value : Packed} {bs : List UInt8}
    {entries : List (String × Packed)} {parts : List (List UInt8)}
    (hkey : (textBytes key).length < 32) (hvalue : Encodes (levels + 1) value bs)
    (h : List.Forall₂ (EntryEncoded (Encodes (levels + 1))) entries parts) :
    List.Forall₂ (EntryEncoded (Encodes (levels + 1))) ((key, value) :: entries)
      ((StrForm.fixstr.header (textBytes key).length ++ textBytes key ++ bs) :: parts) :=
  .cons ⟨_, _, encodes_str key hkey, hvalue, rfl⟩ h

theorem encodes_object {levels : ℕ} {entries : List (String × Packed)} {parts : List (List UInt8)}
    (hcount : entries.length < 16)
    (h : List.Forall₂ (EntryEncoded (Encodes levels)) entries parts) :
    Encodes (levels + 1) (.map entries) (SeqForm.fix.mapHeader entries.length ++ parts.flatten) :=
  ⟨.fix, parts, hcount, h, rfl⟩

theorem smallHost_encodes : Encodes 30 (hostValue ⟨"h", 80, 17, 0⟩)
    [0x84, 0xa1, 0x30, 0xa1, 0x68, 0xa1, 0x31, 0xd4, 16, 0, 0xc4, 1, 80, 0xa1, 0x32, 17,
      0xa1, 0x33, 0] := by
  have hport : Encodes 29 (.int (80 : ℕ)) _ := encodes_int (.packed8 0 .bin8) ⟨by decide, by decide⟩
  have hflag : Encodes 29 (.int (17 : ℕ)) _ := encodes_int .fixint (show 17 < 128 by decide)
  have hdelay : Encodes 29 (.int (0 : ℕ)) _ := encodes_int .fixint (show 0 < 128 by decide)
  have hfields := encodes_field "0" (by decide) (encodes_str "h" (by decide))
    (encodes_field "1" (by decide) hport (encodes_field "2" (by decide) hflag
      (encodes_field "3" (by decide) hdelay .nil)))
  exact ⟨.fix, _, show 4 < 16 by decide, hfields, by decide⟩

theorem smart_encodes : Encodes (maxDepth + 1) (smartValue Sample.smart) smallPacked := by
  have hversion : Encodes 31 (.int (1 : ℕ)) _ := encodes_int .fixint (show 1 < 128 by decide)
  have hhosts : Encodes 31 (.array [hostValue ⟨"h", 80, 17, 0⟩]) _ :=
    ⟨.fix, _, show 1 < 16 by decide, .cons smallHost_encodes .nil, rfl⟩
  have hfields := encodes_field "0" (by decide) (encodes_str "smart" (by decide))
    (encodes_field "4" (by decide) (encodes_str "u" (by decide))
      (encodes_field "13" (by decide) hversion (encodes_field "14" (by decide) hhosts
        (encodes_field "15" (by decide) (encodes_str "p" (by decide))
          (encodes_field "16" (by decide) (encodes_str "/" (by decide)) .nil)))))
  have hconfig := encodes_object (by decide) hfields
  exact ⟨.fix, _, show 1 < 16 by decide, .cons hconfig .nil, by decide⟩

def smallEnvelope : Envelope := ⟨true, false, 1, true⟩

theorem smartLink_carries :
    Carries plainLibrary Sample.smartLink (smallEnvelope.text plainEncoders smallPacked) where
  parsed := by
    refine ⟨"https://h", _, ⟨"https", some "h", _⟩, ?_, escapes_self ?_, ?_, ?_, rfl, rfl⟩
    · decide +kernel
    · decide +kernel
    · decide +kernel
    · decide

/-- A masked link. -/
theorem small_link_decoded : decodeRocketSmartLink plainLibrary Sample.smartLink = .ok Sample.smart :=
  smart_link_round_trip plainEncoders smallEnvelope smart_importable smart_encodes smartLink_carries
    (by decide +kernel)

end Sample

end RoundTrip

end EasyConnection.Config
