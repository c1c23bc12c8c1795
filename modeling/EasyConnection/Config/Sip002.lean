import EasyConnection.Config.SsLink

/-! # Shadowsocks links with the user information apart

SIP002 writes `ss://userinfo@host:port#name`. The user information is `method:password`, escaped or
in URL-safe Base64; the host and the port stand in the clear.
-/
namespace EasyConnection.Config
open Codec Net

variable {L : ImportLibrary} {id : Uuid} {now : Time}
  {method password userinfo written host name escapedName : String} {port : UInt16}

/-- The ways to write the user information. -/
inductive Userinfo (method password : String) : String → Prop where
  | clear {escaped : String} (h : PercentEncodes password escaped) :
      Userinfo method password (method ++ ":" ++ escaped)
  | base64 (padded : Bool) :
      Userinfo method password (String.ofList (Base64.text Base64.urlSafe padded
        (method ++ ":" ++ password).toUTF8.data.toList))

def sip002Link (userinfo written : String) (port : UInt16) (escapedName : String) : String :=
  "ss://" ++ userinfo ++ "@" ++ written ++ ":" ++ toString port.toNat ++ "#" ++ escapedName

/-- What stands between the scheme and the name. -/
def sip002Body (userinfo written : String) (port : UInt16) : List Char :=
  userinfo.toList ++ '@' :: (written.toList ++ ':' :: Nat.toDigits 10 port.toNat)

theorem toList_sip002Link :
    (sip002Link userinfo written port escapedName).toList =
      "ss://".toList ++ (sip002Body userinfo written port ++ '#' :: escapedName.toList) := by
  simp [sip002Link, sip002Body]

theorem mem_urlSafe {padded : Bool} {bytes : List UInt8} {c : Char}
    (hc : c ∈ Base64.text Base64.urlSafe padded bytes) : isUnreserved c ∨ c = '=' := by
  have hsymbol : ∀ n < 64, isUnreserved (Base64.urlSafe.symbol n) := by decide
  rcases Base64.mem_text hc with ⟨n, hn, rfl⟩ | rfl
  · exact .inl (hsymbol n hn)
  · exact .inr rfl

theorem mem_sip002Body (huser : ∀ c ∈ userinfo.toList, isUnreserved c ∨ c = '=')
    (hhost : WrittenHost written host) :
    ∀ c ∈ sip002Body userinfo written port, isHostChar c ∨ c = '=' ∨ c = '@' := by
  intro c hc
  simp only [sip002Body, List.mem_append, List.mem_cons] at hc
  rcases hc with hc | rfl | hc | rfl | hc
  · exact (huser c hc).imp .inl .inl
  · exact .inr (.inr rfl)
  · exact .inl (hhost.chars c hc)
  · exact .inl (.inr (.inl rfl))
  · exact .inl (.inl (isUnreserved_of_mem_toDigits hc))

/-- A body with an `@` is taken as escaped text, so what has no escape stays as it is. -/
theorem ssText_of_at {body : List Char} (hat : '@' ∈ body)
    (hplain : ∀ c ∈ body, c.toNat < 128 ∧ c ≠ '%') : ssText L body = .ok body := by
  have hbytes := percentBytes_plain hplain []
  rw [List.append_nil, percentBytes, List.append_nil] at hbytes
  rw [ssText, if_pos hat, percentDecode, toUTF8_ofList, hbytes, fromUtf8Lossy_flatMap,
    String.toList_ofList]

/-- Without a `:` before the last `@` there is no method. -/
theorem parseSs_of_no_colon [Texts] {name : List Char}
    (hgraphic : ∀ c ∈ sip002Body userinfo written port ++ '#' :: name, isGraphic c)
    (hhash : '#' ∉ sip002Body userinfo written port)
    (htext : ssText L (sip002Body userinfo written port) = .ok (sip002Body userinfo written port))
    (hhost : WrittenHost written host) (hcolon : ':' ∉ userinfo.toList) :
    parseSs L id now ("ss://".toList ++ (sip002Body userinfo written port ++ '#' :: name)) =
      .error (.importError "ss:// missing method:password") := by
  have hrest : trim (("ss://".toList ++ (sip002Body userinfo written port ++ '#' :: name)).drop 5) =
      sip002Body userinfo written port ++ '#' :: name :=
    trim_eq_self fun c hc => (hgraphic c hc).not_whitespace
  have hsplit : rsplitOnce ['@'] (sip002Body userinfo written port) = some (userinfo.toList, _) :=
    rsplitOnce_append (hhost.at_not_mem port)
  unfold parseSs
  rw [hrest, splitFragment, splitOnce_append hhash]
  dsimp only
  rw [htext, except_ok_bind, hsplit, okOr, except_ok_bind, splitOnce_of_not_mem hcolon]
  rfl

/-- The decoder of the whole body is never reached: the `@` before the host rules it out. -/
theorem parseImport_base64_userinfo [Texts]
    (huser : ∀ c ∈ userinfo.toList, isUnreserved c ∨ c = '=')
    (hhost : WrittenHost written host) (hescaped : PercentEncodes name escapedName)
    (hsize : (sip002Link userinfo written port escapedName).utf8ByteSize ≤ maxImportBytes) :
    parseImport L id now (sip002Link userinfo written port escapedName) =
      .error (.importError "ss:// missing method:password") := by
  have hcolon : ':' ∉ userinfo.toList := fun hc => absurd (huser ':' hc) (by decide)
  have hbody : ∀ c ∈ sip002Body userinfo written port, isGraphic c ∧ c ≠ '#' ∧ c ≠ '%' := by
    intro c hc
    rcases mem_sip002Body huser hhost c hc with hc | rfl | rfl
    · refine ⟨hc.graphic, ?_, (plain_of_hostChar hc).2⟩
      exact fun heq => absurd (heq ▸ hc) (by unfold isHostChar; decide)
    all_goals exact ⟨⟨by decide, by decide⟩, by decide, by decide⟩
  have hgraphic : ∀ c ∈ sip002Body userinfo written port ++ '#' :: escapedName.toList,
      isGraphic c :=
    List.forall_mem_append.2 ⟨fun c hc => (hbody c hc).1,
      List.forall_mem_cons.2 ⟨⟨by decide, by decide⟩, escaped_graphic hescaped⟩⟩
  have htext : ssText L (sip002Body userinfo written port) = _ :=
    ssText_of_at (by simp [sip002Body])
      fun c hc => ⟨Nat.lt_succ_of_lt (hbody c hc).1.2, (hbody c hc).2.2⟩
  rw [parseImport_ss toList_sip002Link hgraphic hsize]
  exact parseSs_of_no_colon hgraphic (fun hc => (hbody '#' hc).2.1 rfl) htext hhost hcolon

/-- A link is read back exactly when its user information is written in the clear and it has at
most a mebibyte. -/
theorem sip002_link_read_iff [Texts]
    (hmethod : toAsciiLowercase method ∈ ["aes-128-gcm", "aes-256-gcm"])
    (hhost : WrittenHost written host) (hport : port ≠ 0) (hname : ValidName name)
    (huser : Userinfo method password userinfo) (hescaped : PercentEncodes name escapedName) :
    (∃ p, parseImport L id now (sip002Link userinfo written port escapedName) = .ok p ∧
      p.config.settings = .shadowsocks method ∧ p.password = some password ∧
      p.config.host = host ∧ p.config.port = port ∧ p.config.name = name) ↔
    (∃ escaped, PercentEncodes password escaped ∧ userinfo = method ++ ":" ++ escaped) ∧
      (sip002Link userinfo written port escapedName).utf8ByteSize ≤ 1024 * 1024 := by
  constructor
  · rintro ⟨p, hok, -⟩
    have hsize : (sip002Link userinfo written port escapedName).utf8ByteSize ≤ maxImportBytes := by
      by_contra hlarge
      rw [parseImport, if_pos (Nat.lt_of_not_le hlarge)] at hok
      cases hok
    refine ⟨?_, hsize⟩
    cases huser with
    | clear hpassword => exact ⟨_, hpassword, rfl⟩
    | base64 padded =>
      rw [parseImport_base64_userinfo (fun c hc => mem_urlSafe (String.toList_ofList ▸ hc)) hhost
        hescaped hsize] at hok
      cases hok
  · rintro ⟨⟨escaped, hpassword, rfl⟩, hsize⟩
    have hraw : (sip002Link (method ++ ":" ++ escaped) written port escapedName).toList =
        "ss://".toList ++ (ssAddress method escaped written port ++ '#' :: escapedName.toList) := by
      simp [sip002Link, ssAddress]
    exact ⟨_, parseImport_clear hmethod hhost hport hname hsize hraw hpassword hescaped,
      rfl, rfl, rfl, rfl, rfl⟩

open Sample

theorem clear_sip002_link_read :
    ∃ p, parseImport base64Library 1 0 (sip002Link "aes-256-gcm:secret" "example.com" 8388 "Home") =
        .ok p ∧ p.config.settings = .shadowsocks "aes-256-gcm" ∧ p.password = some "secret" ∧
      p.config.host = "example.com" ∧ p.config.port = 8388 ∧ p.config.name = "Home" := by
  have hmethod : toAsciiLowercase "aes-256-gcm" ∈ ["aes-128-gcm", "aes-256-gcm"] := by decide
  have hhost : WrittenHost "example.com" "example.com" :=
    .name (by decide) (by decide) (List.all_eq_true.1 (by decide))
  have hpassword : PercentEncodes "secret" "secret" :=
    escaped_unreserved (List.all_eq_true.1 (by decide))
  exact (sip002_link_read_iff hmethod hhost (by decide) home_valid (.clear hpassword)
    home_escaped).2 ⟨⟨_, hpassword, rfl⟩, by decide⟩

/-- `YWVzLTI1Ni1nY206c2VjcmV0` is `aes-256-gcm:secret`. -/
theorem base64_sip002_link_refused :
    Userinfo "aes-256-gcm" "secret" "YWVzLTI1Ni1nY206c2VjcmV0" ∧
      parseImport base64Library 1 0
          (sip002Link "YWVzLTI1Ni1nY206c2VjcmV0" "example.com" 8388 "Home") =
        .error (.importError "ss:// missing method:password") := by
  have htext : String.ofList (Base64.text Base64.urlSafe true
      ("aes-256-gcm" ++ ":" ++ "secret").toUTF8.data.toList) = "YWVzLTI1Ni1nY206c2VjcmV0" := by
    decide
  have hhost : WrittenHost "example.com" "example.com" :=
    .name (by decide) (by decide) (List.all_eq_true.1 (by decide))
  refine ⟨htext ▸ .base64 true, ?_⟩
  refine parseImport_base64_userinfo (fun c hc => ?_) hhost home_escaped (by decide)
  rw [← htext, String.toList_ofList] at hc
  exact mem_urlSafe hc

end EasyConnection.Config
