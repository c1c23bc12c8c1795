import EasyConnection.Config.Import

/-! # Exported profiles

An export has no references to secrets. A profile that is checked by its reference to a Smart Config
link, and not by its user name, loses what the checks ask for.
-/
namespace EasyConnection.Config
open Codec

/-- The text is JSON of the document: the library reads the text as an object with the two members,
and the second as the profile. -/
structure Writes (L : ImportLibrary) (text : String) (doc : ExportDocument) : Prop where
  braces : ∃ members, text.toList = '\x7b' :: (members ++ ['\x7d'])
  reads : ∃ value profile, L.fromStr text = .ok value ∧
    value.get "version" = some (.unsigned doc.version.toUInt64) ∧
    value.get "profile" = some profile ∧ L.fromValue profile = .ok doc.profile

/-- A user name that an SSH profile without a link needs. -/
def UsernameAccepted (username : Option String) : Prop :=
  ∃ u, username = some u ∧ isBlank u = false ∧ u.utf8ByteSize ≤ 255 ∧
    ∀ c ∈ u.toList, isControl c = false

/-- The profile that an import of the export is to give. -/
def reimported (id : Uuid) (now : Time) (cfg : ConnectionConfig) : ConnectionConfig :=
  { cfg with
    id := id
    authentication := cfg.authentication.typeOnly
    routingMode := .proxyOnly
    proxy := { cfg.proxy with authSecret := none }
    smartLinkSecret := none
    updatedAt := now }

section Checks
variable {cfg cfg' : ConnectionConfig}

theorem validateSsh_of_none (h : cfg.smartLinkSecret = none) :
    validateSsh cfg = .ok () ↔ UsernameAccepted cfg.username := by
  unfold validateSsh UsernameAccepted
  rw [h, except_then_eq_ok, require_eq_ok, require_eq_ok]
  cases cfg.username <;> simp

theorem validateProtocol_ssh [Texts] (hssh : cfg.protocol = .ssh) {keepalive timeout : UInt64}
    {policy : HostKeyPolicy} (hsettings : cfg.settings = .ssh keepalive timeout policy) :
    validateProtocol cfg = validateSsh cfg := by
  rw [validateProtocol, hssh, hsettings]

theorem settings_of_ssh [Texts] (hssh : cfg.protocol = .ssh) (h : validateProtocol cfg = .ok ()) :
    ∃ keepalive timeout policy, cfg.settings = .ssh keepalive timeout policy := by
  rw [validateProtocol, hssh] at h
  cases hsettings : cfg.settings with
  | ssh keepalive timeout policy => exact ⟨keepalive, timeout, policy, rfl⟩
  | _ =>
    rw [hsettings] at h
    cases h

theorem validateProtocol_without_link [Texts] (hstored : validateProtocol cfg = .ok ()) :
    validateProtocol { cfg with smartLinkSecret := none } = .ok () ↔
      cfg.protocol ≠ .ssh ∨ cfg.smartLinkSecret = none ∨ UsernameAccepted cfg.username := by
  by_cases hssh : cfg.protocol = .ssh
  · obtain ⟨keepalive, timeout, policy, hsettings⟩ := settings_of_ssh hssh hstored
    rw [validateProtocol_ssh hssh hsettings] at hstored
    have hchecks : validateProtocol { cfg with smartLinkSecret := none } = _ :=
      validateProtocol_ssh hssh hsettings
    rw [hchecks, validateSsh_of_none rfl]
    constructor
    · exact fun h => .inr (.inr h)
    · rintro (h | h | h)
      · exact absurd hssh h
      · exact (validateSsh_of_none h).1 hstored
      · exact h
  · have hsame : validateProtocol { cfg with smartLinkSecret := none } = validateProtocol cfg := by
      unfold validateProtocol
      dsimp only
      split
      · exact absurd ‹_› hssh
      all_goals rfl
    rw [hsame]
    exact iff_of_true hstored (.inl hssh)

/-- The checks of a stored profile look at the link only for the user name. -/
theorem validateConnection_without_link [Texts] (hstored : validateConnection cfg = .ok ()) :
    validateConnection { cfg with smartLinkSecret := none } = .ok () ↔
      cfg.protocol ≠ .ssh ∨ cfg.smartLinkSecret = none ∨ UsernameAccepted cfg.username := by
  unfold validateConnection at hstored ⊢
  simp only [except_then_eq_ok] at hstored ⊢
  obtain ⟨hname, hnameChars, hhost, hhostChars, hport, hmtu, hports, hsame, hlisten, hprotocol,
    hrest⟩ := hstored
  rw [← validateProtocol_without_link hprotocol]
  constructor
  · rintro ⟨-, -, -, -, -, -, -, -, -, h, -⟩
    exact h
  · intro h
    exact ⟨hname, hnameChars, hhost, hhostChars, hport, hmtu, hports, hsame, hlisten, h, hrest⟩

end Checks

section Import
variable {L : ImportLibrary} {id : Uuid} {now : Time} {cfg : ConnectionConfig} {text : String}

theorem parseImport_writes [Texts] {doc : ExportDocument} {imported : ConnectionConfig}
    (h : Writes L text doc) (hversion : doc.version = configVersion)
    (hsize : text.utf8ByteSize ≤ maxImportBytes) (himported : imported =
      { doc.profile with id := id, updatedAt := now, routingMode := .proxyOnly }) :
    parseImport L id now text = do
      validateConnection imported
      return ⟨imported, none⟩ := by
  obtain ⟨members, hbraces⟩ := h.braces
  obtain ⟨value, profile, hvalue, hnumber, hprofile, hread⟩ := h.reads
  have htrim : trim text.toList = text.toList := by
    rw [hbraces]
    exact trim_of_ends (by decide) (by decide) members
  unfold parseImport
  rw [if_neg (Nat.not_lt.2 hsize)]
  dsimp only
  rw [htrim, if_neg (by simp [hbraces]), if_pos (by simp [hbraces]), String.ofList_toList]
  unfold parseJson profileOf
  rw [hvalue, Except.mapError, except_ok_bind, hnumber, hprofile, hversion, Option.getD_some, hread,
    himported]
  rfl

/-- An export is read back, without its references, exactly when its checks do not rest on the link
and its text has at most a mebibyte. -/
theorem export_import_iff [Texts] (hstored : validateConnection cfg = .ok ())
    (htext : Writes L text cfg.exportSafe) :
    parseImport L id now text = .ok ⟨reimported id now cfg, none⟩ ↔
      (cfg.protocol ≠ .ssh ∨ cfg.smartLinkSecret = none ∨ UsernameAccepted cfg.username) ∧
        text.utf8ByteSize ≤ 1024 * 1024 := by
  by_cases hsize : text.utf8ByteSize ≤ maxImportBytes
  · have hchecks : validateConnection (reimported id now cfg) =
        validateConnection { cfg with smartLinkSecret := none } := rfl
    have himported : reimported id now cfg =
        { cfg.exportSafe.profile with id := id, updatedAt := now, routingMode := .proxyOnly } := rfl
    rw [parseImport_writes htext rfl hsize himported, except_then_eq_ok, hchecks,
      validateConnection_without_link hstored]
    exact and_congr_right fun _ => iff_of_true rfl hsize
  · rw [parseImport, if_pos (Nat.lt_of_not_le hsize)]
    exact iff_of_false (fun h => by cases h) fun h => hsize h.2

end Import

theorem exportJson_writes (name host : String) (port : UInt64)
    (settings others : List (String × Json)) (profile : ConnectionConfig) :
    Writes (Sample.importLibrary [(Sample.exportJson name host port settings others, profile)])
      (Sample.jsonText (Sample.exportJson name host port settings others)) ⟨1, profile⟩ where
  braces := ⟨_, by
    rw [Sample.exportJson, Sample.jsonText, String.toList_append, String.toList_append]
    rfl⟩
  reads := by
    refine ⟨Sample.exportJson name host port settings others, _, ?_, rfl, rfl, ?_⟩
    all_goals
      dsimp only [Sample.importLibrary]
      rw [List.find?_cons_of_pos]
      · rfl
      · exact decide_eq_true rfl

def homeProfile : ConnectionConfig :=
  { ConnectionConfig.newSsh 0 0 "Home" "example.com" 22 with
    username := some "alice"
    authentication := .password (some ⟨"secret-1"⟩) }

def homeJson : Json :=
  Sample.exportJson "Home" "example.com" 22 []
    [("username", .string "alice"), ("authentication", .object [("type", .string "password")])]

open Sample

theorem home_export_imported :
    parseImport (importLibrary [(homeJson, homeProfile.exportSafe.profile)]) 2 5 (jsonText homeJson) =
      .ok ⟨reimported 2 5 homeProfile, none⟩ := by
  refine (export_import_iff (by decide +kernel) (exportJson_writes ..)).2
    ⟨.inr (.inl rfl), by decide +kernel⟩

def smartProfile : ConnectionConfig :=
  .newSmart 0 0 "RocketTunnel Smart Config" "example.com" 443 ⟨"secret-1"⟩

def smartJson : Json :=
  exportJson "RocketTunnel Smart Config" "example.com" 443 [("host_key_policy", .string "tofu")] []

theorem smart_export_refused :
    validateConnection smartProfile = .ok () ∧
      Writes (importLibrary [(smartJson, smartProfile.exportSafe.profile)]) (jsonText smartJson)
        smartProfile.exportSafe ∧
      parseImport (importLibrary [(smartJson, smartProfile.exportSafe.profile)]) 2 5
        (jsonText smartJson) = .error (.validation "SSH username is required") := by
  have hwrites : Writes (importLibrary [(smartJson, smartProfile.exportSafe.profile)])
      (jsonText smartJson) smartProfile.exportSafe := exportJson_writes ..
  refine ⟨by decide +kernel, hwrites, ?_⟩
  have himported : reimported 2 5 smartProfile =
      { smartProfile.exportSafe.profile with id := 2, updatedAt := 5, routingMode := .proxyOnly } := rfl
  have hchecks : validateConnection (reimported 2 5 smartProfile) =
      .error (.validation "SSH username is required") := by
    decide +kernel
  rw [parseImport_writes hwrites rfl (by decide +kernel) himported, hchecks]
  rfl

end EasyConnection.Config
