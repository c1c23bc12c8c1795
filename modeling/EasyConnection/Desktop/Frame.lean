import EasyConnection.Desktop.Editing

/-! # What an update changes

An update has an argument for each of the fields it may change, and a field whose argument is missing
is to stay as it is. The host and the path of VLESS settings do not: they are taken from the
transport in every update.
-/
namespace EasyConnection.Desktop
open Async Codec Config EasyConnection.Core

section Frame

/-- A field that belongs to an argument. -/
def Kept {α β : Type} (argument : Option α) (new old : β) : Prop := argument = none → new = old

/-- The fields that belong to no argument, without the name, the time of the update and the routing
mode. -/
def unowned (cfg : ConnectionConfig) :=
  (cfg.id, cfg.protocol, cfg.host, cfg.port, cfg.mtu, cfg.mss, cfg.autoReconnect, cfg.selectedZone,
    cfg.smartLinkSecret, cfg.zonesCache, cfg.notes, cfg.createdAt, cfg.dns.dnsOverTcp,
    cfg.proxy.requireAuth, cfg.proxy.authSecret)

structure FieldsKept (args : UpdateProfile) (old new : ConnectionConfig) : Prop where
  unowned : unowned new = unowned old
  username : Kept args.username new.username old.username
  authentication : Kept args.password new.authentication old.authentication
  ipv6 : Kept args.common.ipv6 new.ipv6 old.ipv6
  killSwitch : Kept args.common.killSwitch new.killSwitch old.killSwitch
  bypassPrivateNetworks : Kept args.common.bypassPrivateNetworks new.bypassPrivateNetworks
    old.bypassPrivateNetworks
  dnsMode : Kept args.common.dnsMode new.dns.mode old.dns.mode
  dnsServers : Kept args.common.dnsServers new.dns.servers old.dns.servers
  socksPort : Kept args.common.socksPort new.proxy.socksPort old.proxy.socksPort
  httpPort : Kept args.common.httpPort new.proxy.httpProxyPort old.proxy.httpProxyPort
  listen : Kept args.share.listen new.proxy.listen old.proxy.listen
  splitBypassCidrs : Kept args.share.splitBypassCidrs new.splitBypassCidrs old.splitBypassCidrs
  splitBypassDomains : Kept args.share.splitBypassDomains new.splitBypassDomains
    old.splitBypassDomains
  transport : Kept args.tls.transport new.transport old.transport
  sni : Kept args.tls.sni new.tls.sni old.tls.sni
  alpn : Kept args.tls.alpn new.tls.alpn old.tls.alpn
  verify : Kept args.tls.verify new.tls.verify old.tls.verify
  fingerprint : Kept args.tls.fingerprint new.tls.fingerprint old.tls.fingerprint
  path : Kept args.tls.path new.tls.path old.tls.path
  host : Kept args.tls.host new.tls.host old.tls.host
  udpgwEnabled : Kept args.udpgw.enabled new.udpgw.enabled old.udpgw.enabled
  udpgwHost : Kept args.udpgw.host new.udpgw.host old.udpgw.host
  udpgwPort : Kept args.udpgw.port new.udpgw.port old.udpgw.port
  udpgwTransparentDns : Kept args.udpgw.transparentDns new.udpgw.transparentDns
    old.udpgw.transparentDns

structure VlessKept (args : UpdateProfile) (old new : VlessSettings) : Prop where
  unowned : new = { old with
    uuid := new.uuid
    encryption := new.encryption
    flow := new.flow
    host := new.host
    path := new.path }
  uuid : Kept args.uuid new.uuid old.uuid
  encryption : Kept args.encryption new.encryption old.encryption
  flow : Kept args.flow new.flow old.flow
  host : Kept args.tls.host new.host old.host
  path : Kept args.tls.path new.path old.path

def SettingsKept (args : UpdateProfile) : ProtocolSettings → ProtocolSettings → Prop
  | .ssh keepaliveSecs connectTimeoutSecs old, .ssh keepaliveSecs' connectTimeoutSecs' new =>
    keepaliveSecs' = keepaliveSecs ∧ connectTimeoutSecs' = connectTimeoutSecs ∧ Kept args.tofu new old
  | .shadowsocks old, .shadowsocks new => Kept args.method new old
  | .vless old, .vless new => VlessKept args old new
  | .socks, .socks => True
  | _, _ => False

/-- The profiles differ only in the name, the time of the update, the routing mode and the fields of
the given arguments. -/
structure Framed (args : UpdateProfile) (old new : ConnectionConfig) : Prop where
  fields : FieldsKept args old new
  settings : SettingsKept args old.settings new.settings

/-- The host and the path of VLESS settings are those of the transport, or belong to a given
argument. -/
def InStep (args : UpdateProfile) (cfg : ConnectionConfig) : Prop :=
  ∀ settings, cfg.settings = .vless settings →
    Kept args.tls.host settings.host cfg.tls.host ∧ Kept args.tls.path settings.path cfg.tls.path

end Frame

section Edited
variable {cfg cfg' : ConnectionConfig} {args : UpdateProfile}

theorem moveTo_self : moveTo cfg cfg.host cfg.port = cfg := by
  simp [moveTo]

variable {α : Type} {argument : Option α}

theorem kept_getD {old : α} : Kept argument (argument.getD old) old :=
  fun h => congrArg (Option.getD · old) h

variable {β : Type} {old : β}

theorem kept_map {f : α → β} : Kept argument ((argument.map f).getD old) old :=
  fun h => congrArg (fun o => (Option.map f o).getD old) h

theorem kept_bind {f : α → Option β} : Kept argument ((argument.bind f).getD old) old :=
  fun h => congrArg (fun o => (Option.bind o f).getD old) h

theorem kept_filter {p : α → Bool} {old : α} : Kept argument ((argument.filter p).getD old) old :=
  fun h => congrArg (fun o => (Option.filter p o).getD old) h

theorem kept_or {old : Option α} : Kept argument (argument.or old) old :=
  fun h => congrArg (Option.or · old) h

theorem kept_elim {f : α → Except String β} {new : β} (h : argument.elim (.ok old) f = .ok new) :
    Kept argument new old := by
  rintro rfl
  exact (Except.ok.inj h).symm

/-- All but the settings of the protocol is kept. -/
theorem edited_kept (h : edited cfg args = .ok cfg') (hhost : args.host = cfg.host)
    (hport : args.port = cfg.port) :
    FieldsKept args cfg cfg' ∧ cfg'.settings = applySettings args cfg'.tls cfg.settings := by
  unfold edited at h
  rw [hhost, hport, moveTo_self] at h
  obtain ⟨cfg₁, hcommon, h⟩ := except_bind_eq_ok.1 h
  obtain ⟨cfg₂, htls, h⟩ := except_bind_eq_ok.1 h
  obtain rfl := Except.ok.inj h
  obtain ⟨transport, htransport, htls⟩ := except_bind_eq_ok.1 htls
  obtain ⟨fingerprint, hfingerprint, htls⟩ := except_bind_eq_ok.1 htls
  obtain rfl := Except.ok.inj htls
  obtain ⟨mode, hmode, hcommon⟩ := except_bind_eq_ok.1 hcommon
  obtain rfl := Except.ok.inj hcommon
  refine ⟨⟨rfl, kept_or, fun _ => rfl, kept_getD, kept_getD, kept_getD, kept_elim hmode, kept_map,
    kept_getD, kept_getD, kept_bind, kept_map, kept_map, kept_elim htransport, kept_map, kept_map,
    kept_getD, kept_elim hfingerprint, kept_map, kept_map, kept_getD, kept_filter, kept_filter,
    kept_getD⟩, rfl⟩

/-- The settings of the protocol are kept, but for the two that follow the transport. -/
theorem settingsKept_applySettings_iff {tls : TlsSettings}
    (hhost : Kept args.tls.host tls.host cfg.tls.host)
    (hpath : Kept args.tls.path tls.path cfg.tls.path) :
    SettingsKept args cfg.settings (applySettings args tls cfg.settings) ↔ InStep args cfg := by
  unfold InStep
  cases cfg.settings with
  | ssh keepaliveSecs connectTimeoutSecs policy =>
    exact iff_of_true ⟨rfl, rfl, kept_map⟩ fun _ h => by cases h
  | socks => exact iff_of_true trivial fun _ h => by cases h
  | shadowsocks method => exact iff_of_true kept_getD fun _ h => by cases h
  | vless settings =>
    constructor
    · intro hkept old hold
      obtain rfl := ProtocolSettings.vless.inj hold
      have hkept : VlessKept args settings _ := hkept
      exact ⟨fun h => (hkept.host h).symm.trans (hhost h), fun h => (hkept.path h).symm.trans (hpath h)⟩
    · intro hstep
      obtain ⟨hstepHost, hstepPath⟩ := hstep settings rfl
      exact ⟨rfl, kept_getD, kept_getD, kept_getD, fun h => (hhost h).trans (hstepHost h).symm,
        fun h => (hpath h).trans (hstepPath h).symm⟩

/-- The edited profile, once it is stored. -/
theorem framed_iff (h : edited cfg args = .ok cfg') (hhost : args.host = cfg.host)
    (hport : args.port = cfg.port) {auth : AuthMethod}
    (hauth : Kept args.password auth cfg.authentication) (t : Time) :
    Framed args cfg { cfg' with
      authentication := auth, updatedAt := t, routingMode := .proxyOnly } ↔ InStep args cfg := by
  obtain ⟨hfields, hsettings⟩ := edited_kept h hhost hport
  have hstep := settingsKept_applySettings_iff hfields.host hfields.path
  rw [← hsettings] at hstep
  rw [← hstep]
  exact ⟨fun h => h.settings, fun h => ⟨{ hfields with authentication := hauth }, h⟩⟩

end Edited

section Update
variable {L : Library} {w : World} {u : Uuid} {cfg : ConnectionConfig} {args : UpdateProfile}

/-- A successful update stores the edited profile, with another authentication only if there is a
password. -/
theorem updateSshProfile_row [Texts] {post : Except CommandError ProfileDto → World → Prop}
    (hid : L.parseUuid args.id = .ok u) (hrow : w.profiles.lookup u = some cfg) (hkey : cfg.id = u)
    (hok : ∀ cfg' auth t dto (w' : World), edited cfg args = .ok cfg' →
      Kept args.password auth cfg'.authentication →
      w'.profiles.lookup u = some { cfg' with
        authentication := auth, updatedAt := t, routingMode := .proxyOnly } → post (.ok dto) w')
    (herror : ∀ e w', post (.error e) w') :
    (updateSshProfile L args).run.Ensures exec Unused post w := by
  refine Prog.ensures_of_then (ofExcept_ensures hid ?_)
  refine Prog.ensures_of_then (ofCore_runs (getProfile_runs (fun _ hrow' => ?_)
    fun _ => herror _ _))
  obtain rfl := Option.some.inj (hrow.symm.trans hrow')
  refine Prog.ensures_of_then ?_
  cases hedited : edited cfg args with
  | error e => exact herror _ _
  | ok cfg' =>
    refine Prog.ensures_of_then (ofCore_runs (saveProfile_runs (fun t => ?_) fun _ => herror _ _))
    have hstored : ∀ (w' : World) (new : ConnectionConfig), new.id = cfg'.id →
        (w'.store new).profiles.lookup u = some new := by
      intro w' new hnew
      rw [← hkey, ← edited_id hedited, ← hnew]
      exact World.lookup_store _
    cases hpassword : args.newPassword with
    | none => exact hok cfg' cfg'.authentication t _ _ hedited (fun _ => rfl) (hstored _ _ rfl)
    | some password =>
      refine Prog.ensures_of_then (ofCore_runs (setPasswordSecret_runs
        (fun row r t' w' hread _ => ?_) fun _ _ _ => herror _ _))
      obtain rfl := Option.some.inj ((hstored w (saved cfg' t) rfl).symm.trans hread)
      refine hok cfg' (.password (some r)) t' _ _ hedited (fun hnone => ?_) (hstored w' _ rfl)
      rw [UpdateProfile.newPassword, hnone] at hpassword
      cases hpassword

end Update

/-- After a successful update under the stored address, the profile differs only in what the update
was told exactly if its VLESS settings follow the transport. -/
theorem update_framed_iff [Texts] (L : Library) (w : World) (u : Uuid) (cfg : ConnectionConfig)
    (args : UpdateProfile) (hid : L.parseUuid args.id = .ok u)
    (hrow : w.profiles.lookup u = some cfg) (hkey : cfg.id = u) (hhost : args.host = cfg.host)
    (hport : args.port = cfg.port) :
    (updateSshProfile L args).run.Ensures exec Unused (fun r w' => r.isOk = true →
      ∃ new, w'.profiles.lookup u = some new ∧ (Framed args cfg new ↔ InStep args cfg)) w := by
  refine updateSshProfile_row hid hrow hkey (fun cfg' auth t _ w' hedited hauth hnew _ => ?_)
    fun _ _ h => absurd h (by simp [Except.isOk, Except.toBool])
  have hkept : Kept args.password auth cfg.authentication := fun h =>
    (hauth h).trans ((edited_kept hedited hhost hport).1.authentication h)
  exact ⟨_, hnew, framed_iff hedited hhost hport hkept t⟩

section Sample

/-- An update that gives no argument but the name. -/
def rename (name : String) : UpdateProfile where
  id := Sample.seven
  name := name
  host := "192.0.2.1"
  port := 443
  username := none
  password := none
  tofu := none
  common := ⟨none, none, none, none, none, none, none, none⟩
  udpgw := ⟨none, none, none, none⟩
  tls := ⟨none, none, none, none, none, none, none⟩
  method := none
  uuid := none
  encryption := none
  flow := none
  share := ⟨none, none, none⟩

def webSocketSettings (host : Option String) : VlessSettings :=
  ⟨"00000000-0000-0000-0000-000000000000", "none", "", "ws", "none", host, none, none, none, none,
    none, none⟩

/-- A VLESS profile over WebSocket, as a document may have it. -/
def vlessProfile (tlsHost : Option String) : ConnectionConfig :=
  { ConnectionConfig.newVless 7 0 "Home" "192.0.2.1" 443 "00000000-0000-0000-0000-000000000000" with
    tls := { TlsSettings.default with host := tlsHost }
    settings := .vless (webSocketSettings (some "cdn.example")) }

open Sample

/-- Both sections name one host. -/
theorem rename_framed :
    (updateSshProfile library (rename "Work")).run.Ensures exec Unused
      (fun r w' => r.isOk = true → ∃ new, w'.profiles.lookup 7 = some new ∧
        Framed (rename "Work") (vlessProfile (some "cdn.example")) new)
      (World.empty.store (vlessProfile (some "cdn.example"))) := by
  have hstep : InStep (rename "Work") (vlessProfile (some "cdn.example")) := by
    intro settings hsettings
    obtain rfl := ProtocolSettings.vless.inj hsettings
    exact ⟨fun _ => rfl, fun _ => rfl⟩
  have hupdate := update_framed_iff library
    (World.empty.store (vlessProfile (some "cdn.example"))) 7 (vlessProfile (some "cdn.example"))
    (rename "Work") rfl (World.lookup_store _) rfl rfl rfl
  refine hupdate.mono fun r w' h hok => ?_
  obtain ⟨new, hnew, hframed⟩ := h hok
  exact ⟨new, hnew, hframed.2 hstep⟩

theorem not_framed_of_lost_host {new : ConnectionConfig}
    (h : new.settings = .vless (webSocketSettings none)) :
    ¬ Framed (rename "Work") (vlessProfile none) new := by
  intro hframed
  have hkept := hframed.settings
  rw [h] at hkept
  have hkept : VlessKept (rename "Work") (webSocketSettings (some "cdn.example"))
      (webSocketSettings none) := hkept
  exact absurd (hkept.host rfl) (by decide)

/-- The profile is renamed, and the host of its settings is lost. -/
theorem rename_loses_vless_host :
    ∃ dto w' new, (updateSshProfile library (rename "Work")).run.runWith exec Unused
        (List.replicate 3 ⟨1, 0, none, .error Ssh.noZones⟩)
        (World.empty.store (vlessProfile none)) = some (.ok dto, w') ∧
      validateConnection (vlessProfile none) = .ok () ∧
      w'.profiles.lookup 7 = some new ∧
      ¬ Framed (rename "Work") (vlessProfile none) new := by
  have hvalid : validateConnection (vlessProfile none) = .ok () := by
    decide +kernel
  have hrun : ((updateSshProfile library (rename "Work")).run.runWith exec Unused
      (List.replicate 3 ⟨1, 0, none, .error Ssh.noZones⟩)
      (World.empty.store (vlessProfile none))).any (fun final => final.1.isOk &&
        (final.2.profiles.lookup 7).any fun cfg =>
          decide (cfg.settings = .vless (webSocketSettings none))) = true := by
    decide +kernel
  obtain ⟨⟨r, w'⟩, hrun, hend⟩ := (Option.any_eq_true _ _).1 hrun
  obtain ⟨hok, hrow⟩ := Bool.and_eq_true_iff.1 hend
  obtain ⟨new, hrow, hsettings⟩ := (Option.any_eq_true _ _).1 hrow
  cases r with
  | error e => cases hok
  | ok dto =>
    exact ⟨dto, w', new, hrun, hvalid, hrow, not_framed_of_lost_host (of_decide_eq_true hsettings)⟩

end Sample

end EasyConnection.Desktop
