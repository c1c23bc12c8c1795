import EasyConnection.Core.Rows
import EasyConnection.Desktop.Commands

/-! # The selected zone is one of the list

A zone of a Smart Config profile can be selected only from the list that is stored with it. A new
list replaces the old one and leaves the selection, so the selection stays known only as long as
the provider goes on offering it.
-/
namespace EasyConnection.Desktop
open Async Codec Config EasyConnection.Core Ssh

/-- The zone that a Smart Config profile has selected is in its list. -/
def KnownZone (cfg : ConnectionConfig) : Prop :=
  cfg.smartLinkSecret.isSome → ∀ z, cfg.selectedZone = some z →
    ∃ cache, cfg.zonesCache = some cache ∧ ∃ zone ∈ cache.zones, zone.id = z

/-- The part of a profile that says which zone is selected. -/
def zoneFields (cfg : ConnectionConfig) : Option SecretRef × Option String × Option ZonesCache :=
  (cfg.smartLinkSecret, cfg.selectedZone, cfg.zonesCache)

section Edits
variable {cfg cfg' : ConnectionConfig}

theorem KnownZone.congr (h : KnownZone cfg) (heq : zoneFields cfg' = zoneFields cfg) :
    KnownZone cfg' := by
  simp only [zoneFields, Prod.mk.injEq] at heq
  unfold KnownZone
  rw [heq.1, heq.2.1, heq.2.2]
  exact h

theorem knownZone_of_none (h : cfg.selectedZone = none) : KnownZone cfg := by
  intro _ z hz
  rw [h] at hz
  cases hz

theorem applyCommon_zoneFields {args : CommonArgs} (h : applyCommon cfg args = .ok cfg') :
    zoneFields cfg' = zoneFields cfg := by
  obtain ⟨mode, -, h⟩ := except_bind_eq_ok.1 h
  obtain rfl := Except.ok.inj h
  rfl

theorem applyTransportTls_zoneFields {args : TlsArgs} (h : applyTransportTls cfg args = .ok cfg') :
    zoneFields cfg' = zoneFields cfg := by
  obtain ⟨transport, -, h⟩ := except_bind_eq_ok.1 h
  obtain ⟨fingerprint, -, h⟩ := except_bind_eq_ok.1 h
  obtain rfl := Except.ok.inj h
  rfl

theorem moveTo_known (h : KnownZone cfg) (host : String) (port : UInt16) :
    KnownZone (moveTo cfg host port) := by
  unfold moveTo
  split_ifs
  · exact knownZone_of_none rfl
  · exact h.congr rfl

theorem edited_known {args : UpdateProfile} (hcfg : KnownZone cfg)
    (h : edited cfg args = .ok cfg') : KnownZone cfg' := by
  obtain ⟨cfg₁, hcommon, h⟩ := except_bind_eq_ok.1 h
  obtain ⟨cfg₂, htls, h⟩ := except_bind_eq_ok.1 h
  obtain rfl := Except.ok.inj h
  have h₁ := applyCommon_zoneFields hcommon
  have h₂ := applyTransportTls_zoneFields htls
  exact (moveTo_known hcfg args.host args.port).congr (h₂.trans h₁)

end Edits

/-- A list that an exchange comes to contains the zone that the profile has selected. -/
def Offers (J : JsonLibrary) (cfg : ConnectionConfig) : Op → Choice → Prop
  | .exchange _, c => ∀ z, cfg.selectedZone = some z → ∀ (req : ZoneFetchRequest) list,
      (c.response >>= req.receive J) = .ok list → ∃ zone ∈ list.zones, zone.id = z
  | _, _ => True

variable {w : World} {α : Type}

section Operations
variable {ok : Op → Choice → World → Prop} {cfg : ConnectionConfig}

theorem upsertOrForget_keeps [Texts] (h : KnownZone cfg) (secret : SecretRef) :
    KeepsRows ok KnownZone (fun _ => True) (upsertOrForget cfg secret) := by
  intro w hw
  refine (Prog.ensures_bind _ _).2 ((upsertProfile_keeps h w hw).mono ?_)
  rintro (e | u) w' ⟨hw', -⟩
  · intro c _
    exact ⟨hw'.congr (exec_sparesTable (o := .deleteSecret secret) trivial c w'), fun _ _ => trivial⟩
  · exact ⟨hw', fun _ _ => trivial⟩

theorem importSmartLink_keeps [Texts] (L : Core.Library) (link : String) :
    KeepsRows ok KnownZone (fun _ => True) (Core.importSmartLink L link) := by
  refine Prog.Maintains.bind (Prog.maintains_ret fun _ _ => trivial) fun smart _ => ?_
  split
  · exact Prog.maintains_throw _
  · refine (keeps_of_only (only_putSecret link)).bind fun secret _ => ?_
    refine newId_keeps.bind fun id _ => now_keeps.bind fun t _ => ?_
    refine (upsertOrForget_keeps (knownZone_of_none rfl) secret).bind fun _ _ => ?_
    exact Prog.maintains_pure trivial

/-- A copy has a link only if the original has one. -/
theorem cloneSecret_keeps [Texts] (old : Option SecretRef) :
    KeepsRows ok KnownZone (fun r => r.isSome → old.isSome) (cloneSecret old) := by
  cases old with
  | none => exact Prog.maintains_pure id
  | some old => exact (keeps_of_only (only_cloneSecret (some old))).mono fun _ _ _ => rfl

theorem duplicateProfile_keeps [Texts] (id : Uuid) :
    KeepsRows ok KnownZone (fun _ => True) (duplicateProfile id) := by
  refine (getProfile_keeps id).bind fun cfg hcfg => ?_
  refine newId_keeps.bind fun copyId _ => now_keeps.bind fun created _ => ?_
  refine (keeps_of_only (only_cloneAuth _)).bind fun auth _ => ?_
  refine (cloneSecret_keeps _).bind fun link hlink => ?_
  refine (upsertProfile_keeps ?_).bind fun _ _ => Prog.maintains_pure trivial
  exact fun hsome => hcfg (hlink hsome)

/-- A selection that is not refused is in the list. -/
theorem known_of_selected {selected : Option String}
    (h : ¬ selected.any (fun z =>
      !cfg.zonesCache.any fun cache => cache.zones.any fun zone => zone.id == z) = true)
    (t : Time) : KnownZone { cfg with selectedZone := selected, updatedAt := t } := by
  intro _ z hz
  change selected = some z at hz
  subst hz
  simp only [Option.any_some, Bool.not_eq_true', Bool.not_eq_false, Option.any_eq_true] at h
  obtain ⟨cache, hcache, hzones⟩ := h
  obtain ⟨zone, hzone, hid⟩ := List.any_eq_true.1 hzones
  exact ⟨cache, hcache, zone, hzone, eq_of_beq hid⟩

theorem refuse_keeps [Texts] {β : Type} (e : CoreError) (f : α → CoreM β) :
    KeepsRows ok KnownZone (fun _ => True) (throw e >>= f) := by
  have hthrow : KeepsRows ok KnownZone (fun _ : α => False) (throw e : CoreM α) :=
    Prog.maintains_throw e
  exact hthrow.bind fun _ h => h.elim

theorem setSelectedZone_keeps [Texts] (id : Uuid) (zoneId : Option String) :
    KeepsRows ok KnownZone (fun _ => True) (Core.setSelectedZone id zoneId) := by
  refine (getProfile_keeps id).bind fun cfg _ => ?_
  dsimp only
  split
  · exact refuse_keeps _ _
  split
  · split
    · exact refuse_keeps _ _
    · next hknown =>
      refine now_keeps.bind fun t _ => ?_
      refine (upsertProfile_keeps (known_of_selected hknown t)).bind fun _ _ => ?_
      exact Prog.maintains_pure trivial
  · split
    · exact refuse_keeps _ _
    · refine now_keeps.bind fun t _ => ?_
      refine (upsertProfile_keeps (knownZone_of_none rfl)).bind fun _ _ => ?_
      exact Prog.maintains_pure trivial

theorem exchange_keeps [Texts] {J : JsonLibrary} (req : ZoneHttpRequest)
    (hoffers : ∀ o c w, ok o c w → Offers J cfg o c) :
    KeepsRows ok KnownZone (fun answer => ∀ z, cfg.selectedZone = some z →
      ∀ (req : ZoneFetchRequest) list, (answer >>= req.receive J) = .ok list →
        ∃ zone ∈ list.zones, zone.id = z) (exchange req) := by
  intro w hw c hc
  exact ⟨hw, fun _ h => Except.ok.inj h ▸ hoffers _ c w hc⟩

theorem fetchFrom_keeps [Texts] {L : Core.Library} (smart : RocketSmartConfig)
    (hoffers : ∀ o c w, ok o c w → Offers L.json cfg o c) (hosts : List (RocketSmartHost × Bool)) :
    KeepsRows ok KnownZone (fun _ => True) (fetchFrom L cfg smart hosts) := by
  induction hosts with
  | nil => exact Prog.maintains_throw _
  | cons host rest ih =>
    refine (exchange_keeps _ hoffers).bind fun answer hanswer => ?_
    split
    · exact ih
    · next list hlist =>
      refine now_keeps.bind fun t _ => now_keeps.bind fun t' _ => ?_
      refine (upsertProfile_keeps ?_).bind fun _ _ => Prog.maintains_pure trivial
      exact fun _ z hz => ⟨_, rfl, hanswer z hz _ list hlist⟩

theorem fetchZones_keeps [Texts] {L : Core.Library} {id : Uuid} (hw : Rows KnownZone w)
    (hoffers : ∀ cfg, w.profiles.lookup id = some cfg → ∀ o c w', ok o c w' → Offers L.json cfg o c) :
    (Core.fetchZones L id).run.Ensures exec ok (fun _ w' => Rows KnownZone w') w := by
  refine Prog.ensures_of_then ((getProfile_row id).mono ?_)
  rintro (e | cfg) _ ⟨rfl, hrow⟩
  · exact hw
  apply KeepsRows.rows hw
  dsimp only
  split
  · exact Prog.maintains_throw _
  · refine (keeps_of_only (only_getSecret _)).bind fun link _ => ?_
    refine Prog.Maintains.bind (Prog.maintains_ret fun _ _ => trivial) fun smart _ => ?_
    exact fetchFrom_keeps smart (hoffers cfg (hrow cfg rfl)) smart.zoneHosts

end Operations

section Actions

/-- What the window and the controller's callers ask for. -/
inductive Action where
  | importSmartLink (link : String)
  | fetchZones (id : String)
  | setSelectedZone (id : String) (zoneId : Option String)
  | updateSshProfile (args : UpdateProfile)
  | duplicateProfile (id : Uuid)
  deriving DecidableEq

variable (L : Library)

def Action.program [Texts] : Action → CommandM ProfileDto
  | .importSmartLink link => Desktop.importSmartLink L link
  | .fetchZones id => Desktop.fetchZones L id
  | .setSelectedZone id zoneId => Desktop.setSelectedZone L id zoneId
  | .updateSshProfile args => Desktop.updateSshProfile L args
  | .duplicateProfile id => do return toDto (← ofCore (Core.duplicateProfile id))

/-- An action from its first access to its last, whether it succeeds or not. -/
def act [Texts] (w : World) (e : Action × List Choice) : Option World :=
  ((e.1.program L).run.runWith exec Unused e.2 w).map Prod.snd

/-- A list that an action receives for a profile contains the zone that the profile has
selected. -/
def OffersSelected (w : World) (a : Action) (o : Op) (c : Choice) : Prop :=
  match a with
  | .fetchZones id => ∀ u cfg, L.parseUuid id = .ok u → w.profiles.lookup u = some cfg →
      Offers L.core.json cfg o c
  | _ => True

def Offered [Texts] (w : World) (e : Action × List Choice) : Prop :=
  (e.1.program L).run.Along exec (OffersSelected L w e.1) e.2 w

end Actions

section Runs
variable [Texts] {L : Library} {ok : Op → Choice → World → Prop}

theorem ofCore_keeps {good : α → Prop} {x : CoreM α} (h : KeepsRows ok KnownZone good x) :
    KeepsRows ok KnownZone good (ofCore x) :=
  h.mapError _

theorem ofExcept_keeps (r : Except String α) :
    KeepsRows ok KnownZone (fun a => r = .ok a) (ofExcept r) := by
  refine Prog.maintains_ret fun a ha => ?_
  cases r with
  | error e => cases ha
  | ok b => exact congrArg Except.ok (Except.ok.inj ha)

theorem updateSshProfile_keeps (args : UpdateProfile) :
    KeepsRows ok KnownZone (fun _ => True) (updateSshProfile L args) := by
  refine (ofExcept_keeps _).bind fun id _ => ?_
  refine (ofCore_keeps (getProfile_keeps id)).bind fun cfg hcfg => ?_
  refine (ofExcept_keeps _).bind fun cfg' hedited => ?_
  have hcfg' := edited_known hcfg hedited
  refine (ofCore_keeps (saveProfile_keeps fun t => hcfg'.congr rfl)).bind fun stored _ => ?_
  split
  · next password _ =>
    have hpassword : KeepsRows ok KnownZone KnownZone (setPasswordSecret id password) :=
      setPasswordSecret_keeps id password fun _ _ _ h => h.congr rfl
    exact (ofCore_keeps hpassword).bind fun _ _ => Prog.maintains_pure trivial
  · exact Prog.maintains_pure trivial

theorem shown_keeps {good : α → Prop} {x : CoreM α} (h : KeepsRows ok KnownZone good x)
    (f : α → ProfileDto) : KeepsRows ok KnownZone (fun _ => True) (do return f (← ofCore x)) :=
  (ofCore_keeps h).bind fun _ _ => Prog.maintains_pure trivial

theorem fetchZones_known (hw : Rows KnownZone w) (id : String)
    (hoffers : ∀ u cfg, L.parseUuid id = .ok u → w.profiles.lookup u = some cfg →
      ∀ o c w', ok o c w' → Offers L.core.json cfg o c) :
    (fetchZones L id).run.Ensures exec ok (fun _ w' => Rows KnownZone w') w := by
  refine Prog.ensures_of_then ?_
  cases hid : L.parseUuid id with
  | error e => exact hw
  | ok u =>
    have hfetch := fetchZones_keeps hw fun cfg => hoffers u cfg hid
    refine Prog.ensures_of_then ((Prog.ensures_bind _ _).2 (hfetch.mono fun r w' hw' => ?_))
    cases r with
    | error e => exact hw'
    | ok cache => exact (shown_keeps (getProfile_keeps u) toDto w' hw').mono fun _ _ h => h.1

/-- One action keeps all selected zones known, if what it receives offers them. -/
theorem program_known (hw : Rows KnownZone w) (a : Action) :
    (a.program L).run.Ensures exec (fun o c w' => Unused o c w' ∧ OffersSelected L w a o c)
      (fun _ w' => Rows KnownZone w') w := by
  cases a with
  | importSmartLink link =>
    exact (shown_keeps (importSmartLink_keeps L.core link) toDto w hw).mono fun _ _ h => h.1
  | fetchZones id => exact fetchZones_known hw id fun u cfg hid hrow _ _ _ hc => hc.2 u cfg hid hrow
  | setSelectedZone id zoneId =>
    have hselect : KeepsRows (fun o c w' => Unused o c w' ∧
        OffersSelected L w (.setSelectedZone id zoneId) o c) KnownZone (fun _ => True)
        (setSelectedZone L id zoneId) :=
      (ofExcept_keeps _).bind fun u _ => shown_keeps (setSelectedZone_keeps u zoneId) toDto
    exact (hselect w hw).mono fun _ _ h => h.1
  | updateSshProfile args => exact (updateSshProfile_keeps args w hw).mono fun _ _ h => h.1
  | duplicateProfile id =>
    exact (shown_keeps (duplicateProfile_keeps id) toDto w hw).mono fun _ _ h => h.1

theorem act_known {w' : World} {e : Action × List Choice} (hw : Rows KnownZone w)
    (hoffered : Offered L w e) (hact : act L w e = some w') : Rows KnownZone w' := by
  obtain ⟨⟨r, w₁⟩, hrun, rfl⟩ := Option.map_eq_some_iff.1 hact
  have hknown := Prog.Ensures.runWith_of_along (program_known hw e.1) hoffered hrun
  exact hknown

end Runs

/-- From a table in which every selected zone of a Smart Config profile is known, each sequence of
actions in which every list received offers the zone that its profile has selected leads to such
a table. -/
theorem selected_zone_known [Texts] (L : Library) (w w' : World) (es : List (Action × List Choice))
    (hw : Rows KnownZone w) (hoffered : Meets (act L) (Offered L) w es)
    (hrun : run (act L) w es = some w') : Rows KnownZone w' :=
  run_invariant (fun _ _ _ hs hok hstep => act_known hs hok hstep) hw hoffered hrun

section Sample

def germany : List UInt8 := Sample.jsonBytes (Sample.zonesJson ["de4"])

def america : List UInt8 := Sample.jsonBytes (Sample.zonesJson ["us2"])

/-- A number of accesses without a fault, in which the provider gives one answer. -/
def answering (body : List UInt8) (n : ℕ) : List Choice := List.replicate n ⟨1, 7, none, .ok ⟨200, body⟩⟩

def chosenProfile : ConnectionConfig :=
  { ConnectionConfig.newSmart 7 0 "Smart" "192.0.2.1" 443 ⟨"sec_link"⟩ with
    zonesCache := some ⟨none, [⟨"de4", "de4", some "DE"⟩], 0, false⟩
    selectedZone := some "de4" }

def chosenWorld : World := (World.empty.put ⟨"sec_link"⟩ Sample.smartLink).store chosenProfile

theorem chosenProfile_known : KnownZone chosenProfile := by
  intro _ z hz
  obtain rfl := Option.some.inj hz
  exact ⟨_, rfl, _, List.mem_singleton_self _, rfl⟩

theorem chosenProfile_offered (o : Op) : Offers Sample.library.core.json chosenProfile o
    ⟨1, 7, none, .ok ⟨200, germany⟩⟩ := by
  have hparsed : parseZoneList Sample.library.core.json germany =
      .ok ⟨none, [⟨"de4", "de4", some "DE"⟩], false⟩ := by
    decide +kernel
  cases o with
  | exchange _ =>
    intro z hz req list hlist
    obtain rfl := Option.some.inj hz
    change (parseZoneList Sample.library.core.json germany >>= fun list =>
      pure { list with https := req.https }) = .ok list at hlist
    rw [hparsed] at hlist
    obtain rfl := Except.ok.inj hlist
    exact ⟨_, List.mem_singleton_self _, rfl⟩
  | _ => trivial

open Sample

/-- A new list with the selected zone. -/
theorem zone_known_after_refresh : ∃ w', run (act library) chosenWorld
    [(.fetchZones seven, answering germany 7)] = some w' ∧ Rows KnownZone w' := by
  have hrun : (run (act library) chosenWorld
      [(.fetchZones seven, answering germany 7)]).isSome = true := by
    decide +kernel
  obtain ⟨w', hrun⟩ := Option.isSome_iff_exists.1 hrun
  refine ⟨w', hrun, selected_zone_known library chosenWorld w'
    [(.fetchZones seven, answering germany 7)] ?_ ⟨?_, ?_⟩ hrun⟩
  · exact Rows.store (Rows.congr rows_empty rfl) chosenProfile_known
  · refine Prog.along_of_forall fun c hc o u cfg hid hrow => ?_
    obtain rfl := Except.ok.inj hid
    obtain rfl := Option.some.inj (World.lookup_store chosenProfile ▸ hrow)
    obtain rfl := List.eq_of_mem_replicate hc
    exact chosenProfile_offered o
  · cases act library chosenWorld (.fetchZones seven, answering germany 7) <;> trivial

/-- The zone is selected from one list, and the next list does not have it any more. -/
theorem zone_unknown_after_refresh : ∃ w' cfg, run (act library) .empty
      [(.importSmartLink smartLink, answering [] 4), (.fetchZones seven, answering germany 7),
        (.setSelectedZone seven (some "de4"), answering [] 3), (.fetchZones seven, answering america 7)] =
      some w' ∧
    w'.profiles.lookup 7 = some cfg ∧ cfg.smartLinkSecret.isSome = true ∧
    cfg.selectedZone = some "de4" ∧
    (cfg.zonesCache.map fun cache => cache.zones.map ZoneInfo.id) = some ["us2"] := by
  have hrun : (run (act library) .empty
      [(.importSmartLink smartLink, answering [] 4), (.fetchZones seven, answering germany 7),
        (.setSelectedZone seven (some "de4"), answering [] 3),
        (.fetchZones seven, answering america 7)]).any (fun w => (w.profiles.lookup 7).any fun cfg =>
      cfg.smartLinkSecret.isSome && decide (cfg.selectedZone = some "de4") &&
        decide ((cfg.zonesCache.map fun cache => cache.zones.map ZoneInfo.id) = some ["us2"])) =
      true := by
    decide +kernel
  obtain ⟨w', hrun, hrow⟩ := (Option.any_eq_true _ _).1 hrun
  obtain ⟨cfg, hrow, hcfg⟩ := (Option.any_eq_true _ _).1 hrow
  simp only [Bool.and_eq_true, decide_eq_true_eq] at hcfg
  exact ⟨w', cfg, hrun, hrow, hcfg.1.1, hcfg.1.2, hcfg.2⟩

end Sample

end EasyConnection.Desktop
