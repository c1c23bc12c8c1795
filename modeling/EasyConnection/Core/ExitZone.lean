import EasyConnection.Core.Contracts

/-! # The exit zone that is asked for

A zone can be selected if it is in the list that the provider has sent. The request for the
tunnel's configuration leaves out an id that is not printable ASCII without blanks, and is then
the one for the automatic exit.
-/
namespace EasyConnection.Core
open Async Codec Config Secrets Ssh

/-- The request is the one for the automatic exit with a header line for the zone. -/
def CarriesZone (req : ZoneHttpRequest) (zone : String) : Prop :=
  ∃ before after, httpRequest { req with zoneId := none } = before ++ "\r\n" ++ after ∧
    httpRequest req = before ++ "\r\n" ++ ("X-Zone-Id: " ++ zone ++ "\r\n") ++ after

section Header
variable {zone : String}

theorem zoneHeader_of_graphic (htrim : trimmed zone = zone) (hne : zone ≠ "")
    (h : zone.toList.all isAsciiGraphic = true) :
    zoneHeader (some zone) = "X-Zone-Id: " ++ zone ++ "\r\n" := by
  simp [zoneHeader, htrim, Option.filter_some, hne, h]

theorem zoneHeader_of_not_graphic (htrim : trimmed zone = zone)
    (h : ¬ zone.toList.all isAsciiGraphic = true) : zoneHeader (some zone) = "" := by
  simp [zoneHeader, htrim, Option.filter_some, h]

theorem requestLines_ends (req : ZoneHttpRequest) :
    ∃ before, req.requestLines = before ++ "\r\n" := by
  have hlast : "\r\nAccept: */*\r\n" = "\r\nAccept: */*" ++ "\r\n" := by decide
  exact ⟨_, by rw [ZoneHttpRequest.requestLines, hlast, ← String.append_assoc]⟩

theorem carriesZone_iff (req : ZoneHttpRequest) (htrim : trimmed zone = zone) (hne : zone ≠ "") :
    CarriesZone { req with zoneId := some zone } zone ↔ zone.toList.all isAsciiGraphic = true := by
  constructor
  · rintro ⟨before, after, hauto, hzone⟩
    by_contra h
    simp only [httpRequest, zoneHeader_of_not_graphic htrim h] at hauto hzone
    have hlength := congrArg String.length (hauto.symm.trans hzone)
    have hname : "X-Zone-Id: ".length = 11 := rfl
    simp only [String.length_append] at hlength
    omega
  · intro h
    obtain ⟨before, hlines⟩ := requestLines_ends req
    refine ⟨before, req.content, ?_, ?_⟩
    · change req.requestLines ++ "" ++ req.content = _
      rw [hlines, String.append_empty]
    · change req.requestLines ++ zoneHeader (some zone) ++ req.content = _
      rw [hlines, zoneHeader_of_graphic htrim hne h]

end Header

/-- A zone that is accepted is in the list of the profile that is stored with it. -/
theorem setSelectedZone_runs [Texts] {w : World} {id : Uuid} {zone : String}
    (hzone : trimmed zone ≠ "") :
    Runs (fun r w' => ∀ stored, r = .ok stored → ∃ cfg, w.profiles.lookup id = some cfg ∧
        w' = w.store stored ∧ stored.id = cfg.id ∧ stored.selectedZone = some (trimmed zone) ∧
        cfg.zonesCache.any fun cache => cache.zones.any fun z => z.id == trimmed zone)
      (setSelectedZone id (some zone)) w := by
  have hselected : (Option.map trimmed (some zone)).filter (· ≠ "") = some (trimmed zone) := by
    simp [Option.filter_some, hzone]
  refine Prog.ensures_of_then (getProfile_runs (fun cfg hcfg => ?_) fun _ _ h => (nomatch h))
  simp only [Prog.Then, hselected]
  split
  · exact fun _ h => (nomatch h)
  · split
    · split
      · exact fun _ h => (nomatch h)
      · next hcache =>
        refine Prog.ensures_of_then (now_runs fun t => ?_)
        refine Prog.ensures_of_then (upsertProfile_runs (fun _ stored h => ?_)
          fun _ _ h => (nomatch h))
        obtain rfl := Except.ok.inj h
        refine ⟨cfg, hcfg, rfl, rfl, rfl, ?_⟩
        simpa using hcache
    · split
      · exact fun _ h => (nomatch h)
      · next h => exact absurd rfl h

/-- For every list that a provider can send and every zone of it that can be selected, the request
for the tunnel's configuration asks for that zone exactly if its id is printable ASCII without
blanks. -/
theorem selected_zone_sent_iff [Texts] (L : Library) {body : List UInt8} {list : ZoneList}
    (hlist : parseZoneList L.json body = .ok list) {w w' : World} {id : Uuid}
    {cfg : ConnectionConfig} (hcfg : w.profiles.lookup id = some cfg) {fetchedAt : Time}
    {https : Bool} (hcache : cfg.zonesCache = some ⟨list.hash, list.zones, fetchedAt, https⟩)
    {zone : String} (hzone : trimmed zone ≠ "") {cs : List Choice} {reply : Reply}
    (haccept : w.perform L (.setSelectedZone id (some zone)) cs = some (.ok reply, w'))
    (host : String) (port : UInt16) (path : String) (secure : Bool) :
    ∃ stored, w'.profiles.lookup cfg.id = some stored ∧
      stored.selectedZone = some (trimmed zone) ∧
      (CarriesZone (smartConfigRequest host port path secure stored.selectedZone) (trimmed zone) ↔
        (trimmed zone).toList.all isAsciiGraphic = true) := by
  have hruns : ((Request.setSelectedZone id (some zone)).program L).Ensures exec Unused
      (fun r w' => ∀ reply, r = .ok reply → ∃ stored, ∃ cfg, w.profiles.lookup id = some cfg ∧
        w' = w.store stored ∧ stored.id = cfg.id ∧ stored.selectedZone = some (trimmed zone) ∧
        cfg.zonesCache.any fun cache => cache.zones.any fun z => z.id == trimmed zone) w := by
    refine runs_map ((setSelectedZone_runs hzone).mono fun r w' h reply hr => ?_)
    cases r with
    | error e => cases hr
    | ok stored => exact ⟨stored, h stored rfl⟩
  obtain ⟨stored, cfg', hcfg', rfl, hid, hselected, hany⟩ := hruns.runWith haccept reply rfl
  obtain rfl := Option.some.inj (hcfg.symm.trans hcfg')
  refine ⟨stored, hid ▸ World.lookup_store stored, hselected, ?_⟩
  rw [hcache] at hany
  obtain ⟨z, hz, hzid⟩ := List.any_eq_true.1 hany
  have hids := parseZoneList_id hlist hz
  rw [eq_of_beq hzid] at hids
  rw [hselected]
  exact carriesZone_iff (smartConfigRequest host port path secure none) hids.1 hids.2

section Sample

def zonesLibrary : Library := Sample.coreLibrary []

def zonesBody : List UInt8 := Sample.jsonBytes (Sample.zonesJson ["de4", "New York"])

def twoZones : ZoneList := ⟨none, [⟨"de4", "de4", some "DE"⟩, ⟨"New York", "New York", none⟩], false⟩

theorem twoZones_parsed : parseZoneList zonesLibrary.json zonesBody = .ok twoZones := by
  decide +kernel

def zonedProfile : ConnectionConfig :=
  { ConnectionConfig.newSmart 7 0 "Smart" "192.0.2.1" 443 ⟨"sec_link"⟩ with
    zonesCache := some ⟨twoZones.hash, twoZones.zones, 0, true⟩ }

def zonedWorld : World := World.empty.store zonedProfile

/-- The three accesses of an operation that succeeds. -/
def quietly : List Choice := List.replicate 3 ⟨1, 0, none, .error noZones⟩

open Sample

theorem plain_zone_sent :
    ∃ reply w' stored,
      zonedWorld.perform zonesLibrary (.setSelectedZone 7 (some "de4")) quietly =
        some (.ok reply, w') ∧
      w'.profiles.lookup 7 = some stored ∧ stored.selectedZone = some "de4" ∧
      CarriesZone (smartConfigRequest "192.0.2.1" 443 "/" true stored.selectedZone) "de4" := by
  have hend : (zonedWorld.perform zonesLibrary (.setSelectedZone 7 (some "de4")) quietly).any
      (fun x => x.1.isOk) = true := by
    decide +kernel
  obtain ⟨⟨r, w'⟩, haccept, hr⟩ := (Option.any_eq_true _ _).1 hend
  cases r with
  | error e => cases hr
  | ok reply =>
    obtain ⟨stored, hstored, hselected, hiff⟩ := selected_zone_sent_iff zonesLibrary twoZones_parsed
      (World.lookup_store zonedProfile) rfl (by decide) haccept "192.0.2.1" 443 "/" true
    exact ⟨reply, w', stored, haccept, hstored, hselected, hiff.2 (by decide)⟩

/-- A zone with a blank in its id is listed, selected and stored, and the request is the one for
the automatic exit. -/
theorem spaced_zone_dropped :
    parseZoneList zonesLibrary.json zonesBody = .ok twoZones ∧
    ∃ reply w' stored,
      zonedWorld.perform zonesLibrary (.setSelectedZone 7 (some "New York")) quietly =
        some (.ok reply, w') ∧
      w'.profiles.lookup 7 = some stored ∧ stored.selectedZone = some "New York" ∧
      httpRequest (smartConfigRequest "192.0.2.1" 443 "/" true stored.selectedZone) =
        httpRequest (smartConfigRequest "192.0.2.1" 443 "/" true none) := by
  have hend : (zonedWorld.perform zonesLibrary (.setSelectedZone 7 (some "New York")) quietly).any
      (fun x => x.1.isOk && (x.2.profiles.lookup 7).any fun stored =>
        stored.selectedZone == some "New York") = true := by
    decide +kernel
  refine ⟨twoZones_parsed, ?_⟩
  obtain ⟨⟨r, w'⟩, haccept, h⟩ := (Option.any_eq_true _ _).1 hend
  obtain ⟨hr, hstored⟩ := Bool.and_eq_true_iff.1 h
  obtain ⟨stored, hstored, hselected⟩ := (Option.any_eq_true _ _).1 hstored
  cases r with
  | error e => cases hr
  | ok reply =>
    refine ⟨reply, w', stored, haccept, hstored, eq_of_beq hselected, ?_⟩
    rw [eq_of_beq hselected]
    decide

end Sample

end EasyConnection.Core
