import EasyConnection.Async.Serial
import EasyConnection.Core.Contracts
import Mathlib.Data.Fintype.Basic

/-! # Operations on one profile at a time

`fetch_zones` reads a profile, waits for the provider and stores the whole profile again. The
other operations also read, change and store. Their accesses are interleaved with those of any
other operation.
-/
namespace EasyConnection.Core
open Async Codec Config Secrets Ssh

/-- What an access does with the stores. An id is drawn that is in use nowhere, which takes a look
at them; the clock and the provider take none. -/
def Op.effect : Op → Effect
  | .now | .exchange _ => .none
  | .newId | .getProfile _ | .getSecret _ => .reads
  | _ => .writes

theorem exec_of_reads [Texts] (o : Op) (c : Choice) (w : World) (h : o.effect ≠ .writes) :
    (exec o c w).1 = w := by
  cases o with
  | getProfile id =>
    simp only [exec]
    split <;> rfl
  | getSecret ref =>
    simp only [exec]
    split
    · rfl
    · unfold World.vaultCall
      cases c.fault <;> rfl
  | now | newId | exchange _ => rfl
  | _ => cases h rfl

theorem exec_of_none [Texts] (o : Op) (c : Choice) (w w' : World) (h : o.effect = .none) :
    (exec o c w).2 = (exec o c w').2 ∧ (Unused o c w → Unused o c w') := by
  cases o with
  | now | exchange _ => exact ⟨rfl, id⟩
  | _ => cases h

def controller [Texts] (L : Library) :
    Service Request Op Ans (Except CoreError Reply) Choice World where
  program := Request.program L
  exec := exec
  ok := Unused
  decidableOk := inferInstance
  effect := Op.effect
  exec_of_reads := exec_of_reads
  exec_of_none := exec_of_none

/-- The operations that change one profile. -/
def Request.edits (id : Uuid) : Request → Bool
  | .saveProfile cfg => cfg.id = id
  | .deleteProfile id' => id' = id
  | .setPasswordSecret id' _ => id' = id
  | .fetchZones id' => id' = id
  | .setSelectedZone id' _ => id' = id
  | _ => false

/-- The part of a profile that only `save_profile` changes. -/
def edited (cfg : ConnectionConfig) : ConnectionConfig :=
  { cfg with authentication := .none, selectedZone := none, zonesCache := none, updatedAt := 0 }

section Rows
variable {w : World} {id : Uuid}

/-- The operation has stored the profile it has read, at most with another authentication, zone or
list of zones. -/
def Rewrites (id : Uuid) (w w' : World) : Prop :=
  w'.profiles = w.profiles ∨
    ∃ cfg cfg', w.profiles.lookup id = some cfg ∧ cfg'.id = cfg.id ∧ edited cfg' = edited cfg ∧
      w'.profiles = (w.store cfg').profiles

theorem upsertProfile_rewrites [Texts] {α : Type} {a : α} {cfg cfg' : ConnectionConfig} {w₁ : World}
    (hcfg : w.profiles.lookup id = some cfg) (hw₁ : w₁.profiles = w.profiles)
    (hid : cfg'.id = cfg.id) (hedited : edited cfg' = edited cfg) :
    Runs (fun _ w' => Rewrites id w w') (do upsertProfile cfg'; return a) w₁ := by
  refine Prog.ensures_of_then (upsertProfile_runs (fun _ => .inr ⟨cfg, cfg', hcfg, hid, hedited, ?_⟩)
    fun _ => .inl hw₁)
  simp only [World.store, hw₁]

theorem setPasswordSecret_rewrites [Texts] (password : String) :
    Runs (fun _ w' => Rewrites id w w') (setPasswordSecret id password) w := by
  refine setPasswordSecret_runs (fun cfg r t w₁ hcfg hw₁ => ?_) fun _ w₁ hw₁ => .inl hw₁
  refine .inr ⟨cfg, { cfg with authentication := .password (some r), updatedAt := t }, hcfg, rfl, rfl,
    ?_⟩
  simp only [World.store, hw₁]

theorem setSelectedZone_rewrites [Texts] (zoneId : Option String) :
    Runs (fun _ w' => Rewrites id w w') (setSelectedZone id zoneId) w := by
  refine Prog.ensures_of_then (getProfile_runs (fun cfg hcfg => ?_) fun _ => .inl rfl)
  dsimp only [Prog.Then]
  split
  · exact .inl rfl
  · split
    · split
      · exact .inl rfl
      · exact Prog.ensures_of_then
          (now_runs fun _ => upsertProfile_rewrites hcfg rfl (by rfl) (by rfl))
    · split
      · exact .inl rfl
      · exact Prog.ensures_of_then
          (now_runs fun _ => upsertProfile_rewrites hcfg rfl (by rfl) (by rfl))

theorem fetchFrom_rewrites [Texts] {L : Library} {cfg : ConnectionConfig}
    {smart : RocketSmartConfig} (hosts : List (RocketSmartHost × Bool))
    (hcfg : w.profiles.lookup id = some cfg) :
    Runs (fun _ w' => Rewrites id w w') (fetchFrom L cfg smart hosts) w := by
  induction hosts with
  | nil => exact .inl rfl
  | cons host rest ih =>
    refine Prog.ensures_of_then (exchange_runs fun answer => ?_)
    dsimp only [Prog.Then]
    split
    · exact ih
    · refine Prog.ensures_of_then (now_runs fun _ => ?_)
      exact Prog.ensures_of_then
        (now_runs fun _ => upsertProfile_rewrites hcfg rfl (by rfl) (by rfl))

theorem fetchZones_rewrites [Texts] (L : Library) :
    Runs (fun _ w' => Rewrites id w w') (fetchZones L id) w := by
  refine Prog.ensures_of_then (getProfile_runs (fun cfg hcfg => ?_) fun _ => .inl rfl)
  dsimp only [Prog.Then]
  split
  · exact .inl rfl
  · refine Prog.ensures_of_then (getSecret_runs (fun link _ => ?_) fun _ => .inl rfl)
    refine Prog.ensures_of_then (check_runs (fun smart _ => ?_) fun _ => .inl rfl)
    exact fetchFrom_rewrites smart.zoneHosts hcfg

def NoRow (id : Uuid) (w : World) : Prop := w.profiles.lookup id = none

/-- The profile is stored, and this is what only `save_profile` changes of it. -/
def HasRow (id : Uuid) (body : ConnectionConfig) (w : World) : Prop :=
  ∃ cfg, w.profiles.lookup id = some cfg ∧ cfg.id = id ∧ edited cfg = body

theorem Rewrites.noRow {w' : World} (h : Rewrites id w w') (hw : NoRow id w) : NoRow id w' := by
  unfold NoRow at hw ⊢
  obtain h | ⟨cfg, cfg', hcfg, -⟩ := h
  · rw [h, hw]
  · cases hw.symm.trans hcfg

theorem Rewrites.hasRow {w' : World} {body : ConnectionConfig} (h : Rewrites id w w')
    (hw : HasRow id body w) : HasRow id body w' := by
  obtain ⟨cfg, hcfg, hid, hbody⟩ := hw
  obtain h | ⟨cfg₁, cfg', hcfg₁, hid', hedited, h⟩ := h
  · exact ⟨cfg, by rw [h, hcfg], hid, hbody⟩
  · obtain rfl := Option.some.inj (hcfg.symm.trans hcfg₁)
    have hrow : w'.profiles.lookup cfg'.id = some cfg' := by rw [h, World.lookup_store]
    rw [hid', hid] at hrow
    exact ⟨cfg', hrow, hid'.trans hid, hedited.trans hbody⟩

theorem deleteProfile_noRow [Texts] :
    Runs (fun r w' => (r.isOk = true → NoRow id w') ∧ (NoRow id w → NoRow id w')) (deleteProfile id)
      w := by
  have hfails (e : CoreError) : ((.error e : Except CoreError Unit).isOk = true → NoRow id w) ∧
      (NoRow id w → NoRow id w) := ⟨fun h => (nomatch h), fun h => h⟩
  have hgone : NoRow id (w.drop id) := World.lookup_drop id
  refine Prog.ensures_of_then (getProfile_runs (fun cfg _ => ?_) fun _ => hfails _)
  refine Prog.ensures_of_then (deleteRow_runs ?_ hfails)
  dsimp only [Prog.Then]
  split
  · exact deleteSecret_runs ⟨fun _ => hgone, fun _ => hgone⟩ fun _ => ⟨fun _ => hgone, fun _ => hgone⟩
  · exact ⟨fun _ => hgone, fun _ => hgone⟩

end Rows

section Requests
variable {L : Library} {w : World} {id : Uuid} {req : Request}

def Request.isSave : Request → Bool
  | .saveProfile _ => true
  | _ => false

def Request.isDelete : Request → Bool
  | .deleteProfile _ => true
  | _ => false

/-- An operation other than a save or a deletion rewrites the profile at most. -/
theorem program_keeps [Texts] {P : World → Prop} (hreq : req.edits id = true) (hw : P w)
    (hrewrites : ∀ w', Rewrites id w w' → P w')
    (hdelete : req = .deleteProfile id → (req.program L).Ensures exec Unused (fun _ w' => P w') w) :
    (req.program L).Ensures exec Unused
      (fun r w' => P w' ∨ req.isSave = true ∧ r.isOk = true) w := by
  cases req with
  | saveProfile cfg =>
    exact runs_map (saveProfile_runs (fun _ => .inr ⟨rfl, rfl⟩) fun _ => .inl hw)
  | deleteProfile id' =>
    obtain rfl : id' = id := of_decide_eq_true hreq
    exact (hdelete rfl).mono fun _ _ => .inl
  | setPasswordSecret id' password =>
    obtain rfl : id' = id := of_decide_eq_true hreq
    exact runs_map ((setPasswordSecret_rewrites password).mono fun _ w' h => .inl (hrewrites w' h))
  | fetchZones id' =>
    obtain rfl : id' = id := of_decide_eq_true hreq
    exact runs_map ((fetchZones_rewrites L).mono fun _ w' h => .inl (hrewrites w' h))
  | setSelectedZone id' zoneId =>
    obtain rfl : id' = id := of_decide_eq_true hreq
    exact runs_map ((setSelectedZone_rewrites zoneId).mono fun _ w' h => .inl (hrewrites w' h))
  | _ => cases hreq

/-- Only a save brings back a profile that is not there. -/
theorem program_noRow [Texts] (hreq : req.edits id = true) (hw : NoRow id w) :
    (req.program L).Ensures exec Unused
      (fun r w' => NoRow id w' ∨ req.isSave = true ∧ r.isOk = true) w := by
  refine program_keeps hreq hw (fun _ h => h.noRow hw) fun h => ?_
  subst h
  exact runs_map (deleteProfile_noRow.mono fun _ _ h => h.2 hw)

/-- Only a save changes more of a profile than its authentication and its zones. -/
theorem program_hasRow [Texts] {body : ConnectionConfig} (hreq : req.edits id = true)
    (hdelete : req.isDelete = false) (hw : HasRow id body w) :
    (req.program L).Ensures exec Unused
      (fun r w' => HasRow id body w' ∨ req.isSave = true ∧ r.isOk = true) w := by
  refine program_keeps hreq hw (fun _ h => h.hasRow hw) fun h => ?_
  subst h
  cases hdelete

theorem saveProfile_hasRow [Texts] {cfg : ConnectionConfig} (hid : cfg.id = id) :
    ((Request.saveProfile cfg).program L).Ensures exec Unused
      (fun r w' => ∀ stored, r = .ok (.profile stored) → HasRow id (edited stored) w') w := by
  refine runs_map (saveProfile_runs (fun t stored hr => ?_) fun _ _ hr => (nomatch hr))
  obtain rfl : saved cfg t = stored := Reply.profile.inj (Except.ok.inj hr)
  exact ⟨saved cfg t, hid ▸ World.lookup_store (saved cfg t), hid, rfl⟩

end Requests

section Orders
variable {ι : Type} {L : Library} {w w' : World} {id : Uuid}
  {order : Order ι Request (Except CoreError Reply) World}

theorem noRow_of_deleted [Texts] (h : (controller L).Serial w order w')
    (hedits : ∀ x ∈ order.map Prod.fst, x.2.1.edits id = true)
    (hsaves : ∀ x ∈ order.map Prod.fst, x.2.1.isSave = true → x.2.2.isOk = false)
    (hdeleted : ∃ x ∈ order.map Prod.fst, x.2.1 = .deleteProfile id ∧ x.2.2.isOk = true) :
    NoRow id w' := by
  induction h with
  | nil =>
    obtain ⟨x, hx, -⟩ := hdeleted
    cases hx
  | @snoc done w₁ w₂ i req cs r before last ih =>
    rw [List.map_append] at hedits hsaves hdeleted
    obtain ⟨x, hx, hdelete, hok⟩ := hdeleted
    obtain hx | hx := List.mem_append.1 hx
    · have hw₁ := ih (fun x hx => hedits x (List.mem_append_left _ hx))
        (fun x hx => hsaves x (List.mem_append_left _ hx)) ⟨x, hx, hdelete, hok⟩
      have hlast := List.mem_append_right (done.map Prod.fst) (List.mem_singleton_self (i, req, r))
      obtain h | ⟨hsave, hr⟩ := (program_noRow (hedits _ hlast) hw₁).runWith last
      · exact h
      · exact absurd hr (by rw [hsaves _ hlast hsave]; decide)
    · obtain rfl := List.mem_singleton.1 hx
      subst hdelete
      have hruns : ((Request.deleteProfile id).program L).Ensures exec Unused
          (fun r w' => r.isOk = true → NoRow id w') w₁ :=
        runs_map (deleteProfile_noRow.mono fun r _ h hr => h.1 (by cases r <;> exact hr))
      exact hruns.runWith last hok

theorem hasRow_of_saved [Texts] (h : (controller L).Serial w order w') {i : ι}
    {cfg stored : ConnectionConfig} (hedits : ∀ x ∈ order.map Prod.fst, x.2.1.edits id = true)
    (hdeletes : ∀ x ∈ order.map Prod.fst, x.2.1.isDelete = false)
    (hsaved : (i, .saveProfile cfg, .ok (.profile stored)) ∈ order.map Prod.fst)
    (hsaves : ∀ x ∈ order.map Prod.fst, x ≠ (i, .saveProfile cfg, .ok (.profile stored)) →
      x.2.1.isSave = true → x.2.2.isOk = false) : HasRow id (edited stored) w' := by
  induction h with
  | nil => cases hsaved
  | @snoc done w₁ w₂ j req cs r before last ih =>
    rw [List.map_append] at hedits hdeletes hsaved hsaves
    have hlast := List.mem_append_right (done.map Prod.fst) (List.mem_singleton_self (j, req, r))
    by_cases heq : (j, req, r) = (i, .saveProfile cfg, .ok (.profile stored))
    · cases heq
      exact (saveProfile_hasRow (L := L) (of_decide_eq_true (hedits _ hlast))).runWith last stored rfl
    · have hdone : (i, .saveProfile cfg, .ok (.profile stored)) ∈ done.map Prod.fst := by
        obtain h | h := List.mem_append.1 hsaved
        · exact h
        · exact absurd (List.mem_singleton.1 h).symm heq
      have hw₁ := ih (fun x hx => hedits x (List.mem_append_left _ hx))
        (fun x hx => hdeletes x (List.mem_append_left _ hx)) hdone
        (fun x hx => hsaves x (List.mem_append_left _ hx))
      obtain h | ⟨hsave, hr⟩ := (program_hasRow (hedits _ hlast) (hdeletes _ hlast) hw₁).runWith last
      · exact h
      · exact absurd hr (by rw [hsaves _ hlast heq hsave]; decide)

end Orders

/-- Operations on a profile of which none comes back to the stores after another has written to
them, nor while one that has written is under way, have the effect of some serial order. In
particular a profile that has been deleted stays deleted, and what has been saved is not
reverted. -/
theorem edits_serial [Texts] {ι : Type} [DecidableEq ι] (L : Library) (id : Uuid) (w : World)
    (es : List (SharedEvent ι Request Choice))
    (st : Shared ι Request Op Ans (Except CoreError Reply) World)
    (hedits : ∀ e ∈ es, e.Asks fun req => req.edits id = true)
    (htimely : Meets (controller L).step (controller L).Timely (Service.initial w) es)
    (hrun : run (controller L).step (Service.initial w) es = some st)
    (hdone : ∀ i, (st.calls i).isRunning = false) :
    (∃ order, (controller L).Serial w order st.world ∧ ((order.map Prod.fst).map Prod.fst).Nodup ∧
      ∀ i req r, (i, req, r) ∈ order.map Prod.fst ↔ st.calls i = .returned req r) ∧
    (∀ i reply, st.calls i = .returned (.deleteProfile id) (.ok reply) →
      (∀ j cfg r, st.calls j = .returned (.saveProfile cfg) r → r.isOk = false) →
      st.world.profiles.lookup id = none) ∧
    ∀ i cfg stored, st.calls i = .returned (.saveProfile cfg) (.ok (.profile stored)) →
      (∀ j cfg' r, j ≠ i → st.calls j = .returned (.saveProfile cfg') r → r.isOk = false) →
      (∀ j r, st.calls j ≠ .returned (.deleteProfile id) r) →
      ∃ final, st.world.profiles.lookup id = some final ∧ edited final = edited stored := by
  obtain ⟨order, hserial, hnodup, hmem⟩ := Service.serial_of_timely htimely hrun hdone
  have hasks := Service.asks_of_run hedits hrun fun _ => trivial
  have horder : ∀ x ∈ order.map Prod.fst, x.2.1.edits id = true := by
    rintro ⟨i, req, r⟩ hx
    have h := hasks i
    rw [(hmem i req r).1 hx] at h
    exact h
  refine ⟨⟨order, hserial, hnodup, hmem⟩, fun i reply hi hsaves => ?_,
    fun i cfg stored hi hsaves hdeletes => ?_⟩
  · refine noRow_of_deleted hserial horder ?_ ⟨_, (hmem _ _ _).2 hi, rfl, rfl⟩
    rintro ⟨j, req, r⟩ hx hsave
    cases req with
    | saveProfile cfg => exact hsaves j cfg r ((hmem _ _ _).1 hx)
    | _ => cases hsave
  · have hrow : HasRow id (edited stored) st.world := by
      refine hasRow_of_saved hserial horder ?_ ((hmem _ _ _).2 hi) ?_
      · rintro ⟨j, req, r⟩ hx
        cases req with
        | deleteProfile id' =>
          obtain rfl : id' = id := of_decide_eq_true (horder _ hx)
          exact absurd ((hmem _ _ _).1 hx) (hdeletes j r)
        | _ => rfl
      · rintro ⟨j, req, r⟩ hx hne hsave
        cases req with
        | saveProfile cfg' =>
          refine hsaves j cfg' r (fun hji => hne ?_) ((hmem _ _ _).1 hx)
          have h := (hmem _ _ _).1 hx
          rw [hji, hi] at h
          cases h
          rw [hji]
        | _ => cases hsave
    obtain ⟨final, hfinal, -, hbody⟩ := hrow
    exact ⟨final, hfinal, hbody⟩

section Sample

def smartProfile : ConnectionConfig :=
  .newSmart 7 0 "Smart" "192.0.2.1" 443 ⟨"sec_link"⟩

def smartWorld : World := (World.empty.store smartProfile).put ⟨"sec_link"⟩ Sample.smartLink

/-- An access without a fault, in which the provider sends the list. -/
def faultless : Choice := ⟨1, 0, none, .ok ⟨200, Sample.jsonBytes (Sample.zonesJson ["de4"])⟩⟩

/-- Who calls: a fetch, and two other operations. -/
inductive Caller where
  | fetch
  | first
  | second
  deriving DecidableEq

instance : Fintype Caller where
  elems := {.fetch, .first, .second}
  complete c := by cases c <;> decide

def steps (i : Caller) (n : ℕ) : List (SharedEvent Caller Request Choice) :=
  List.replicate n (.access i faultless)

def renamed : ConnectionConfig := { smartProfile with name := "Renamed" }

/-- A save while the list is being fetched, in vain; then a zone is taken back. -/
def saveDuringFetch : List (SharedEvent Caller Request Choice) :=
  .call .fetch (.fetchZones 7) :: steps .fetch 2 ++ .call .first (.saveProfile renamed) ::
    steps .first 2 ++ .access .fetch { faultless with response := .ok ⟨503, []⟩ } ::
    .call .second (.setSelectedZone 7 none) :: steps .second 3

/-- An operation that runs between a fetch's read and its store. -/
def duringFetch (req : Request) (n : ℕ) : List (SharedEvent Caller Request Choice) :=
  .call .fetch (.fetchZones 7) :: steps .fetch 2 ++ .call .first req :: steps .first n ++
    steps .fetch 4

open Sample

abbrev smartController := controller (coreLibrary [])

theorem saveDuringFetch_serial :
    ∃ st, run smartController.step (Service.initial smartWorld) saveDuringFetch = some st ∧
      (∃ order, smartController.Serial smartWorld order st.world ∧
        ((order.map Prod.fst).map Prod.fst).Nodup ∧
        ∀ i req r, (i, req, r) ∈ order.map Prod.fst ↔ st.calls i = .returned req r) ∧
      ∃ final, st.world.profiles.lookup 7 = some final ∧ edited final = edited renamed := by
  have htimely : Meets smartController.step smartController.Timely (Service.initial smartWorld)
      saveDuringFetch := by
    decide +kernel
  have hend : (run smartController.step (Service.initial smartWorld) saveDuringFetch).any
      (fun st => decide ((∀ i, (st.calls i).isRunning = false) ∧
        (st.calls .first).result = some (.saveProfile renamed, .ok (.profile (saved renamed 1))) ∧
        ∀ i, (st.calls i).result.all fun x => !x.1.isDelete && (!x.1.isSave || i == .first))) =
          true := by
    decide +kernel
  obtain ⟨st, hrun, hst⟩ := (Option.any_eq_true _ _).1 hend
  obtain ⟨hdone, hsaved, hothers⟩ := of_decide_eq_true hst
  obtain ⟨hserial, -, hkept⟩ := edits_serial (coreLibrary []) 7 smartWorld saveDuringFetch st
    (by decide +kernel) htimely hrun hdone
  refine ⟨st, hrun, hserial, ?_⟩
  refine hkept .first renamed (saved renamed 1) (Call.result_eq_some.1 hsaved) (fun j cfg r hj h => ?_)
    (fun j r h => ?_)
  · have hj' := hothers j
    rw [h] at hj'
    exact absurd (of_decide_eq_true hj') hj
  · have hj' := hothers j
    rw [h] at hj'
    cases hj'

theorem duringFetch_of_any {req : Request} {n : ℕ} {r : Except CoreError Reply} {P : World → Prop}
    [DecidablePred P] (h : (run smartController.step (Service.initial smartWorld)
      (duringFetch req n)).any (fun st =>
        (st.calls .first).result = some (req, r) ∧ P st.world) = true) :
    ∃ st, run smartController.step (Service.initial smartWorld) (duringFetch req n) = some st ∧
      st.calls .first = .returned req r ∧ P st.world := by
  obtain ⟨st, hrun, hst⟩ := (Option.any_eq_true _ _).1 h
  obtain ⟨hresult, hworld⟩ := of_decide_eq_true hst
  exact ⟨st, hrun, Call.result_eq_some.1 hresult, hworld⟩

/-- The profile that a fetch has read is stored again when the list comes: a deletion in between is
undone, and so is a change of the name. -/
theorem duringFetch_lost :
    (∃ st, run smartController.step (Service.initial smartWorld)
        (duringFetch (.deleteProfile 7) 3) = some st ∧
      st.calls .first = .returned (.deleteProfile 7) (.ok .unit) ∧
      st.world.profiles.lookup 7 ≠ none) ∧
    ∃ st, run smartController.step (Service.initial smartWorld)
        (duringFetch (.saveProfile renamed) 2) = some st ∧
      st.calls .first = .returned (.saveProfile renamed) (.ok (.profile (saved renamed 1))) ∧
      (st.world.profiles.lookup 7).map ConnectionConfig.name = some "Smart" := by
  constructor
  · exact duringFetch_of_any (P := fun w => w.profiles.lookup 7 ≠ none) (by decide +kernel)
  · exact duringFetch_of_any (P := fun w => (w.profiles.lookup 7).map ConnectionConfig.name = _)
      (by decide +kernel)

end Sample

end EasyConnection.Core
