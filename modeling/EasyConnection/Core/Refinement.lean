import EasyConnection.Async.Simulation
import EasyConnection.Core.Concurrent
import EasyConnection.Core.Database

/-! # The controller over the database

To the controller the database is a finite map from ids to profiles. Its operations get the same
answers from both, over any number of restarts.
-/
namespace EasyConnection.Core
open Async Codec Config Secrets

section Refinement

/-- The database beside the vault. -/
structure Stores (J : Type) where
  database : Database J
  vault : Entries

namespace Stores
variable {J : Type} (L : StoreLibrary J)

def empty : Stores J := ⟨.empty, ∅⟩

/-- The process starts, and opens the database. -/
def openStore (cut : ℕ) (s : Stores J) : Stores J := { s with database := s.database.migrate L cut }

/-- The references of all rows. -/
def refs (s : Stores J) : List SecretRef :=
  s.database.profiles.flatMap fun row => (Database.readRow L row).toOption.toList.flatMap
    ConnectionConfig.secretRefs

/-- The accesses to the vault and to the outside are what they are over the map. -/
def exec [Texts] : (o : Op) → Choice → Stores J → Stores J × Ans o
  | .getProfile id, c, s => (s, s.database.getProfile L c.fault id)
  | .upsertProfile cfg, c, s =>
    let (database, r) := s.database.upsertProfile L c.fault cfg
    ({ s with database }, r)
  | .deleteProfile id, c, s =>
    let (database, r) := s.database.deleteProfile c.fault id
    ({ s with database }, r)
  | .now, c, s => (s, c.now)
  | .newId, c, s => (s, c.uuid)
  | .exchange _, c, s => (s, c.response)
  | .getSecret ref, c, s =>
    let (w, r) := Core.exec (.getSecret ref) c ⟨∅, s.vault⟩
    ({ s with vault := w.vault }, r)
  | .putSecret value, c, s =>
    let (w, r) := Core.exec (.putSecret value) c ⟨∅, s.vault⟩
    ({ s with vault := w.vault }, r)
  | .updateSecret ref value, c, s =>
    let (w, r) := Core.exec (.updateSecret ref value) c ⟨∅, s.vault⟩
    ({ s with vault := w.vault }, r)
  | .deleteSecret ref, c, s =>
    let (w, r) := Core.exec (.deleteSecret ref) c ⟨∅, s.vault⟩
    ({ s with vault := w.vault }, r)

/-- An id that is drawn is in use nowhere. -/
def Unused : Op → Choice → Stores J → Prop
  | .newId, c, s => uuidText c.uuid ∉ s.database.profiles.map ProfileRow.id
  | .putSecret _, c, s => (newRef c.uuid).id ∉ s.vault ∧ newRef c.uuid ∉ s.refs L
  | _, _, _ => True

instance (o : Op) (c : Choice) (s : Stores J) : Decidable (Unused L o c s) :=
  match o with
  | .newId => inferInstanceAs (Decidable (_ ∉ s.database.profiles.map ProfileRow.id))
  | .putSecret _ =>
    inferInstanceAs (Decidable ((newRef c.uuid).id ∉ s.vault ∧ newRef c.uuid ∉ s.refs L))
  | .now | .getProfile _ | .upsertProfile _ | .deleteProfile _ | .getSecret _ | .updateSecret _ _
  | .deleteSecret _ | .exchange _ => .isTrue trivial

theorem exec_of_reads [Texts] (o : Op) (c : Choice) (s : Stores J) (h : o.effect ≠ .writes) :
    (exec L o c s).1 = s := by
  cases o with
  | getSecret ref =>
    have hvault := congrArg World.vault
      (Core.exec_of_reads (.getSecret ref) c ⟨∅, s.vault⟩ fun h => by cases h)
    simp only [exec, hvault]
  | now | newId | exchange _ | getProfile _ => rfl
  | _ => cases h rfl

theorem exec_of_none [Texts] (o : Op) (c : Choice) (s s' : Stores J) (h : o.effect = .none) :
    (exec L o c s).2 = (exec L o c s').2 ∧ (Unused L o c s → Unused L o c s') := by
  cases o with
  | now | exchange _ => exact ⟨rfl, id⟩
  | _ => cases h

end Stores

/-- The controller, over the database. -/
def databaseController [Texts] {J : Type} (L : StoreLibrary J) (lib : Library) :
    Service Request Op Ans (Except CoreError Reply) Choice (Stores J) where
  program := Request.program lib
  exec := Stores.exec L
  ok := Stores.Unused L
  decidableOk := inferInstance
  effect := Op.effect
  exec_of_reads := Stores.exec_of_reads L
  exec_of_none := Stores.exec_of_none L

variable {J : Type} {L : StoreLibrary J} {s : Stores J} {w : World}

/-- The stores hold what the world holds. -/
structure StandsFor (L : StoreLibrary J) (s : Stores J) (w : World) : Prop where
  profiles : Represents L s.database.profiles w.profiles
  vault : s.vault = w.vault

theorem StandsFor.refs (h : StandsFor L s w) {r : SecretRef} : r ∈ s.refs L ↔ r ∈ w.refs := by
  rw [World.mem_refs]
  simp only [Stores.refs, List.mem_flatMap, Option.mem_toList]
  constructor
  · rintro ⟨row, hrow, cfg, hcfg, hr⟩
    obtain ⟨cfg', hstored, hlookup⟩ := h.profiles.stored row hrow
    rw [hstored.readRow] at hcfg
    obtain rfl := Option.some.inj hcfg
    exact ⟨cfg'.id, cfg', hlookup, hr⟩
  · rintro ⟨id, cfg, hlookup, hr⟩
    obtain ⟨-, row, hrow, hstored⟩ := h.profiles.complete id cfg hlookup
    exact ⟨row, hrow, cfg, by rw [hstored.readRow]; rfl, hr⟩

theorem StandsFor.unused (h : StandsFor L s w) {o : Op} {c : Choice} (hunused : Stores.Unused L o c s) :
    Unused o c w := by
  cases o with
  | newId =>
    refine fun hmem => hunused ?_
    obtain ⟨cfg, hlookup⟩ := Option.isSome_iff_exists.1 (AList.lookup_isSome.2 hmem)
    obtain ⟨hid, row, hrow, hstored⟩ := h.profiles.complete _ cfg hlookup
    exact List.mem_map.2 ⟨row, hrow, hstored.id_eq_iff.2 hid⟩
  | putSecret value =>
    refine ⟨h.vault ▸ hunused.1, fun hmem => hunused.2 (h.refs.2 hmem)⟩
  | _ => trivial

theorem StandsFor.getProfile [Texts] (h : StandsFor L s w) (id : Uuid) (c : Choice) :
    s.database.getProfile L c.fault id = (Core.exec (.getProfile id) c w).2 := by
  simp only [Database.getProfile, Core.exec]
  cases c.fault with
  | some message => rfl
  | none =>
    rcases h.profiles.selectRow id with ⟨cfg, row, hlookup, hselect, hstored⟩ | ⟨hlookup, hselect⟩
    · simp only [hlookup, hselect, hstored.readRow]
    · simp only [hlookup, hselect]

theorem StandsFor.upsertProfile [Texts] (h : StandsFor L s w) (cfg : ConnectionConfig)
    (c : Choice) :
    StandsFor L (Stores.exec L (.upsertProfile cfg) c s).1 (Core.exec (.upsertProfile cfg) c w).1 ∧
      (Stores.exec L (.upsertProfile cfg) c s).2 = (Core.exec (.upsertProfile cfg) c w).2 := by
  simp only [Stores.exec, Database.upsertProfile, Core.exec]
  cases validateConnection cfg with
  | error e => exact ⟨h, rfl⟩
  | ok _ =>
    cases c.fault with
    | some message => exact ⟨h, rfl⟩
    | none => exact ⟨⟨h.profiles.upsert cfg, h.vault⟩, rfl⟩

theorem StandsFor.deleteProfile [Texts] (h : StandsFor L s w) (id : Uuid) (c : Choice) :
    StandsFor L (Stores.exec L (.deleteProfile id) c s).1 (Core.exec (.deleteProfile id) c w).1 ∧
      (Stores.exec L (.deleteProfile id) c s).2 = (Core.exec (.deleteProfile id) c w).2 := by
  simp only [Stores.exec, Database.deleteProfile, Core.exec]
  cases c.fault with
  | some message => exact ⟨h, rfl⟩
  | none =>
    by_cases hmem : id ∈ w.profiles
    · rw [if_pos hmem, if_neg fun hnone => (h.profiles.delete_none id).1 hnone hmem]
      exact ⟨⟨h.profiles.delete id, h.vault⟩, rfl⟩
    · rw [if_neg hmem, if_pos ((h.profiles.delete_none id).2 hmem)]
      refine ⟨⟨?_, h.vault⟩, rfl⟩
      have hkept := h.profiles.delete id
      have herase : w.profiles.erase id = w.profiles := AList.ext (List.kerase_of_notMem_keys hmem)
      rwa [herase] at hkept

/-- What a call to the vault does depends on the vault only. -/
theorem StandsFor.vaultCall {α : Type} (h : StandsFor L s w) (c : Choice)
    {r r' : World × Except SecretsError α} (hanswer : r.2 = r'.2) (hvault : r.1.vault = r'.1.vault)
    (hprofiles : r'.1.profiles = w.profiles) :
    StandsFor L { s with vault := (World.vaultCall ⟨∅, s.vault⟩ c r).1.vault } (w.vaultCall c r').1 ∧
      (World.vaultCall ⟨∅, s.vault⟩ c r).2 = (w.vaultCall c r').2 := by
  unfold World.vaultCall
  cases c.fault with
  | some message => exact ⟨h, rfl⟩
  | none => exact ⟨⟨hprofiles ▸ h.profiles, hvault⟩, hanswer⟩

theorem StandsFor.exec [Texts] (h : StandsFor L s w) (o : Op) (c : Choice) :
    StandsFor L (Stores.exec L o c s).1 (Core.exec o c w).1 ∧
      (Stores.exec L o c s).2 = (Core.exec o c w).2 := by
  cases o with
  | getProfile id =>
    refine ⟨?_, h.getProfile id c⟩
    rw [Core.exec_of_reads (.getProfile id) c w fun h => by cases h]
    exact h
  | upsertProfile cfg => exact h.upsertProfile cfg c
  | deleteProfile id => exact h.deleteProfile id c
  | now => exact ⟨h, rfl⟩
  | newId => exact ⟨h, rfl⟩
  | exchange req => exact ⟨h, rfl⟩
  | getSecret ref =>
    simp only [Stores.exec, Core.exec]
    split_ifs
    · exact ⟨h, rfl⟩
    · exact h.vaultCall c (by rw [h.vault]) h.vault rfl
  | putSecret value =>
    exact h.vaultCall c rfl (by simp only [World.put, h.vault]) rfl
  | updateSecret ref value =>
    simp only [Stores.exec, Core.exec]
    split_ifs
    · exact ⟨h, rfl⟩
    · exact h.vaultCall c rfl (by simp only [World.put, h.vault]) rfl
  | deleteSecret ref =>
    exact h.vaultCall c rfl (by simp only [World.forget, h.vault]) rfl

theorem database_simulates [Texts] (L : StoreLibrary J) (lib : Library) :
    (databaseController L lib).Simulates (controller lib) (StandsFor L) where
  program := rfl
  effect := rfl
  ok := fun _ _ _ _ h hunused => h.unused hunused
  exec := fun o c _ _ h _ => h.exec o c

theorem migrate_profiles (cut : ℕ) (d : Database J) : (d.migrate L cut).profiles = d.profiles := by
  unfold Database.migrate
  split <;> rfl

theorem StandsFor.openStore (h : StandsFor L s w) (cut : ℕ) : StandsFor L (s.openStore L cut) w :=
  ⟨by rw [Stores.openStore, migrate_profiles]; exact h.profiles, h.vault⟩

theorem standsFor_empty : StandsFor L .empty .empty := ⟨represents_nil, rfl⟩

end Refinement

section Listing
variable {J : Type} {L : StoreLibrary J} {rows : List (ProfileRow J)} {s : Stores J} {w : World}

theorem mapM_readRow (h : ∀ row ∈ rows, ∃ cfg, Stored L cfg row) :
    ∃ cfgs, rows.mapM (Database.readRow L) = .ok cfgs ∧
      List.Forall₂ (fun row cfg => Stored L cfg row) rows cfgs := by
  induction rows with
  | nil => exact ⟨[], rfl, .nil⟩
  | cons row rows ih =>
    obtain ⟨cfg, hcfg⟩ := h row List.mem_cons_self
    obtain ⟨cfgs, hread, hall⟩ := ih fun row' hrow' => h row' (List.mem_cons_of_mem _ hrow')
    refine ⟨cfg :: cfgs, ?_, .cons hcfg hall⟩
    rw [List.mapM_cons, hcfg.readRow, hread]
    rfl

theorem map_of_stored {β : Type} {f : ProfileRow J → β} {g : ConnectionConfig → β}
    {cfgs : List ConnectionConfig} (h : List.Forall₂ (fun row cfg => Stored L cfg row) rows cfgs)
    (hfg : ∀ row cfg, Stored L cfg row → f row = g cfg) : rows.map f = cfgs.map g := by
  induction h with
  | nil => rfl
  | cons hrow _ ih => rw [List.map_cons, List.map_cons, hfg _ _ hrow, ih]

theorem textLe_total (s t : List Char) : (Database.textLe s t || Database.textLe t s) = true := by
  induction s generalizing t with
  | nil => rfl
  | cons a s ih =>
    cases t with
    | nil => rfl
    | cons b t =>
      have hrest := ih t
      simp only [Database.textLe, Bool.or_eq_true, Bool.and_eq_true, decide_eq_true_eq,
        beq_iff_eq] at hrest ⊢
      grind

theorem textLe_trans {s t u : List Char} (hst : Database.textLe s t = true)
    (htu : Database.textLe t u = true) : Database.textLe s u = true := by
  induction s generalizing t u with
  | nil => rfl
  | cons a s ih =>
    cases t with
    | nil => cases hst
    | cons b t =>
      cases u with
      | nil => cases htu
      | cons c u =>
        simp only [Database.textLe, Bool.or_eq_true, Bool.and_eq_true, decide_eq_true_eq,
          beq_iff_eq] at hst htu ⊢
        grind

/-- The list of a table: all its profiles, once each, by their names. -/
structure Lists (profiles : AList fun _ : Uuid => ConnectionConfig) (cfgs : List ConnectionConfig) :
    Prop where
  mem : ∀ cfg, cfg ∈ cfgs ↔ profiles.lookup cfg.id = some cfg
  nodup : (cfgs.map ConnectionConfig.id).Nodup
  sorted : cfgs.Pairwise fun cfg cfg' =>
    Database.textLe (Database.nocase cfg.name) (Database.nocase cfg'.name) = true

theorem StandsFor.listProfiles (h : StandsFor L s w) :
    ∃ cfgs, s.database.listProfiles L none = .ok cfgs ∧ Lists w.profiles cfgs := by
  have hperm := List.mergeSort_perm s.database.profiles Database.nameLe
  have hrows : ∀ row ∈ s.database.profiles.mergeSort Database.nameLe, ∃ cfg, Stored L cfg row :=
    fun row hrow => (h.profiles.stored row (hperm.mem_iff.1 hrow)).imp fun _ hcfg => hcfg.1
  obtain ⟨cfgs, hread, hall⟩ := mapM_readRow hrows
  refine ⟨cfgs, hread, fun cfg => ?_, ?_, ?_⟩
  · have hok : (s.database.profiles.mergeSort Database.nameLe).map (Database.readRow L) =
        cfgs.map .ok := map_of_stored hall fun _ _ h => h.readRow
    have hmem : cfg ∈ cfgs ↔ ∃ row ∈ s.database.profiles, Database.readRow L row = .ok cfg := by
      rw [← List.mem_map_of_injective (f := Except.ok) fun _ _ => Except.ok.inj, ← hok, List.mem_map]
      simp only [hperm.mem_iff]
    rw [hmem]
    constructor
    · rintro ⟨row, hrow, hcfg⟩
      obtain ⟨cfg', hstored, hlookup⟩ := h.profiles.stored row hrow
      obtain rfl := Except.ok.inj (hcfg.symm.trans hstored.readRow)
      exact hlookup
    · intro hlookup
      obtain ⟨-, row, hrow, hstored⟩ := h.profiles.complete cfg.id cfg hlookup
      exact ⟨row, hrow, hstored.readRow⟩
  · have hids : (s.database.profiles.mergeSort Database.nameLe).map ProfileRow.id =
        cfgs.map fun cfg => uuidText cfg.id := map_of_stored hall fun _ _ h => h.id
    have hnodup := (hperm.map ProfileRow.id).nodup_iff.2 h.profiles.nodup
    rw [hids] at hnodup
    refine List.Nodup.of_map uuidText ?_
    rwa [List.map_map]
  · have hnames : (s.database.profiles.mergeSort Database.nameLe).map ProfileRow.name =
        cfgs.map ConnectionConfig.name := map_of_stored hall fun _ _ h => h.name
    have htrans (a b c : ProfileRow J) (hab : Database.nameLe a b = true)
        (hbc : Database.nameLe b c = true) : Database.nameLe a c = true := textLe_trans hab hbc
    have htotal (a b : ProfileRow J) : (Database.nameLe a b || Database.nameLe b a) = true :=
      textLe_total _ _
    have hsorted := List.pairwise_mergeSort htrans htotal s.database.profiles
    have hpairs : ((s.database.profiles.mergeSort Database.nameLe).map ProfileRow.name).Pairwise
        fun a b => Database.textLe (Database.nocase a) (Database.nocase b) = true :=
      List.pairwise_map.2 hsorted
    rw [hnames] at hpairs
    exact List.pairwise_map.1 hpairs

/-- Whatever operations are carried out over the database, interleaved in any way, and however
often the process dies and opens it again: they get the answers that a finite map would have given
them, and the list of profiles shows what the map holds. -/
theorem database_serves_map [Texts] {ι : Type} [DecidableEq ι] (lib : Library)
    {ls : List (ℕ × List (SharedEvent ι Request Choice))}
    {calls : List (ι → Call Request Op Ans (Except CoreError Reply))}
    (hlives : (databaseController L lib).lives (Stores.openStore L) .empty ls = some (calls, s)) :
    ∃ w, (controller lib).lives (fun _ w => w) .empty ls = some (calls, w) ∧
      (∀ id c, s.database.getProfile L c.fault id = (exec (.getProfile id) c w).2) ∧
      ∃ cfgs, s.database.listProfiles L none = .ok cfgs ∧ Lists w.profiles cfgs := by
  obtain ⟨w, hlives', hstands⟩ := (database_simulates L lib).lives
    (fun cut _ _ h => StandsFor.openStore h cut) standsFor_empty hlives
  exact ⟨w, hlives', hstands.getProfile, hstands.listProfiles⟩

/-- A profile is saved, and the database is opened again. -/
def savedAndReopened : List (ℕ × List (SharedEvent Caller Request Choice)) :=
  [(2, .call .first (.saveProfile smartProfile) :: steps .first 2), (2, [])]

open Sample

theorem savedAndReopened_serves : ∃ calls s w cfgs,
    (databaseController plainStore (coreLibrary [])).lives (Stores.openStore plainStore) .empty
      savedAndReopened = some (calls, s) ∧
    (controller (coreLibrary [])).lives (fun _ w => w) .empty savedAndReopened = some (calls, w) ∧
    s.database.listProfiles plainStore none = .ok cfgs ∧ Lists w.profiles cfgs ∧
    s.database.profiles.length = 1 := by
  have hend : ((databaseController plainStore (coreLibrary [])).lives (Stores.openStore plainStore)
      .empty savedAndReopened).any (fun r => decide (r.2.database.profiles.length = 1)) = true := by
    decide +kernel
  obtain ⟨⟨calls, s⟩, hlives, hone⟩ := (Option.any_eq_true _ _).1 hend
  obtain ⟨w, hlives', -, cfgs, hlist, hlists⟩ := database_serves_map (coreLibrary []) hlives
  exact ⟨calls, s, w, cfgs, hlives, hlives', hlist, hlists, of_decide_eq_true hone⟩

end Listing

end EasyConnection.Core
