import EasyConnection.Core.Contracts

/-! # The database of profiles

The profiles are rows of an SQL table: their ids and names as text, the rest as JSON. Such a table
represents a finite map from ids to profiles. Each statement is carried out as a whole or not at
all; writing JSON and reading it again gives the value back.
-/
namespace EasyConnection.Core
open Async Codec Config Secrets

section Tables

structure AppSettings where
  theme : String
  startMinimized : Bool
  reconnectBaseDelayMs : UInt64
  reconnectMaxDelayMs : UInt64
  logLevel : String
  preferredRoutingMode : String
  deriving DecidableEq

def AppSettings.default : AppSettings := ⟨"system", false, 1000, 60000, "info", "proxy_only"⟩

/-- How values are written into the columns. `J` is the type of texts in JSON. -/
structure StoreLibrary (J : Type) where
  writeProfile : ConnectionConfig → J
  readProfile : J → Except String ConnectionConfig
  writeSettings : AppSettings → J
  readSettings : J → Except String AppSettings
  rfc3339 : Time → String
  readProfile_write : ∀ cfg, readProfile (writeProfile cfg) = .ok cfg
  readSettings_write : ∀ settings, readSettings (writeSettings settings) = .ok settings

structure ProfileRow (J : Type) where
  id : String
  name : String
  json : J
  createdAt : String
  updatedAt : String
  deriving DecidableEq

/-- The row `schema_version` of `meta`, the table of profiles, and the only row that
`app_settings` may have. -/
structure Database (J : Type) where
  schemaVersion : Option String
  profiles : List (ProfileRow J)
  settings : Option J
  deriving DecidableEq

def configVersion : String := "1"

namespace Database
variable {J : Type} (L : StoreLibrary J)

def empty : Database J := ⟨none, [], none⟩

/-- The two insertions of `migrate`, of which the first `cut` are carried out before the process
dies or a statement fails. -/
def migrate (cut : ℕ) (d : Database J) : Database J :=
  match d.schemaVersion, cut with
  | some _, _ => d
  | none, 0 => d
  | none, 1 => { d with schemaVersion := some configVersion }
  | none, _ + 2 =>
    { d with
      schemaVersion := some configVersion
      settings := some (d.settings.getD (L.writeSettings .default)) }

def toRow (cfg : ConnectionConfig) : ProfileRow J :=
  ⟨uuidText cfg.id, cfg.name, L.writeProfile cfg, L.rfc3339 cfg.createdAt, L.rfc3339 cfg.updatedAt⟩

/-- What `ON CONFLICT(id) DO UPDATE` sets. -/
def overwrite (row old : ProfileRow J) : ProfileRow J :=
  if old.id = row.id then
    { old with name := row.name, json := row.json, updatedAt := row.updatedAt }
  else old

def upsertRow (row : ProfileRow J) (rows : List (ProfileRow J)) : List (ProfileRow J) :=
  if row.id ∈ rows.map ProfileRow.id then rows.map (overwrite row) else rows ++ [row]

def selectRow (id : Uuid) (rows : List (ProfileRow J)) : Option (ProfileRow J) :=
  rows.find? fun row => row.id = uuidText id

/-- The order of texts by their characters. -/
def textLe : List Char → List Char → Bool
  | [], _ => true
  | _ :: _, [] => false
  | a :: s, b :: t => a.toNat < b.toNat || (a.toNat == b.toNat && textLe s t)

/-- Letters of ASCII are compared without their case. -/
def nocase (s : String) : List Char := s.toList.map Char.toLower

def nameLe (row row' : ProfileRow J) : Bool := textLe (nocase row.name) (nocase row'.name)

def readRow (row : ProfileRow J) : Except ConfigError ConnectionConfig :=
  (L.readProfile row.json).mapError .json

variable (fault : Option String) (d : Database J)

def listProfiles : Except ConfigError (List ConnectionConfig) :=
  match fault with
  | some message => .error (.db message)
  | none => (d.profiles.mergeSort nameLe).mapM (readRow L)

def getProfile (id : Uuid) : Except ConfigError ConnectionConfig :=
  match fault, selectRow id d.profiles with
  | none, some row => readRow L row
  | _, _ => .error (.notFound (uuidText id))

def upsertProfile [Texts] (cfg : ConnectionConfig) : Database J × Except ConfigError Unit :=
  match validateConnection cfg, fault with
  | .error e, _ => (d, .error e)
  | .ok (), some message => (d, .error (.db message))
  | .ok (), none => ({ d with profiles := upsertRow (toRow L cfg) d.profiles }, .ok ())

def deleteProfile (id : Uuid) : Database J × Except ConfigError Unit :=
  match fault with
  | some message => (d, .error (.db message))
  | none =>
    let kept := d.profiles.filter fun row => row.id ≠ uuidText id
    let n := d.profiles.length - kept.length
    ({ d with profiles := kept }, if n = 0 then .error (.notFound (uuidText id)) else .ok ())

def getSettings : Except ConfigError AppSettings :=
  match fault, d.settings with
  | some message, _ => .error (.db message)
  | none, none => .error (.db "Query returned no rows")
  | none, some json => (L.readSettings json).mapError .json

/-- An update of a row that is not there changes nothing, and is no error. -/
def saveSettings (settings : AppSettings) : Database J × Except ConfigError Unit :=
  match fault with
  | some message => (d, .error (.db message))
  | none => ({ d with settings := d.settings.map fun _ => L.writeSettings settings }, .ok ())

end Database

end Tables

section Uuids

theorem digitChar_ne_dash {d : ℕ} (h : d < 16) : Nat.digitChar d ≠ '-' := by
  decide +revert

theorem digitChar_inj {d e : ℕ} (hd : d < 16) (he : e < 16) (h : Nat.digitChar d = Nat.digitChar e) :
    d = e := by
  have hall : ∀ d < 16, ∀ e < 16, Nat.digitChar d = Nat.digitChar e → d = e := by decide
  exact hall d hd e he h

theorem length_hexDigits (n k : ℕ) : (hexDigits n k).length = k := by
  induction k generalizing n with
  | zero => rfl
  | succ k ih => rw [hexDigits, List.length_append, ih, List.length_singleton]

theorem dash_not_mem_hexDigits (n k : ℕ) : '-' ∉ hexDigits n k := by
  induction k generalizing n with
  | zero => exact List.not_mem_nil
  | succ k ih =>
    rw [hexDigits, List.mem_append, List.mem_singleton, not_or]
    exact ⟨ih _, (digitChar_ne_dash (Nat.mod_lt _ (by decide))).symm⟩

theorem hexDigits_inj {n m k : ℕ} (hn : n < 16 ^ k) (hm : m < 16 ^ k)
    (h : hexDigits n k = hexDigits m k) : n = m := by
  induction k generalizing n m with
  | zero => omega
  | succ k ih =>
    obtain ⟨hhigh, hlow⟩ := List.append_inj' h rfl
    rw [pow_succ] at hn hm
    have hdiv := ih (by omega) (by omega) hhigh
    have hmod := digitChar_inj (Nat.mod_lt n (by decide)) (Nat.mod_lt m (by decide))
      (List.singleton_inj.1 hlow)
    omega

/-- Without the dashes the digits are left. -/
theorem filter_uuidText (u : Uuid) : (uuidText u).toList.filter (· ≠ '-') = hexDigits u.toNat 32 := by
  have hgroup (skip n : ℕ) : (((hexDigits u.toNat 32).drop skip).take n).filter (· ≠ '-') =
      ((hexDigits u.toNat 32).drop skip).take n := by
    refine List.filter_eq_self.2 fun c hc => decide_eq_true ?_
    rintro rfl
    exact dash_not_mem_hexDigits _ _ (List.mem_of_mem_drop (List.mem_of_mem_take hc))
  have hlength := length_hexDigits u.toNat 32
  simp only [uuidText, String.toList_ofList, List.intercalate, List.intersperse, List.flatten_cons,
    List.flatten_nil, List.append_nil, List.filter_append, hgroup]
  generalize hexDigits u.toNat 32 = ds at hlength
  have hsplit (skip n : ℕ) : (ds.drop skip).take n ++ ds.drop (skip + n) = ds.drop skip := by
    rw [← List.drop_drop, List.take_append_drop]
  have hlast : (ds.drop 20).take 12 = ds.drop 20 :=
    List.take_of_length_le (by rw [List.length_drop, hlength])
  have hdash : ['-'].filter (fun c => decide (c ≠ '-')) = [] := by decide
  rw [hdash, hlast]
  simp only [List.nil_append]
  rw [hsplit 16 4, hsplit 12 4, hsplit 8 4, hsplit 0 8, List.drop_zero]

theorem uuidText_injective {u u' : Uuid} (h : uuidText u = uuidText u') : u = u' := by
  have hdigits : hexDigits u.toNat 32 = hexDigits u'.toNat 32 := by
    rw [← filter_uuidText, ← filter_uuidText, h]
  have hbound : (16 : ℕ) ^ 32 = 2 ^ 128 := by decide
  refine BitVec.eq_of_toNat_eq (hexDigits_inj ?_ ?_ hdigits)
  · exact hbound ▸ u.isLt
  · exact hbound ▸ u'.isLt

end Uuids

section Represents
variable {J : Type} (L : StoreLibrary J)

/-- The row holds the profile. When it was first stored may be older than the profile says. -/
structure Stored (cfg : ConnectionConfig) (row : ProfileRow J) : Prop where
  id : row.id = uuidText cfg.id
  name : row.name = cfg.name
  json : row.json = L.writeProfile cfg
  updatedAt : row.updatedAt = L.rfc3339 cfg.updatedAt

/-- The rows are the profiles of the map, one for each. -/
structure Represents (rows : List (ProfileRow J)) (profiles : AList fun _ : Uuid => ConnectionConfig) :
    Prop where
  nodup : (rows.map ProfileRow.id).Nodup
  stored : ∀ row ∈ rows, ∃ cfg, Stored L cfg row ∧ profiles.lookup cfg.id = some cfg
  complete : ∀ id cfg, profiles.lookup id = some cfg → cfg.id = id ∧ ∃ row ∈ rows, Stored L cfg row

variable {L} {rows : List (ProfileRow J)} {profiles : AList fun _ : Uuid => ConnectionConfig}
  {cfg : ConnectionConfig} {row : ProfileRow J} {id : Uuid}

theorem represents_nil : Represents L [] ∅ where
  nodup := List.nodup_nil
  stored := fun _ h => absurd h List.not_mem_nil
  complete := fun _ _ h => by cases h

theorem Stored.readRow (h : Stored L cfg row) : Database.readRow L row = .ok cfg := by
  unfold Database.readRow
  rw [h.json, L.readProfile_write]
  rfl

theorem stored_toRow (cfg : ConnectionConfig) : Stored L cfg (Database.toRow L cfg) :=
  ⟨rfl, rfl, rfl, rfl⟩

theorem overwrite_id (row old : ProfileRow J) : (Database.overwrite row old).id = old.id := by
  unfold Database.overwrite
  split_ifs <;> rfl

theorem toRow_id (cfg : ConnectionConfig) : (Database.toRow L cfg).id = uuidText cfg.id := rfl

theorem overwrite_of_ne (h : row.id ≠ uuidText cfg.id) :
    Database.overwrite (Database.toRow L cfg) row = row :=
  if_neg h

theorem stored_overwrite (h : row.id = uuidText cfg.id) :
    Stored L cfg (Database.overwrite (Database.toRow L cfg) row) := by
  refine ⟨(overwrite_id _ _).trans h, ?_, ?_, ?_⟩ <;>
    rw [Database.overwrite, if_pos (h.trans (toRow_id cfg).symm)] <;> rfl

/-- A row is that of the id exactly if its profile has the id. -/
theorem Stored.id_eq_iff (h : Stored L cfg row) : row.id = uuidText id ↔ cfg.id = id := by
  rw [h.id]
  exact ⟨uuidText_injective, congrArg uuidText⟩

theorem Represents.selectRow (h : Represents L rows profiles) (id : Uuid) :
    (∃ cfg row, profiles.lookup id = some cfg ∧ Database.selectRow id rows = some row ∧
      Stored L cfg row) ∨
    profiles.lookup id = none ∧ Database.selectRow id rows = none := by
  unfold Database.selectRow
  cases hfind : rows.find? fun row => decide (row.id = uuidText id) with
  | some row =>
    obtain ⟨cfg, hstored, hlookup⟩ := h.stored row (List.mem_of_find?_eq_some hfind)
    have hrow := List.find?_some hfind
    have hid := hstored.id_eq_iff.1 (of_decide_eq_true hrow)
    exact .inl ⟨cfg, row, hid ▸ hlookup, rfl, hstored⟩
  | none =>
    refine .inr ⟨Option.eq_none_iff_forall_not_mem.2 fun cfg hlookup => ?_, rfl⟩
    obtain ⟨hid, row, hrow, hstored⟩ := h.complete id cfg hlookup
    exact List.find?_eq_none.1 hfind row hrow (decide_eq_true (hstored.id_eq_iff.2 hid))

theorem Represents.upsert (h : Represents L rows profiles) (cfg : ConnectionConfig) :
    Represents L (Database.upsertRow (Database.toRow L cfg) rows) (profiles.insert cfg.id cfg) := by
  -- a row of another profile stays what it was
  have hother {old : ProfileRow J} (hold : old ∈ rows) (hne : old.id ≠ uuidText cfg.id) :
      ∃ cfg', Stored L cfg' old ∧ (profiles.insert cfg.id cfg).lookup cfg'.id = some cfg' := by
    obtain ⟨cfg', hstored, hlookup⟩ := h.stored old hold
    refine ⟨cfg', hstored, ?_⟩
    rw [AList.lookup_insert_ne fun heq => hne (hstored.id_eq_iff.2 heq)]
    exact hlookup
  unfold Database.upsertRow
  split_ifs with hmem
  · refine ⟨?_, ?_, ?_⟩
    · have hids : ProfileRow.id ∘ Database.overwrite (Database.toRow L cfg) = ProfileRow.id :=
        funext (overwrite_id _)
      rw [List.map_map, hids]
      exact h.nodup
    · intro row hrow
      obtain ⟨old, hold, rfl⟩ := List.mem_map.1 hrow
      by_cases hid : old.id = uuidText cfg.id
      · exact ⟨cfg, stored_overwrite hid, AList.lookup_insert _⟩
      · rw [overwrite_of_ne hid]
        exact hother hold hid
    · intro id cfg' hlookup
      by_cases hid : id = cfg.id
      · subst hid
        obtain rfl := Option.some.inj ((AList.lookup_insert _).symm.trans hlookup)
        obtain ⟨old, hold, hid⟩ := List.mem_map.1 hmem
        exact ⟨rfl, _, List.mem_map.2 ⟨old, hold, rfl⟩, stored_overwrite hid⟩
      · rw [AList.lookup_insert_ne hid] at hlookup
        obtain ⟨hid', row, hrow, hstored⟩ := h.complete id cfg' hlookup
        refine ⟨hid', row, List.mem_map.2 ⟨row, hrow, overwrite_of_ne fun heq => hid ?_⟩, hstored⟩
        exact hid' ▸ hstored.id_eq_iff.1 heq
  · refine ⟨?_, ?_, ?_⟩
    · rw [List.map_append, List.map_singleton]
      refine List.nodup_append.2 ⟨h.nodup, List.nodup_singleton _, fun a ha b hb => ?_⟩
      rw [List.mem_singleton.1 hb]
      rintro rfl
      exact hmem ha
    · intro row hrow
      rcases List.mem_append.1 hrow with hrow | hrow
      · exact hother hrow fun hid => hmem (List.mem_map.2 ⟨row, hrow, hid⟩)
      · rw [List.mem_singleton.1 hrow]
        exact ⟨cfg, stored_toRow cfg, AList.lookup_insert _⟩
    · intro id cfg' hlookup
      by_cases hid : id = cfg.id
      · subst hid
        obtain rfl := Option.some.inj ((AList.lookup_insert _).symm.trans hlookup)
        exact ⟨rfl, _, List.mem_append_right _ List.mem_cons_self, stored_toRow cfg⟩
      · rw [AList.lookup_insert_ne hid] at hlookup
        obtain ⟨hid', row, hrow, hstored⟩ := h.complete id cfg' hlookup
        exact ⟨hid', row, List.mem_append_left _ hrow, hstored⟩

theorem Represents.delete (h : Represents L rows profiles) (id : Uuid) :
    Represents L (rows.filter fun row => row.id ≠ uuidText id) (profiles.erase id) := by
  refine ⟨h.nodup.sublist (List.filter_sublist.map _), ?_, ?_⟩
  · intro row hrow
    obtain ⟨hrow, hne⟩ := List.mem_filter.1 hrow
    obtain ⟨cfg, hstored, hlookup⟩ := h.stored row hrow
    refine ⟨cfg, hstored, ?_⟩
    rw [AList.lookup_erase_ne fun heq => of_decide_eq_true hne (hstored.id_eq_iff.2 heq)]
    exact hlookup
  · intro id' cfg hlookup
    have hne : id' ≠ id := by
      rintro rfl
      rw [AList.lookup_erase] at hlookup
      cases hlookup
    rw [AList.lookup_erase_ne hne] at hlookup
    obtain ⟨hid, row, hrow, hstored⟩ := h.complete id' cfg hlookup
    refine ⟨hid, row, List.mem_filter.2 ⟨hrow, decide_eq_true fun heq => hne ?_⟩, hstored⟩
    exact hid ▸ hstored.id_eq_iff.1 heq

/-- No row is deleted exactly if the id is not in the map. -/
theorem Represents.delete_none (h : Represents L rows profiles) (id : Uuid) :
    rows.length - (rows.filter fun row => row.id ≠ uuidText id).length = 0 ↔ id ∉ profiles := by
  rw [Nat.sub_eq_zero_iff_le, ← AList.lookup_eq_none]
  constructor
  · intro hle
    have hall := List.filter_eq_self.1
      (List.filter_sublist.eq_of_length (Nat.le_antisymm (List.length_filter_le _ _) hle))
    refine Option.eq_none_iff_forall_not_mem.2 fun cfg hlookup => ?_
    obtain ⟨hid, row, hrow, hstored⟩ := h.complete id cfg hlookup
    exact of_decide_eq_true (hall row hrow) (hstored.id_eq_iff.2 hid)
  · intro hnone
    rw [List.filter_eq_self.2]
    intro row hrow
    refine decide_eq_true fun hid => ?_
    obtain ⟨cfg, hstored, hlookup⟩ := h.stored row hrow
    rw [hstored.id_eq_iff.1 hid, hnone] at hlookup
    cases hlookup

end Represents

section Settings
variable {J : Type} {L : StoreLibrary J}

/-- What happens to the database as far as the settings go. -/
inductive StoreEvent where
  | opens (cut : ℕ)
  | upserts (fault : Option String) (cfg : ConnectionConfig)
  | deletes (fault : Option String) (id : Uuid)
  | saves (fault : Option String) (settings : AppSettings)

def StoreEvent.apply [Texts] (L : StoreLibrary J) (d : Database J) : StoreEvent → Database J
  | .opens cut => d.migrate L cut
  | .upserts fault cfg => (d.upsertProfile L fault cfg).1
  | .deletes fault id => (d.deleteProfile fault id).1
  | .saves fault settings => (d.saveSettings L fault settings).1

def StoreEvent.saved : StoreEvent → Option AppSettings
  | .saves none settings => some settings
  | _ => none

/-- The settings that were saved last. -/
def lastSaved (es : List StoreEvent) : AppSettings :=
  (es.filterMap StoreEvent.saved).getLastD .default

/-- What an event does to the settings of a database that has its version. -/
theorem StoreEvent.apply_settings [Texts] {d : Database J} (h : d.schemaVersion.isSome = true)
    (e : StoreEvent) : (e.apply L d).schemaVersion.isSome = true ∧
      (e.apply L d).settings = d.settings.map fun json => (e.saved.map L.writeSettings).getD json := by
  have hsame : d.settings = d.settings.map fun json => json := by cases d.settings <;> rfl
  cases e with
  | opens cut =>
    obtain ⟨version, hversion⟩ := Option.isSome_iff_exists.1 h
    have hmigrate : d.migrate L cut = d := by simp only [Database.migrate, hversion]
    simp only [StoreEvent.apply, hmigrate]
    exact ⟨h, hsame⟩
  | upserts fault cfg =>
    simp only [StoreEvent.apply, Database.upsertProfile]
    split <;> exact ⟨h, hsame⟩
  | deletes fault id =>
    simp only [StoreEvent.apply, Database.deleteProfile]
    split <;> exact ⟨h, hsame⟩
  | saves fault settings =>
    cases fault with
    | some message => exact ⟨h, hsame⟩
    | none => exact ⟨h, rfl⟩

/-- Without the row there never will be one. -/
theorem settings_none [Texts] {d : Database J} (hversion : d.schemaVersion.isSome = true)
    (hnone : d.settings = none) (es : List StoreEvent) :
    (es.foldl (StoreEvent.apply L) d).settings = none := by
  induction es generalizing d with
  | nil => exact hnone
  | cons e es ih =>
    obtain ⟨hversion', hsettings⟩ := StoreEvent.apply_settings (L := L) hversion e
    refine ih hversion' ?_
    rw [hsettings, hnone, Option.map_none]

/-- The row that is there is written anew with each saving. -/
theorem settings_some [Texts] {d : Database J} (hversion : d.schemaVersion.isSome = true)
    {settings : AppSettings} (hsome : d.settings = some (L.writeSettings settings))
    (es : List StoreEvent) : (es.foldl (StoreEvent.apply L) d).settings =
      some (L.writeSettings ((es.filterMap StoreEvent.saved).getLastD settings)) := by
  induction es generalizing d settings with
  | nil => exact hsome
  | cons e es ih =>
    obtain ⟨hversion', hsettings⟩ := StoreEvent.apply_settings (L := L) hversion e
    rw [hsome, Option.map_some] at hsettings
    rw [List.foldl_cons]
    cases hsaved : e.saved with
    | none =>
      rw [hsaved] at hsettings
      rw [List.filterMap_cons_none hsaved]
      exact ih hversion' hsettings
    | some settings' =>
      rw [hsaved] at hsettings
      rw [List.filterMap_cons_some hsaved, List.getLastD_cons]
      exact ih hversion' hsettings

/-- The first opening that gets anywhere decides: if it is cut off after its first insertion, there
are no settings ever after, whatever is saved; otherwise they are the ones saved last. -/
theorem settings_last_saved [Texts] (before after : List StoreEvent) (cut : ℕ)
    (hbefore : ∀ e ∈ before, e = .opens 0) (hcut : cut ≠ 0) :
    ((before ++ .opens cut :: after).foldl (StoreEvent.apply L) .empty).getSettings L none =
      if cut = 1 then .error (.db "Query returned no rows") else .ok (lastSaved after) := by
  have hempty : before.foldl (StoreEvent.apply L) .empty = .empty := by
    induction before with
    | nil => rfl
    | cons e before ih =>
      rw [List.foldl_cons, hbefore e List.mem_cons_self]
      exact ih fun e' he' => hbefore e' (List.mem_cons_of_mem _ he')
  rw [List.foldl_append, hempty, List.foldl_cons]
  match cut, hcut with
  | 1, _ =>
    simp only [Database.getSettings]
    rw [settings_none rfl rfl]
    rfl
  | cut + 2, _ =>
    simp only [Database.getSettings]
    have hkept := settings_some (L := L) (d := Database.empty.migrate L (cut + 2)) rfl rfl after
    simp only [StoreEvent.apply, hkept, L.readSettings_write, if_neg (show cut + 2 ≠ 1 by omega)]
    rfl

/-- A library whose texts are the values themselves. -/
def plainStore : StoreLibrary (ConnectionConfig ⊕ AppSettings) where
  writeProfile := .inl
  readProfile
    | .inl cfg => .ok cfg
    | .inr _ => .error "not a profile"
  writeSettings := .inr
  readSettings
    | .inl _ => .error "not settings"
    | .inr settings => .ok settings
  rfc3339 _ := ""
  readProfile_write _ := rfl
  readSettings_write _ := rfl

open Sample

theorem settings_lost_by_cut :
    ([.opens 0, .opens 1, .opens 2, .saves none { AppSettings.default with theme := "dark" }].foldl
        (StoreEvent.apply plainStore) .empty).getSettings plainStore none =
      .error (.db "Query returned no rows") :=
  settings_last_saved [.opens 0] _ 1 (by simp) (by decide)

end Settings

end EasyConnection.Core
