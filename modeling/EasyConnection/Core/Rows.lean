import EasyConnection.Core.Contracts

/-! # What holds of every stored profile

A property of single profiles holds of the whole table as long as each profile that is stored has
it. What an operation reads from the table has it already.
-/
namespace EasyConnection.Core
open Async Codec Config Secrets Ssh

/-- Every stored profile is in `K`. -/
def Rows (K : ConnectionConfig → Prop) (w : World) : Prop :=
  ∀ id cfg, w.profiles.lookup id = some cfg → K cfg

/-- Calls that do not change the table. -/
def Op.SparesTable : Op → Prop
  | .upsertProfile _ => False
  | .deleteProfile _ => False
  | _ => True

theorem vaultCall_profiles {α : Type} {w : World} {x : World × Except SecretsError α}
    (h : x.1.profiles = w.profiles) (c : Choice) : (w.vaultCall c x).1.profiles = w.profiles := by
  unfold World.vaultCall
  cases c.fault with
  | none => exact h
  | some message => rfl

theorem exec_sparesTable [Texts] {o : Op} (h : o.SparesTable) (c : Choice) (w : World) :
    (exec o c w).1.profiles = w.profiles := by
  cases o with
  | getProfile id =>
    simp only [exec]
    split <;> rfl
  | getSecret ref | updateSecret ref value =>
    simp only [exec]
    split_ifs
    · rfl
    · apply vaultCall_profiles
      rfl
  | putSecret value =>
    apply vaultCall_profiles
    rfl
  | deleteSecret ref =>
    apply vaultCall_profiles
    rfl
  | upsertProfile cfg => exact absurd h id
  | deleteProfile id => exact absurd h (fun h => h)
  | _ => rfl

section Rules
variable {K : ConnectionConfig → Prop} {ok : Op → Choice → World → Prop} {w : World}

theorem rows_empty : Rows K .empty := fun _ _ h => nomatch h

theorem Rows.store (hw : Rows K w) {cfg : ConnectionConfig} (h : K cfg) : Rows K (w.store cfg) := by
  intro id cfg' hrow
  obtain ⟨-, rfl⟩ | ⟨-, hrow⟩ := lookup_store_cases hrow
  · exact h
  · exact hw id cfg' hrow

theorem Rows.congr {w' : World} (hw : Rows K w) (h : w'.profiles = w.profiles) : Rows K w' := by
  intro id cfg hrow
  rw [h] at hrow
  exact hw id cfg hrow

/-- The operation keeps all profiles in `K` and returns only what is in `good`. -/
abbrev KeepsRows [Texts] {ε α : Type} (ok : Op → Choice → World → Prop)
    (K : ConnectionConfig → Prop) (good : α → Prop) (x : ExceptT ε (Prog Op Ans) α) : Prop :=
  Prog.Maintains exec ok (Rows K) good x

theorem keeps_of_only [Texts] {ε α : Type} {x : ExceptT ε (Prog Op Ans) α}
    (h : Prog.Only Op.SparesTable x.run) : KeepsRows ok K (fun _ => True) x :=
  h.maintains fun _ c w ho hw => hw.congr (exec_sparesTable ho c w)

theorem only_ofSecrets {P : Op → Prop} {α : Type} {p : Prog Op Ans (Except SecretsError α)}
    (h : p.Only P) : Prog.Only P (ofSecrets p).run :=
  h.bind fun _ => trivial

theorem only_putSecret (value : String) : Prog.Only Op.SparesTable (putSecret value).run :=
  only_ofSecrets (Prog.only_perform trivial)

theorem only_getSecret (ref : SecretRef) : Prog.Only Op.SparesTable (getSecret ref).run :=
  only_ofSecrets (Prog.only_perform trivial)

theorem only_cloneSecret (old : Option SecretRef) :
    Prog.Only Op.SparesTable (cloneSecret old).run := by
  cases old with
  | none => trivial
  | some old =>
    refine Prog.Only.except_bind (only_getSecret old) fun value => ?_
    exact Prog.Only.except_bind (only_putSecret value) fun _ => trivial

theorem only_cloneAuth (auth : AuthMethod) : Prog.Only Op.SparesTable (cloneAuth auth).run := by
  cases auth with
  | password secret => exact Prog.Only.except_bind (only_cloneSecret secret) fun _ => trivial
  | privateKey path passphrase keyMaterial =>
    refine Prog.Only.except_bind (only_cloneSecret passphrase) fun _ => ?_
    exact Prog.Only.except_bind (only_cloneSecret keyMaterial) fun _ => trivial
  | agent => trivial
  | none => trivial

theorem only_storePassword (auth : AuthMethod) (password : String) :
    Prog.Only Op.SparesTable (storePassword auth password).run := by
  unfold storePassword
  split
  · exact Prog.Only.except_bind (only_ofSecrets (Prog.only_perform trivial)) fun _ => trivial
  · exact only_putSecret password

variable [Texts]

theorem now_keeps : KeepsRows ok K (fun _ => True) now :=
  keeps_of_only (Prog.only_perform trivial).lift

theorem newId_keeps : KeepsRows ok K (fun _ => True) newId :=
  keeps_of_only (Prog.only_perform trivial).lift

theorem KeepsRows.rows {α : Type} {x : CoreM α} {w : World} (hw : Rows K w)
    (h : KeepsRows ok K (fun _ => True) x) :
    x.run.Ensures exec ok (fun _ w' => Rows K w') w :=
  (h w hw).mono fun _ _ h => h.1

theorem getProfile_row (id : Uuid) :
    (getProfile id).run.Ensures exec ok (fun r w' => w' = w ∧
      ∀ cfg, r = .ok cfg → w.profiles.lookup id = some cfg) w := by
  rintro ⟨now, uuid, fault, response⟩ -
  cases fault with
  | some message => exact ⟨rfl, fun _ h => by cases h⟩
  | none =>
    cases hrow : w.profiles.lookup id with
    | none =>
      simp only [exec, hrow]
      exact ⟨rfl, fun _ h => by cases h⟩
    | some cfg =>
      simp only [exec, hrow]
      exact ⟨rfl, fun _ h => Except.ok.inj h ▸ rfl⟩

theorem getProfile_keeps (id : Uuid) : KeepsRows ok K K (getProfile id) := by
  intro w hw
  refine (getProfile_row id).mono ?_
  rintro r _ ⟨rfl, hrow⟩
  exact ⟨hw, fun cfg hr => hw id cfg (hrow cfg hr)⟩

theorem upsertProfile_keeps {cfg : ConnectionConfig} (h : K cfg) :
    KeepsRows ok K (fun _ => True) (upsertProfile cfg) := by
  rintro w hw ⟨now, uuid, fault, response⟩ -
  cases hvalid : validateConnection cfg with
  | error e =>
    simp only [exec, hvalid]
    exact ⟨hw, fun _ _ => trivial⟩
  | ok u =>
    cases fault with
    | some message =>
      simp only [exec, hvalid]
      exact ⟨hw, fun _ _ => trivial⟩
    | none =>
      simp only [exec, hvalid]
      exact ⟨hw.store h, fun _ _ => trivial⟩

theorem saveProfile_keeps {cfg : ConnectionConfig} (h : ∀ t, K (saved cfg t)) :
    KeepsRows ok K K (saveProfile cfg) := by
  refine now_keeps.bind fun t _ => ?_
  refine Prog.Maintains.bind (Prog.maintains_ret fun _ _ => trivial) fun _ _ => ?_
  exact (upsertProfile_keeps (h t)).bind fun _ _ => Prog.maintains_pure (h t)

theorem setPasswordSecret_keeps (id : Uuid) (password : String)
    (h : ∀ cfg r t, K cfg →
      K { cfg with authentication := .password (some r), updatedAt := t }) :
    KeepsRows ok K K (setPasswordSecret id password) := by
  refine (getProfile_keeps id).bind fun cfg hcfg => ?_
  refine (keeps_of_only (only_storePassword cfg.authentication password)).bind fun r _ => ?_
  refine now_keeps.bind fun t _ => ?_
  exact (upsertProfile_keeps (h cfg r t hcfg)).bind fun _ _ => Prog.maintains_pure (h cfg r t hcfg)

end Rules

end EasyConnection.Core
