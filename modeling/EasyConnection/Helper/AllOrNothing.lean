import EasyConnection.Helper.Contracts

/-! # A failed `Apply` leaves nothing behind

Whatever fails on the way, an `Apply` that found no session takes back what it has set up, as
long as the commands that take it back succeed. The exception is the last step: when the journal
cannot be written, the table stays loaded.
-/
namespace EasyConnection.Helper
open Async Nftables

variable {ι : Type}

/-- Nothing of a tunnel is there. -/
structure Clean (w : World ι) : Prop where
  session : w.session = none
  tun : w.tun = none
  table : w.table = none
  resolved : w.resolved = []

instance (w : World ι) : Decidable (Clean w) :=
  decidable_of_iff (w.session.isNone ∧ w.tun = none ∧ w.table = none ∧ w.resolved = [])
    ⟨fun h => ⟨Option.isNone_iff_eq_none.1 h.1, h.2.1, h.2.2.1, h.2.2.2⟩,
      fun h => ⟨by rw [h.session]; rfl, h.tun, h.table, h.resolved⟩⟩

/-- Only a device has DNS settings. -/
def Linked (w : World ι) : Prop := w.tun = none → w.resolved = []

/-- The calls that were made, with the failures among them. -/
abbrev Log := List (Op × Option Failure)

/-- No write of the journal failed. -/
def JournalKept (log : Log) : Prop :=
  ∀ added e, (Op.writeJournal added, some e) ∉ log

/-- The request is turned down before anything is touched. -/
def Rejected (spec : ApplySpec) : Prop := spec.validate ≠ .ok ()

section Calls
variable {me : ι} {w : World ι}

theorem resolvectl_linked (cmd : ResolvedCmd) (h : Linked w) : Linked (w.resolvectl cmd).1 := by
  have hpresent : ∀ dev, w.present dev = true → w.tun ≠ none := by
    intro dev hdev htun
    simp [World.present, htun] at hdev
  cases cmd <;> simp only [World.resolvectl] <;> (try split_ifs with hdev) <;>
    first | exact h | exact fun htun => absurd htun (hpresent _ hdev)

theorem dropTun_linked : Linked w.dropTun := fun _ => rfl

theorem exec_linked (o : Op) (c : Option Failure) (h : Linked w) :
    Linked (exec me o c w).1 := by
  cases o with
  | tunOpen =>
    rcases c with _ | (_ | _)
    · simp only [exec]
      split_ifs
      · exact h
      · exact fun htun => by cases htun
    · exact h
    · exact h
  | tunClose fd =>
    simp only [exec, World.closeTun]
    split_ifs
    · exact dropTun_linked
    · exact h
  | ip cmd =>
    cases c with
    | some e => exact h
    | none =>
      cases cmd with
      | linkDelete dev =>
        simp only [exec, World.ip]
        split_ifs
        · exact dropTun_linked
        · exact h
      | _ => exact h
  | nftDelete =>
    cases c with
    | some e => exact h
    | none =>
      simp only [exec]
      split_ifs <;> exact h
  | resolvectl cmd =>
    cases c with
    | some e => exact h
    | none => exact resolvectl_linked cmd h
  | writeJournal added => rcases c with _ | (_ | _) <;> exact h
  | nftLoad script => cases c <;> exact h
  | readJournal => cases c <;> exact h
  | removeJournal => cases c <;> exact h
  | _ => exact h

/-- The deletion of the table leaves none, and the rest as it was. -/
theorem exec_nftDelete_clears {c : Option Failure} (hc : RollsBack .nftDelete c w) :
    (exec me .nftDelete c w).1 = { w with table := none } := by
  rcases hc with rfl | htable
  · cases htable : w.table with
    | none =>
      simp only [exec, htable, Option.isSome_none, Bool.false_eq_true, if_false]
      rw [← htable]
    | some scripts => simp only [exec, htable, Option.isSome_some, if_true]
  · cases c with
    | none =>
      simp only [exec, htable, Option.isSome_none, Bool.false_eq_true, if_false]
      rw [← htable]
    | some e =>
      simp only [exec]
      rw [← htable]

/-- The deletion of the device leaves none, and the rest as it was. -/
theorem exec_linkDelete_clears {c : Option Failure} (hw : Linked w)
    (hc : RollsBack (.ip (.linkDelete tunName)) c w) :
    (exec me (.ip (.linkDelete tunName)) c w).1 = w.dropTun := by
  cases htun : w.tun with
  | none =>
    have hgone : w.dropTun = w := by rw [World.dropTun, ← htun, ← hw htun]
    have habsent : w.present tunName = false := by simp [World.present, htun]
    cases c with
    | none => simp only [exec, World.ip, habsent, Bool.false_eq_true, if_false, hgone]
    | some e => exact hgone.symm
  | some fd =>
    have hpresent : w.present tunName = true := by simp [World.present, htun]
    rcases hc with rfl | hnone
    · simp only [exec, World.ip, hpresent, if_true]
    · rw [htun] at hnone
      cases hnone

end Calls

variable {fd : Fd} {α : Type}

section Routines
variable {me : ι} {w : World ι}

theorem linkDelete_clears (hw : Linked w) :
    (ignore (runIp (.linkDelete tunName))).Ensures (exec me) RollsBack
      (fun _ w' => w' = w.dropTun) w := by
  refine (Prog.ensures_bind _ _).2 ((Prog.ensures_bind _ _).2 fun c hc => ?_)
  rw [exec_linkDelete_clears hw hc]
  rcases (exec me (.ip (.linkDelete tunName)) c w).2 with (_ | _) | _ <;> exact rfl

theorem flushTable_clears :
    flushTable.run.Ensures (exec me) RollsBack (fun _ w' => w' = { w with table := none }) w := by
  refine (Prog.ensures_bind _ _).2 fun c hc => ?_
  rw [exec_nftDelete_clears hc]
  rcases (exec me .nftDelete c w).2 with (_ | _) | _ <;> exact rfl

theorem Quiet.ensures_linked {ok : Op → Option Failure → World ι → Prop} {p : HelperM α}
    (h : p.Only Op.Quiet) (hw : Linked w) :
    p.Ensures (exec me) ok (fun _ w' => Same w w' ∧ Linked w') w :=
  h.ensures (fun o c w' ho hw' => ⟨hw'.1.trans (exec_quiet me ho c w'), exec_linked o c hw'.2⟩)
    ⟨.refl w, hw⟩

/-- The clean-up at the start of a session removes what an earlier one has left. -/
theorem cleanupStale_clean (hsession : w.session = none) (hw : Linked w) :
    cleanupStale.Ensures (exec me) RollsBack (fun _ w' => Clean w') w := by
  refine (Prog.ensures_bind _ _).2 ?_
  refine (Quiet.ensures_linked (only_revertResolved (fun _ => trivial) tunName) hw).mono ?_
  rintro - w₁ ⟨hsame₁, hlink₁⟩
  refine (Prog.ensures_bind _ _).2 ?_
  refine (Quiet.ensures_linked (Prog.only_perform (o := Op.readJournal) trivial) hlink₁).mono ?_
  rintro journal w₂ ⟨hsame₂, hlink₂⟩
  refine (Prog.ensures_bind _ _).2 ?_
  refine (Quiet.ensures_linked (only_restoreRecorded (fun _ => trivial) journal) hlink₂).mono ?_
  rintro - w₃ ⟨hsame₃, hlink₃⟩
  refine (Prog.ensures_bind _ _).2 ((Prog.ensures_bind _ _).2 (flushTable_clears.mono ?_))
  rintro - w₄ rfl
  have hlink₄ : Linked { w₃ with table := none } := hlink₃
  refine (Prog.ensures_bind _ _).2 ((linkDelete_clears hlink₄).mono ?_)
  rintro - w₅ rfl
  have hnone : w₃.session = none :=
    hsame₃.session.trans (hsame₂.session.trans (hsame₁.session.trans hsession))
  intro c _
  cases c <;> exact ⟨hnone, rfl, rfl, rfl⟩

/-- The device is there, and nothing else of a tunnel. -/
structure DeviceOnly (fd : Fd) (w : World ι) : Prop where
  session : w.session = none
  tun : w.tun = some fd
  table : w.table = none

theorem DeviceOnly.linked (h : DeviceOnly fd w) : Linked w := by
  intro htun
  rw [h.tun] at htun
  cases htun

theorem DeviceOnly.same {w' : World ι} (h : DeviceOnly fd w) (hsame : Same w w') :
    DeviceOnly fd w' :=
  ⟨hsame.session.trans h.session, hsame.tun.trans h.tun, hsame.table.trans h.table⟩

theorem DeviceOnly.dropTun (h : DeviceOnly fd w) : Clean w.dropTun :=
  ⟨h.session, rfl, h.table, rfl⟩

/-- The device is created, or the world is as clean as before. -/
def Created : Except String Fd → World ι → Prop
  | .ok fd, w => DeviceOnly fd w
  | .error _, w => Clean w

theorem createNamedTun_created (name : String) (hw : Clean w) :
    (createNamedTun name).run.Ensures (exec me) RollsBack Created w := by
  unfold createNamedTun
  split_ifs with hname
  · exact hw
  · intro c _
    rcases c with _ | (_ | _)
    · simp only [exec, hw.tun, Option.isSome_none, Bool.false_eq_true, if_false]
      exact ⟨hw.session, rfl, hw.table⟩
    · exact hw
    · exact hw

/-- A step that failed has been undone. -/
def Undone (good : World ι → Prop) : Except String Unit → World ι → Prop
  | .ok _, w => good w
  | .error _, w => Clean w

theorem configure_undone (spec : ApplySpec) (hw : DeviceOnly fd w) :
    (orElse (configureTun spec) (ignore (runIp (.linkDelete tunName)))).run.Ensures (exec me)
      RollsBack (Undone (DeviceOnly fd)) w := by
  refine orElse_ensures ((Configures.ensures (only_configureTun spec)).mono fun r w' hsame => ?_)
  have hw' := hw.same hsame
  cases r with
  | ok u => exact hw'
  | error e =>
    refine (linkDelete_clears hw'.linked).mono ?_
    rintro - _ rfl
    exact hw'.dropTun

/-- The table is loaded. -/
def Loaded (w : World ι) : Prop := w.table ≠ none

theorem applyTable_loads (script : String) (hw : DeviceOnly fd w) :
    (applyTable script).run.Ensures (exec me) RollsBack (fun r w' => match r with
      | .ok () => Loaded w'
      | .error _ => DeviceOnly fd w') w := by
  refine (Prog.ensures_except_bind _ _).2 (flushTable_clears.mono ?_)
  rintro r _ rfl
  have hflushed : DeviceOnly fd { w with table := none } := ⟨hw.session, hw.tun, rfl⟩
  cases r with
  | error e => exact hflushed
  | ok u =>
    refine (Prog.ensures_bind _ _).2 fun c _ => ?_
    rcases c with _ | (_ | _)
    · exact fun h => by cases h
    · exact hflushed
    · exact hflushed

theorem table_undone (spec : ApplySpec) (hw : DeviceOnly fd w) :
    (orElse (applyTable (renderTable spec.tableArgs)) (do
      restoreAdded []
      ignore (runIp (.linkDelete tunName)))).run.Ensures (exec me) RollsBack (Undone Loaded) w := by
  refine orElse_ensures ((applyTable_loads _ hw).mono fun r w' hr => ?_)
  cases r with
  | ok u => exact hr
  | error e =>
    refine (Prog.ensures_bind _ _).2 ((linkDelete_clears hr.linked).mono ?_)
    rintro - _ rfl
    exact hr.dropTun

end Routines

section Journal
variable {me : ι} {w : World ι} {log : Log}

/-- Calls that do not write the journal. -/
def Op.Unrecorded : Op → Prop
  | .writeJournal _ => False
  | _ => True

variable {o : Op}

theorem Op.Configures.unrecorded (h : o.Configures) : o.Unrecorded := by
  cases o <;> trivial

theorem Op.Cleans.unrecorded (h : o.Cleans) : o.Unrecorded := by
  cases o <;> trivial

theorem JournalKept.append (h : JournalKept log) (ho : o.Unrecorded) (c : Option Failure) :
    JournalKept (log ++ [(o, c)]) := by
  intro added e hmem
  rcases List.mem_append.1 hmem with hold | hnew
  · exact h added e hold
  · obtain ⟨rfl, -⟩ := Prod.mk.inj (List.mem_singleton.1 hnew)
    exact ho

theorem not_journalKept_append (h : ¬ JournalKept log) (x : Op × Option Failure) :
    ¬ JournalKept (log ++ [x]) :=
  fun hkept => h fun added e hmem => hkept added e (List.mem_append_left _ hmem)

/-- The environment of a logged run. -/
def RollsBackLogged (o : Op) (c : Option Failure) (v : World ι × Log) : Prop := RollsBack o c v.1

/-- What a program ensures that does not write the journal, it ensures with the log kept. -/
theorem ensures_journalKept {p : HelperM α} {post : α → World ι → Prop}
    (h : p.Ensures (exec me) RollsBack post w) (honly : p.Only Op.Unrecorded)
    (hlog : JournalKept log) :
    p.Ensures (Prog.logged (exec me)) RollsBackLogged
      (fun a v => post a v.1 ∧ JournalKept v.2) (w, log) :=
  (h.logged log).and (honly.ensures (fun _ c _ ho hv => hv.append ho c) hlog)

/-- After a failure: all is clean, or the journal was not written and the table is loaded. -/
def Settled (v : World ι × Log) : Prop :=
  (Clean v.1 ∧ JournalKept v.2) ∨ (Loaded v.1 ∧ ¬ JournalKept v.2)

theorem Settled.clean_iff {v : World ι × Log} (h : Settled v) : Clean v.1 ↔ JournalKept v.2 := by
  rcases h with ⟨hclean, hkept⟩ | ⟨hloaded, hlost⟩
  · exact iff_of_true hclean hkept
  · exact iff_of_false (fun hclean => hloaded hclean.table) hlost

/-- The postcondition of a routine that may fail. -/
def FailsSettled {α : Type} (r : Except String α) (v : World ι × Log) : Prop :=
  ∀ e, r = .error e → Settled v

theorem failsSettled_ok (a : α) (v : World ι × Log) : FailsSettled (.ok a : Except String α) v :=
  fun _ h => by cases h

/-- The last step: a journal that cannot be written leaves the table. -/
theorem recordSession_settled (hloaded : Loaded w) :
    recordSession.run.Ensures (Prog.logged (exec me)) RollsBackLogged FailsSettled (w, log) := by
  refine (Prog.ensures_except_bind _ _).2 fun c _ => ?_
  have hlost : ∀ e, ¬ JournalKept (log ++ [(Op.writeJournal [], some e)]) :=
    fun e hkept => hkept [] e (List.mem_append_right _ (List.mem_singleton.2 rfl))
  rcases c with _ | (text | text)
  · exact (Prog.ensures_lift _).2 fun _ _ => failsSettled_ok _ _
  · exact fun _ _ => .inr ⟨hloaded, hlost (.io text)⟩
  · exact fun _ _ => .inr ⟨hloaded, hlost (.status text)⟩

theorem bringUp_settled (spec : ApplySpec) (hw : DeviceOnly fd w) (hlog : JournalKept log) :
    (bringUp spec).run.Ensures (Prog.logged (exec me)) RollsBackLogged FailsSettled (w, log) := by
  have hundo : (ignore (runIp (.linkDelete tunName))).Only Op.Unrecorded :=
    only_ignore (only_runIp trivial)
  have hconfigure := (only_configureTun spec).mono fun _ h => h.unrecorded
  have htable := only_applyTable (P := Op.Unrecorded) trivial (fun _ => trivial)
    (renderTable spec.tableArgs)
  refine (Prog.ensures_except_bind _ _).2 ?_
  refine (ensures_journalKept (configure_undone spec hw) (only_orElse hconfigure hundo) hlog).mono ?_
  rintro (e | u) ⟨w₁, log₁⟩ ⟨hw₁, hlog₁⟩
  · exact fun _ _ => .inl ⟨hw₁, hlog₁⟩
  refine (Prog.ensures_except_bind _ _).2 ?_
  refine (ensures_journalKept (table_undone spec hw₁) (only_orElse htable hundo) hlog₁).mono ?_
  rintro (e | u) ⟨w₂, log₂⟩ ⟨hw₂, hlog₂⟩
  · exact fun _ _ => .inl ⟨hw₂, hlog₂⟩
  refine (Prog.ensures_except_bind _ _).2 ((Prog.ensures_lift _).2 ?_)
  refine ((Configures.ensures (only_dnsNote spec _)).logged log₂).mono ?_
  rintro - ⟨w₃, log₃⟩ hsame
  have hloaded : Loaded w₃ := fun h => hw₂ (hsame.table.symm.trans h)
  refine (Prog.ensures_except_bind _ _).2 ((recordSession_settled hloaded).mono ?_)
  rintro (e | u) v hv
  · exact fun _ _ => hv e rfl
  · exact failsSettled_ok _ _

theorem tunClose_settled (fd : Fd) (c : Option Failure) {v : World ι × Log} (h : Settled v) :
    Settled (Prog.logged (exec me) (.tunClose fd) c v).1 := by
  rcases h with ⟨hclean, hkept⟩ | ⟨hloaded, hlost⟩
  · refine .inl ⟨?_, hkept.append (o := .tunClose fd) trivial c⟩
    simp only [Prog.logged, exec, World.closeTun, hclean.tun, reduceCtorEq, if_false]
    exact hclean
  · refine .inr ⟨?_, not_journalKept_append hlost _⟩
    simp only [Prog.logged, exec, World.closeTun]
    split_ifs <;> exact hloaded

theorem buildSession_settled (spec : ApplySpec) (hsession : w.session = none) (hw : Linked w)
    (hlog : JournalKept log) :
    (buildSession spec).Ensures (Prog.logged (exec me)) RollsBackLogged FailsSettled (w, log) := by
  have hcleans := only_cleanupStale.mono fun _ h => h.unrecorded
  refine (Prog.ensures_bind _ _).2 ?_
  refine (ensures_journalKept (cleanupStale_clean hsession hw) hcleans hlog).mono ?_
  rintro - ⟨w₁, log₁⟩ ⟨hw₁, hlog₁⟩
  refine (Prog.ensures_bind _ _).2 ?_
  refine (ensures_journalKept (createNamedTun_created spec.tunName hw₁)
    (only_createNamedTun trivial spec.tunName) hlog₁).mono ?_
  rintro (e | fd) ⟨w₂, log₂⟩ ⟨hw₂, hlog₂⟩
  · exact fun _ _ => .inl ⟨hw₂, hlog₂⟩
  refine (Prog.ensures_bind _ _).2 ((bringUp_settled spec hw₂ hlog₂).mono ?_)
  rintro (e | msg) v hv
  · exact (Prog.ensures_bind _ _).2 fun c _ _ _ => tunClose_settled fd c (hv e rfl)
  · exact failsSettled_ok _ _

end Journal

/-- An `Apply` that finds no session and fails leaves nothing of a tunnel exactly when no write of
the journal failed, and when there was nothing before in the case of a rejected request. -/
theorem failed_apply_clean_iff (me : ι) (spec : ApplySpec) (w : World ι)
    (hsession : w.session = none) (hlinked : w.tun = none → w.resolved = []) :
    (applySpec spec).Ensures (Prog.logged (exec me)) (fun o c v => RollsBack o c v.1)
      (fun r v => ∀ e, r = .error e →
        (Clean v.1 ↔ JournalKept v.2 ∧ (Rejected spec → Clean w))) (w, []) := by
  have hlog : JournalKept [] := fun _ _ => List.not_mem_nil
  unfold applySpec
  cases hvalid : spec.validate with
  | error e =>
    intro _ _
    have hrejected : Rejected spec := by
      rw [Rejected, hvalid]
      exact fun h => by cases h
    exact ⟨fun h => ⟨hlog, fun _ => h⟩, fun h => h.2 hrejected⟩
  | ok u =>
    have haccepted : ¬ Rejected spec := fun h => h hvalid
    refine (Prog.ensures_bind _ _).2 fun c _ => ?_
    have hlog₁ : JournalKept ([] ++ [(Op.sessionActive, c)]) :=
      hlog.append (o := .sessionActive) trivial c
    have hidle : (Prog.logged (exec me) Op.sessionActive c (w, [])).2 = false := by
      simp only [Prog.logged, exec, hsession, Option.isSome_none]
      rfl
    rw [hidle]
    refine (buildSession_settled spec hsession hlinked hlog₁).mono fun r v hv e he => ?_
    rw [(hv e he).clean_iff]
    exact (and_iff_left fun h => absurd h haccepted).symm

/-- A machine without a tunnel. -/
def idleWorld : World Unit := ⟨none, none, 3, none, [], none⟩

theorem failed_apply_clean_idle :
    (applySpec sampleSpec).Ensures (Prog.logged (exec ())) (fun o c v => RollsBack o c v.1)
      (fun r v => ∀ e, r = .error e →
        (Clean v.1 ↔ JournalKept v.2 ∧ (Rejected sampleSpec → Clean idleWorld)))
      (idleWorld, []) :=
  failed_apply_clean_iff () sampleSpec idleWorld rfl fun _ => rfl

/-- Everything succeeds but the write of the journal. -/
def diskFull : Op → Option Failure
  | .writeJournal _ => some (.io "No space left on device (os error 28)")
  | _ => none

/-- When only the journal cannot be written, the table stays. -/
theorem full_disk_leaves_table :
    Clean idleWorld ∧ sampleSpec.validate = .ok () ∧
      (∀ o (w : World Unit), RollsBack o (diskFull o) w) ∧
      ((applySpec sampleSpec).runAlone (exec ()) diskFull idleWorld).1 =
        .error "No space left on device (os error 28)" ∧
      ((applySpec sampleSpec).runAlone (exec ()) diskFull idleWorld).2.table =
        some [renderTable sampleSpec.tableArgs] ∧
      ¬ Clean ((applySpec sampleSpec).runAlone (exec ()) diskFull idleWorld).2 := by
  refine ⟨by decide, by decide, fun o w => ?_, rfl, rfl, fun h => ?_⟩
  · cases o with
    | nftDelete => exact .inl rfl
    | ip cmd => cases cmd <;> first | trivial | exact .inl rfl
    | _ => trivial
  · have htable := h.table
    cases htable

end EasyConnection.Helper
