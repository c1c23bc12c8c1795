import EasyConnection.Helper.Contracts
import EasyConnection.Helper.Server

/-! # The routines when nothing fails

Without failures a clean-up leaves neither device nor table, and an `Apply` that has found no
session leaves all three of record, device and table.
-/
namespace EasyConnection.Helper
open Async Nftables

/-- Every command succeeds that can. -/
def noFault (_ : Op) (c : Option Failure) (_ : World ι) : Prop := c = none

/-- The record agrees with the kernel: all of record, device and table exist, or none. -/
def Agree {ι : Type} (w : World ι) : Prop :=
  (w.session.isSome = true ∧ w.tun.isSome = true ∧ w.table.isSome = true) ∨
    (w.session = none ∧ w.tun = none ∧ w.table = none)

variable {ι : Type} {me : ι} {w : World ι}

theorem flushTable_noFault :
    flushTable.run.Ensures (exec me) noFault (fun r w' => r = .ok () ∧
      w'.session = w.session ∧ w'.tun = w.tun ∧ w'.table = none) w := by
  refine (Prog.ensures_bind _ _).2 fun c hc => ?_
  subst hc
  cases htable : w.table with
  | none =>
    simp only [exec, htable, Option.isSome_none, Bool.false_eq_true, if_false]
    exact ⟨rfl, rfl, rfl, htable⟩
  | some scripts =>
    simp only [exec, htable, Option.isSome_some, if_true]
    exact ⟨rfl, rfl, rfl, rfl⟩

theorem linkDelete_noFault :
    (ignore (runIp (.linkDelete tunName))).Ensures (exec me) noFault (fun _ w' =>
      w'.session = w.session ∧ w'.tun = none ∧ w'.table = w.table) w := by
  refine (Prog.ensures_bind _ _).2 ((Prog.ensures_bind _ _).2 fun c hc => ?_)
  subst hc
  cases htun : w.tun with
  | none =>
    have habsent : w.present tunName = false := by simp [World.present, htun]
    simp only [exec, World.ip, habsent, Bool.false_eq_true, if_false]
    exact ⟨rfl, htun, rfl⟩
  | some fd =>
    have hpresent : w.present tunName = true := by simp [World.present, htun]
    simp only [exec, World.ip, hpresent, if_true]
    exact ⟨rfl, rfl, rfl⟩

theorem cleanupStale_noFault :
    cleanupStale.Ensures (exec me) noFault (fun _ w' =>
      w'.session = w.session ∧ w'.tun = none ∧ w'.table = none) w := by
  refine (Prog.ensures_bind _ _).2 ?_
  refine (Quiet.ensures (only_revertResolved (fun _ => trivial) tunName)).mono fun _ w₁ h₁ => ?_
  refine (Prog.ensures_bind _ _).2 ((Quiet.ensures (Prog.only_perform (o := Op.readJournal)
    trivial)).mono fun journal w₂ h₂ => ?_)
  refine (Prog.ensures_bind _ _).2 ((Quiet.ensures (only_restoreRecorded (fun _ => trivial)
    journal)).mono fun _ w₃ h₃ => ?_)
  have h : Same w w₃ := (h₁.trans h₂).trans h₃
  refine (Prog.ensures_bind _ _).2 ((Prog.ensures_bind _ _).2 (flushTable_noFault.mono
    fun _ w₄ h₄ => ?_))
  refine (Prog.ensures_bind _ _).2 (linkDelete_noFault.mono fun _ w₅ h₅ => ?_)
  refine (Quiet.ensures (Prog.only_perform (o := Op.removeJournal) trivial)).mono fun _ w₆ h₆ => ?_
  refine ⟨?_, h₆.tun.trans h₅.2.1, h₆.table.trans (h₅.2.2.trans h₄.2.2.2)⟩
  rw [h₆.session, h₅.1, h₄.2.1, h.session]

/-- Commands on a device that is there succeed and change nothing that counts. -/
theorem runIp_present {cmd : IpCmd} (h : w.ip cmd = (w, .ok ())) :
    (runIp cmd).run.Ensures (exec me) noFault (fun r w' => r = .ok () ∧ w' = w) w := by
  refine (Prog.ensures_bind _ _).2 fun c hc => ?_
  subst hc
  simp only [exec, h]
  exact ⟨rfl, rfl⟩

theorem addAddr_present {addr dev : String} (h : w.present dev = true) :
    (addAddr addr dev).run.Ensures (exec me) noFault (fun r w' => r = .ok () ∧ w' = w) w := by
  refine (Prog.ensures_bind _ _).2 ((runIp_present (by simp [World.ip, h])).mono
    fun r w' hr => ?_)
  obtain ⟨rfl, rfl⟩ := hr
  exact ⟨rfl, rfl⟩

theorem configureTun_noFault (spec : ApplySpec) (h : w.present spec.tunName = true) :
    (configureTun spec).run.Ensures (exec me) noFault (fun r w' => r = .ok () ∧ w' = w) w := by
  have hmtu : w.ip (.linkSetMtu spec.tunName spec.mtu) = (w, .ok ()) := by simp [World.ip, h]
  have hup : w.ip (.linkSetUp spec.tunName) = (w, .ok ()) := by simp [World.ip, h]
  refine (Prog.ensures_except_bind _ _).2 ((runIp_present hmtu).mono fun r w' hr => ?_)
  obtain ⟨rfl, rfl⟩ := hr
  refine (Prog.ensures_except_bind _ _).2 ((addAddr_present h).mono fun r w'' hr => ?_)
  obtain ⟨rfl, rfl⟩ := hr
  dsimp only
  split_ifs
  · refine (Prog.ensures_except_bind _ _).2 ((addAddr_present h).mono fun r w'' hr => ?_)
    obtain ⟨rfl, rfl⟩ := hr
    exact runIp_present hup
  · exact runIp_present hup

theorem applyTable_noFault (script : String) :
    (applyTable script).run.Ensures (exec me) noFault (fun r _ => r = .ok ()) w := by
  refine (Prog.ensures_except_bind _ _).2 (flushTable_noFault.mono fun r w₁ h₁ => ?_)
  obtain ⟨rfl, _⟩ := h₁
  refine (Prog.ensures_bind _ _).2 fun c hc => ?_
  subst hc
  exact rfl

theorem bringUp_noFault (spec : ApplySpec) (h : w.present spec.tunName = true) :
    (bringUp spec).run.Ensures (exec me) noFault (fun r _ => ∃ msg, r = .ok msg) w := by
  refine (Prog.ensures_except_bind _ _).2 (orElse_ensures ((configureTun_noFault spec h).mono
    fun r w₁ hr => ?_))
  obtain ⟨rfl, rfl⟩ := hr
  refine (Prog.ensures_except_bind _ _).2 (orElse_ensures ((applyTable_noFault _).mono
    fun r w₂ hr => ?_))
  subst hr
  refine (Prog.ensures_except_bind _ _).2 ((Prog.ensures_lift _).2 ((Configures.ensures
    (only_dnsNote spec _)).mono fun _ w₃ _ => ?_))
  refine (Prog.ensures_except_bind _ _).2 ((Prog.ensures_except_bind _ _).2 fun c hc => ?_)
  subst hc
  exact (Prog.ensures_lift _).2 fun _ _ => ⟨_, rfl⟩

/-- An `Apply` that starts without a session ends with everything, or with nothing. -/
theorem buildSession_noFault (spec : ApplySpec) (hnone : w.session = none) :
    (buildSession spec).Ensures (exec me) noFault (fun _ w' => Agree w') w := by
  refine (Prog.ensures_bind _ _).2 (cleanupStale_noFault.mono fun _ w₁ h₁ => ?_)
  have hbare : Agree w₁ := .inr ⟨h₁.1.trans hnone, h₁.2⟩
  refine (Prog.ensures_bind _ _).2 ?_
  unfold createNamedTun
  split_ifs with hname
  · exact hbare
  · intro c hc
    subst hc
    rw [not_not] at hname
    simp only [exec, h₁.2.1, Option.isSome_none, Bool.false_eq_true, if_false]
    refine (Prog.ensures_bind _ _).2 ?_
    have hup : ∀ w : World ι, w.tun = some w₁.nextFd → (bringUp spec).run.Ensures (exec me) noFault
        (BroughtUp me w₁.nextFd w) w :=
      fun w hw => (bringUp_ensures spec hw).weaken fun _ _ _ _ => trivial
    refine ((hup _ rfl).and (bringUp_noFault spec (by simp [World.present, hname]))).mono
      fun r w₂ h₂ => ?_
    obtain ⟨hup, msg, rfl⟩ := h₂
    exact .inl ⟨by simp [hup.session], by simp [hup.tun], hup.table⟩

end EasyConnection.Helper
