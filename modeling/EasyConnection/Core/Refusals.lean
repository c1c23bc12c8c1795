import EasyConnection.Core.Outcomes

/-! # What a rejected profile leaves behind

Most operations put the secrets of a profile into the vault before the validation and the table
see the profile. When it is rejected, what they have written stays, except for the link of a
Smart Config, which is taken out again.
-/
namespace EasyConnection.Core
open Async Codec Config Secrets Ssh

/-- The validation or the table has rejected a profile. What the validation says of a link is handed
on as an error of the import. -/
def CoreError.rejects : CoreError → Bool
  | .config (.validation _) | .config (.db _) | .config (.importError _) => true
  | _ => false

section Same

/-- The rows, and the entries of the vault with their values, are as they were. -/
structure World.Same (w w' : World) : Prop where
  profiles : ∀ id, w'.profiles.lookup id = w.profiles.lookup id
  vault : ∀ key, w'.vault.lookup key = w.vault.lookup key

variable {w w₁ w₂ : World} {cfg : ConnectionConfig} {r : SecretRef} {value : String}

namespace World.Same

theorem refl (w : World) : w.Same w := ⟨fun _ => rfl, fun _ => rfl⟩

theorem symm (h : w.Same w₁) : w₁.Same w :=
  ⟨fun id => (h.profiles id).symm, fun key => (h.vault key).symm⟩

theorem trans (h : w.Same w₁) (h' : w₁.Same w₂) : w.Same w₂ :=
  ⟨fun id => (h'.profiles id).trans (h.profiles id), fun key => (h'.vault key).trans (h.vault key)⟩

end World.Same

theorem same_store_iff : w.Same (w.store cfg) ↔ w.profiles.lookup cfg.id = some cfg := by
  constructor
  · intro h
    rw [← h.profiles cfg.id, World.lookup_store]
  · intro h
    refine ⟨fun id => ?_, fun _ => rfl⟩
    by_cases hid : id = cfg.id
    · subst hid
      rw [h, World.lookup_store]
    · exact World.lookup_store_of_ne hid

theorem same_put_iff : w.Same (w.put r value) ↔ w.vault.lookup r.id = some value := by
  constructor
  · intro h
    rw [← h.vault r.id, World.lookup_put]
  · intro h
    refine ⟨fun _ => rfl, fun key => ?_⟩
    by_cases hkey : r.id = key
    · subst hkey
      rw [h, World.lookup_put]
    · exact World.lookup_put_of_ne hkey value

/-- New entries are seen. -/
theorem Grown.same_iff {news : List SecretRef} (h : Grown w w₁ news) : w.Same w₁ ↔ news = [] := by
  constructor
  · intro hsame
    refine List.eq_nil_iff_forall_not_mem.2 fun r hr => h.present r hr ?_
    rw [hsame.vault, h.absent r hr]
  · rintro rfl
    exact ⟨fun id => by rw [h.profiles], fun key => h.kept key fun _ hr => nomatch hr⟩

/-- A new entry that is taken out again. -/
theorem Grown.same_forget (h : Grown w w₁ [r]) : w.Same (w₁.forget r) where
  profiles id := by rw [World.forget_profiles, h.profiles]
  vault key := by
    by_cases hkey : r.id = key
    · subst hkey
      rw [World.lookup_forget, h.absent r (List.mem_singleton_self r)]
    · rw [World.lookup_forget_of_ne hkey]
      refine h.kept key fun r' hr' => ?_
      rw [List.mem_singleton.1 hr']
      exact hkey

end Same

section Refused
variable {α β : Type} {w : World}

/-- What holds of the stores if an operation has failed because a profile was rejected. -/
def IfRejected (post : World → Prop) : Except CoreError α → World → Prop
  | .ok _, _ => True
  | .error e, w => e.rejects = true → post w

abbrev Refused [Texts] (post : World → Prop) (x : CoreM α) (w : World) : Prop :=
  Runs (IfRejected post) x w

theorem saveProfile_refused [Texts] (cfg : ConnectionConfig) :
    Refused (· = w) (saveProfile cfg) w :=
  saveProfile_runs (fun _ => trivial) fun _ _ => rfl

/-- The rejection comes after a secret has been stored. -/
theorem putThenSave_refused [Texts] (value : String) (f : SecretRef → ConnectionConfig) :
    Refused (fun w' => ¬ w.Same w') (putSecret value >>= fun r => saveProfile (f r)) w := by
  refine Prog.ensures_of_then (putSecret_runs (fun r hvault hrefs => ?_) fun _ => nofun)
  have hnew : ¬ w.Same (w.put r value) := by
    rw [(Grown.put hvault hrefs value).same_iff]
    exact List.cons_ne_nil r []
  refine (saveProfile_refused (f r)).mono fun r w' h => ?_
  cases r with
  | ok cfg => trivial
  | error e =>
    intro hrejects
    rw [h hrejects]
    exact hnew

/-- A copy of secrets has references where the original has, and fails for the vault only. -/
def Copies (refs : α → List SecretRef) (old : α) : Except CoreError α → Prop
  | .ok new => refs new = [] ↔ refs old = []
  | .error e => e.rejects = false

theorem cloneSecret_copies [Texts] (old : Option SecretRef) :
    Runs (fun r _ => Copies Option.toList old r) (cloneSecret old) w := by
  cases old with
  | none => exact Iff.rfl
  | some old =>
    refine Prog.ensures_of_then (getSecret_runs (fun value _ => ?_) fun _ => rfl)
    refine Prog.ensures_of_then (putSecret_runs (fun r _ _ => ?_) fun _ => rfl)
    exact iff_of_false (List.cons_ne_nil r []) (List.cons_ne_nil old [])

theorem cloneAuth_copies [Texts] (auth : AuthMethod) :
    Runs (fun r _ => Copies AuthMethod.secretRefs auth r) (cloneAuth auth) w := by
  cases auth with
  | password secret =>
    refine Prog.ensures_of_then ((cloneSecret_copies secret).mono fun r _ h => ?_)
    cases r <;> exact h
  | privateKey path passphrase keyMaterial =>
    refine Prog.ensures_of_then ((cloneSecret_copies passphrase).mono fun r _ h => ?_)
    cases r with
    | error e => exact h
    | ok passphrase' =>
      refine Prog.ensures_of_then ((cloneSecret_copies keyMaterial).mono fun r _ h' => ?_)
      cases r with
      | error e => exact h'
      | ok keyMaterial' =>
        refine List.append_eq_nil_iff.trans (Iff.trans ?_ List.append_eq_nil_iff.symm)
        exact and_congr h h'
  | agent => exact Iff.rfl
  | none => exact Iff.rfl

/-- A copy that is rejected leaves the copied secrets. -/
theorem duplicateProfile_refused [Texts] (id : Uuid) :
    Refused (fun w' => w.Same w' ↔ ∀ cfg, w.profiles.lookup id = some cfg →
      cfg.authentication.secretRefs = [] ∧ cfg.smartLinkSecret = none) (duplicateProfile id) w := by
  refine Prog.ensures_of_then (getProfile_runs (fun cfg hcfg => ?_) fun _ => nofun)
  refine Prog.ensures_of_then (newId_runs fun copyId hid => ?_)
  refine Prog.ensures_of_then (now_runs fun created => ?_)
  have hauth := (cloneAuth_grows cfg.authentication w).and (cloneAuth_copies cfg.authentication)
  refine Prog.ensures_of_then (hauth.mono fun r w₁ h₁ => ?_)
  cases r with
  | error e => exact fun hrejects => absurd (hrejects.symm.trans h₁.2) nofun
  | ok auth =>
    have hlink := (cloneSecret_grows cfg.smartLinkSecret w₁).and
      (cloneSecret_copies cfg.smartLinkSecret)
    refine Prog.ensures_of_then (hlink.mono fun r w₂ h₂ => ?_)
    cases r with
    | error e => exact fun hrejects => absurd (hrejects.symm.trans h₂.2) nofun
    | ok link =>
      refine Prog.ensures_of_then (upsertProfile_runs (fun _ => trivial) fun e _ => ?_)
      have hgrown : Grown w w₂ (auth.secretRefs ++ link.toList) := Grown.trans h₁.1 h₂.1
      have hauthRefs : auth.secretRefs = [] ↔ cfg.authentication.secretRefs = [] := h₁.2
      have hlinkRefs : link.toList = [] ↔ cfg.smartLinkSecret.toList = [] := h₂.2
      dsimp only
      rw [hgrown.same_iff, List.append_eq_nil_iff, hauthRefs, hlinkRefs]
      simp [hcfg]

/-- The profile has this password already. -/
def World.HasPassword (w : World) (id : Uuid) (password : String) : Prop :=
  ∃ cfg r, w.profiles.lookup id = some cfg ∧ cfg.authentication = .password (some r) ∧
    w.vault.lookup r.id = some password

theorem World.Same.hasPassword {w' : World} {id : Uuid} {password : String} (h : w.Same w')
    (hw : w.HasPassword id password) : w'.HasPassword id password := by
  obtain ⟨cfg, r, hcfg, hauth, hvalue⟩ := hw
  exact ⟨cfg, r, (h.profiles id).trans hcfg, hauth, (h.vault r.id).trans hvalue⟩

/-- A password is in the vault before the profile is stored. -/
theorem setPasswordSecret_refused [Texts] (id : Uuid) (password : String) :
    Refused (fun w' => w'.profiles = w.profiles ∧ (w.Same w' ↔ w.HasPassword id password))
      (setPasswordSecret id password) w := by
  refine Prog.ensures_of_then (getProfile_runs (fun cfg hcfg => ?_) fun _ => nofun)
  have hpassword : w.HasPassword id password ↔ ∃ r, cfg.authentication = .password (some r) ∧
      w.vault.lookup r.id = some password := by
    constructor
    · rintro ⟨cfg', r, hcfg', hauth⟩
      obtain rfl := Option.some.inj (hcfg.symm.trans hcfg')
      exact ⟨r, hauth⟩
    · rintro ⟨r, hauth⟩
      exact ⟨cfg, r, hcfg, hauth⟩
  dsimp only [Prog.Then, storePassword]
  split
  · next r hauth =>
    refine Prog.ensures_of_then (Prog.ensures_of_then (updateSecret_runs ?_ fun _ => nofun))
    refine Prog.ensures_of_then (now_runs fun t => ?_)
    refine Prog.ensures_of_then (upsertProfile_runs (fun _ => trivial) fun _ _ => ⟨rfl, ?_⟩)
    rw [same_put_iff, hpassword, hauth]
    simp
  · next hauth =>
    refine Prog.ensures_of_then (putSecret_runs (fun r hvault hrefs => ?_) fun _ => nofun)
    refine Prog.ensures_of_then (now_runs fun t => ?_)
    refine Prog.ensures_of_then (upsertProfile_runs (fun _ => trivial) fun _ _ => ⟨rfl, ?_⟩)
    rw [(Grown.put hvault hrefs password).same_iff, hpassword]
    refine iff_of_false (List.cons_ne_nil r []) ?_
    rintro ⟨r', hauth', -⟩
    exact hauth r' hauth'

end Refused

section Runs
variable [Texts] {w w' : World} {cs : List Choice} {α : Type}

theorem newId_then_run {f : Uuid → CoreM α} {r : Except CoreError α}
    (h : (newId >>= f).run.runWith exec Unused cs w = some (r, w')) :
    ∃ c cs', cs = c :: cs' ∧ (f c.uuid).run.runWith exec Unused cs' w = some (r, w') := by
  obtain ⟨c, cs', rfl, -, hrest⟩ := Prog.runWith_call_eq_some.1 h
  exact ⟨c, cs', rfl, hrest⟩

theorem now_then_run {f : Time → CoreM α} {r : Except CoreError α}
    (h : (now >>= f).run.runWith exec Unused cs w = some (r, w')) :
    ∃ c cs', cs = c :: cs' ∧ (f c.now).run.runWith exec Unused cs' w = some (r, w') := by
  obtain ⟨c, cs', rfl, -, hrest⟩ := Prog.runWith_call_eq_some.1 h
  exact ⟨c, cs', rfl, hrest⟩

theorem getProfile_run {id : Uuid} {r : Except CoreError ConnectionConfig}
    (h : (getProfile id).run.runWith exec Unused cs w = some (r, w')) :
    ∃ c, cs = [c] ∧ w' = w ∧ ((∃ cfg, w.profiles.lookup id = some cfg ∧ r = .ok cfg) ∨
      ∃ text, r = .error (.config (.notFound text))) := by
  have hruns : Runs (fun r w' => w' = w ∧ ((∃ cfg, w.profiles.lookup id = some cfg ∧ r = .ok cfg) ∨
      ∃ text, r = .error (.config (.notFound text)))) (getProfile id) w :=
    getProfile_runs (fun cfg hcfg => ⟨rfl, .inl ⟨cfg, hcfg, rfl⟩⟩)
      fun text => ⟨rfl, .inr ⟨text, rfl⟩⟩
  obtain ⟨c, cs', rfl, -, hret⟩ := Prog.runWith_call_eq_some.1 h
  obtain ⟨rfl, -, -⟩ := Prog.runWith_ret_eq_some.1 hret
  exact ⟨c, rfl, hruns.runWith h⟩

theorem putSecret_run {value : String} {r : Except CoreError SecretRef}
    (h : (putSecret value).run.runWith exec Unused cs w = some (r, w')) :
    ∃ c, cs = [c] ∧ ((∃ ref, r = .ok ref ∧ Grown w w' [ref]) ∨ ∃ e, r = .error (.secrets e)) := by
  have hruns : Runs (fun r w' => (∃ ref, r = .ok ref ∧ Grown w w' [ref]) ∨
      ∃ e, r = .error (.secrets e)) (putSecret value) w :=
    putSecret_runs (fun ref hvault hrefs => .inl ⟨ref, rfl, Grown.put hvault hrefs value⟩)
      fun e => .inr ⟨e, rfl⟩
  obtain ⟨c, cs', rfl, -, hret⟩ := Prog.runWith_call_eq_some.1 h
  obtain ⟨rfl, -, -⟩ := Prog.runWith_ret_eq_some.1 hret
  exact ⟨c, rfl, hruns.runWith h⟩

theorem check_run {x : Except ConfigError α} {r : Except CoreError α}
    (h : (check x).run.runWith exec Unused cs w = some (r, w')) :
    cs = [] ∧ w' = w ∧ ((∃ a, x = .ok a ∧ r = .ok a) ∨
      ∃ e, x = .error e ∧ r = .error (.config e)) := by
  obtain ⟨rfl, rfl, rfl⟩ := Prog.runWith_ret_eq_some.1 h
  refine ⟨rfl, rfl, ?_⟩
  cases x with
  | ok a => exact .inl ⟨a, rfl, rfl⟩
  | error e => exact .inr ⟨e, rfl, rfl⟩

variable {cfg : ConnectionConfig}

theorem upsertProfile_run {r : Except CoreError Unit}
    (h : (upsertProfile cfg).run.runWith exec Unused cs w = some (r, w')) :
    ∃ c, cs = [c] ∧
      (validateConnection cfg = .ok () ∧ c.fault = none ∧ r = .ok () ∧ w' = w.store cfg ∨
        (validateConnection cfg = .ok () → c.fault ≠ none) ∧ r.isOk = false ∧ w' = w) := by
  obtain ⟨c, cs', rfl, -, h⟩ := Prog.runWith_call_eq_some.1 h
  obtain ⟨rfl, rfl, rfl⟩ := Prog.runWith_ret_eq_some.1 h
  refine ⟨c, rfl, ?_⟩
  cases hvalid : validateConnection cfg with
  | error e =>
    have hexec : exec (.upsertProfile cfg) c w = (w, .error e) := by simp only [exec, hvalid]
    rw [hexec]
    exact .inr ⟨fun hok => absurd hok (by simp), rfl, rfl⟩
  | ok u =>
    cases hfault : c.fault with
    | none =>
      have hexec : exec (.upsertProfile cfg) c w = (w.store cfg, .ok ()) := by
        simp only [exec, hvalid, hfault]
      rw [hexec]
      exact .inl ⟨rfl, rfl, rfl, rfl⟩
    | some message =>
      have hexec : exec (.upsertProfile cfg) c w = (w, .error (.db message)) := by
        simp only [exec, hvalid, hfault]
      rw [hexec]
      exact .inr ⟨fun _ => Option.some_ne_none message, rfl, rfl⟩

theorem saveProfile_run {r : Except CoreError ConnectionConfig}
    (h : (saveProfile cfg).run.runWith exec Unused cs w = some (r, w')) :
    ∃ c cs', cs = c :: cs' ∧
      (cs' = [] ∧ r.isOk = false ∧ w' = w ∨
        validateConnection (saved cfg c.now) = .ok () ∧ ∃ c', cs' = [c'] ∧
          (c'.fault = none ∧ r = .ok (saved cfg c.now) ∧ w' = w.store (saved cfg c.now) ∨
            c'.fault ≠ none ∧ r.isOk = false ∧ w' = w)) := by
  obtain ⟨c, cs', rfl, hrest⟩ := now_then_run h
  refine ⟨c, cs', rfl, ?_⟩
  rcases Prog.runWith_except_bind hrest with
    ⟨cs₁, cs₂, u, w₁, rfl, hcheck, hstore⟩ | ⟨e, rfl, hcheck⟩
  · obtain ⟨rfl, rfl, ⟨u', hvalid, -⟩ | ⟨e, -, he⟩⟩ := check_run hcheck
    · refine .inr ⟨hvalid, ?_⟩
      rcases Prog.runWith_except_bind hstore with
        ⟨cs₃, cs₄, u'', w₂, rfl, hupsert, hret⟩ | ⟨e, rfl, hupsert⟩
      · obtain ⟨c', rfl, ⟨-, hfault, -, rfl⟩ | ⟨-, hr, -⟩⟩ := upsertProfile_run hupsert
        · obtain ⟨rfl, rfl, rfl⟩ := Prog.runWith_ret_eq_some.1 hret
          exact ⟨c', rfl, .inl ⟨hfault, rfl, rfl⟩⟩
        · cases hr
      · obtain ⟨c', rfl, ⟨-, -, hr, -⟩ | ⟨hfault, hr, rfl⟩⟩ := upsertProfile_run hupsert
        · cases hr
        · exact ⟨c', rfl, .inr ⟨hfault hvalid, hr, rfl⟩⟩
    · cases he
  · obtain ⟨rfl, rfl, -⟩ := check_run hcheck
    exact .inl ⟨rfl, rfl, rfl⟩

variable {e : CoreError}

/-- The link is taken out of the vault again, if the vault lets it. -/
theorem upsertOrForget_run {secret : SecretRef}
    (h : (upsertOrForget cfg secret).run.runWith exec Unused cs w = some (.error e, w')) :
    ∃ c c', cs = [c, c'] ∧
      (c'.fault = none ∧ w' = w.forget secret ∨ c'.fault ≠ none ∧ w' = w) := by
  obtain ⟨cs₁, cs₂, r₁, w₁, rfl, hupsert, hrest⟩ := Prog.runWith_bind_eq_some.1 h
  obtain ⟨c, rfl, ⟨-, -, rfl, rfl⟩ | ⟨-, hr, rfl⟩⟩ := upsertProfile_run hupsert
  · obtain ⟨-, he, -⟩ := Prog.runWith_ret_eq_some.1 hrest
    cases he
  · cases r₁ with
    | ok u => cases hr
    | error e₁ =>
      obtain ⟨c', cs', rfl, -, hrest⟩ := Prog.runWith_call_eq_some.1 hrest
      obtain ⟨rfl, -, rfl⟩ := Prog.runWith_ret_eq_some.1 hrest
      refine ⟨c, c', rfl, ?_⟩
      simp only [exec, World.vaultCall]
      cases hfault : c'.fault with
      | none => exact .inl ⟨rfl, rfl⟩
      | some message => exact .inr ⟨Option.some_ne_none message, rfl⟩

/-- A link that is rejected is out of the vault again, unless the vault keeps it. -/
theorem importSmartLink_refused {L : Library} {link : String}
    (h : (importSmartLink L link).run.runWith exec Unused cs w = some (.error e, w'))
    (hrejects : e.rejects = true) : w.Same w' ↔ ∀ c ∈ cs.getLast?, c.fault = none := by
  rcases Prog.runWith_except_bind h with ⟨cs₁, cs₂, smart, w₁, rfl, hcheck, hrest⟩ | ⟨e', -, hcheck⟩
  · obtain ⟨rfl, rfl, -⟩ := check_run hcheck
    dsimp only at hrest
    split at hrest
    · obtain ⟨-, he, -⟩ := Prog.runWith_ret_eq_some.1 hrest
      obtain rfl := Except.error.inj he
      cases hrejects
    · rcases Prog.runWith_except_bind hrest with
        ⟨cs₃, cs₄, secret, w₂, rfl, hput, hstore⟩ | ⟨e', he, hput⟩
      · obtain ⟨c, rfl, ⟨ref, href, hgrown⟩ | ⟨e', he⟩⟩ := putSecret_run hput
        · obtain rfl := Except.ok.inj href
          obtain ⟨c₁, cs₅, rfl, hnow⟩ := newId_then_run hstore
          obtain ⟨c₂, cs₆, rfl, hupsert⟩ := now_then_run hnow
          rcases Prog.runWith_except_bind hupsert with
            ⟨cs₇, cs₈, u, w₃, rfl, -, hret⟩ | ⟨e', -, hforget⟩
          · obtain ⟨-, he, -⟩ := Prog.runWith_ret_eq_some.1 hret
            cases he
          · obtain ⟨c₃, c₄, rfl, ⟨hfault, rfl⟩ | ⟨hfault, rfl⟩⟩ := upsertOrForget_run hforget
            · refine iff_of_true hgrown.same_forget fun c' hc' => ?_
              obtain rfl := Option.some.inj hc'
              exact hfault
            · refine iff_of_false (fun hsame => ?_) fun hlast => hfault (hlast c₄ rfl)
              exact List.cons_ne_nil _ _ (hgrown.same_iff.1 hsame)
        · cases he
      · obtain rfl := Except.error.inj he
        obtain ⟨c, -, ⟨ref, href, -⟩ | ⟨e', he'⟩⟩ := putSecret_run hput
        · cases href
        · obtain rfl := Except.error.inj he'
          cases hrejects
  · obtain ⟨rfl, rfl, -⟩ := check_run hcheck
    exact iff_of_true (World.Same.refl w') fun c hc => absurd hc (Option.not_mem_none c)

/-- A text that is rejected leaves its password. -/
theorem importProfileText_refused {L : Library} {raw : String}
    (h : (importProfileText L raw).run.runWith exec Unused cs w = some (.error e, w'))
    (hrejects : e.rejects = true) :
    w.Same w' ↔ ∀ c₁ c₂ cs' parsed, cs = c₁ :: c₂ :: cs' →
      parseImport L.imports c₁.uuid c₂.now raw = .ok parsed → parsed.password = none := by
  obtain ⟨c₁, cs₁, rfl, hnow⟩ := newId_then_run h
  obtain ⟨c₂, cs₂, rfl, hparse⟩ := now_then_run hnow
  have hpassword : (∀ c₁' c₂' cs' parsed, c₁ :: c₂ :: cs₂ = c₁' :: c₂' :: cs' →
      parseImport L.imports c₁'.uuid c₂'.now raw = .ok parsed → parsed.password = none) ↔
      ∀ parsed, parseImport L.imports c₁.uuid c₂.now raw = .ok parsed → parsed.password = none := by
    simp only [List.cons.injEq, and_imp]
    exact ⟨fun hall parsed => hall c₁ c₂ cs₂ parsed rfl rfl rfl,
      fun hall _ _ _ parsed hc₁ hc₂ _ => hc₁ ▸ hc₂ ▸ hall parsed⟩
  rw [hpassword]
  rcases Prog.runWith_except_bind hparse with
    ⟨cs₃, cs₄, parsed, w₁, rfl, hcheck, hsave⟩ | ⟨e', -, hcheck⟩
  · obtain ⟨rfl, rfl, ⟨parsed', hparsed, hok⟩ | ⟨e', -, he⟩⟩ := check_run hcheck
    · obtain rfl := Except.ok.inj hok
      simp only [hparsed, Except.ok.injEq, forall_eq']
      dsimp only at hsave
      split at hsave
      · next hnone =>
        rw [(saveProfile_refused parsed.config).runWith hsave hrejects]
        exact iff_of_true (World.Same.refl w₁) hnone
      · next password hsome =>
        refine iff_of_false ((putThenSave_refused password _).runWith hsave hrejects) ?_
        rw [hsome]
        exact Option.some_ne_none password
    · cases he
  · obtain ⟨rfl, rfl, ⟨parsed', -, hr⟩ | ⟨e'', hparsed, -⟩⟩ := check_run hcheck
    · cases hr
    · refine iff_of_true (World.Same.refl w') fun parsed hok => ?_
      cases hparsed.symm.trans hok

end Runs

end EasyConnection.Core
