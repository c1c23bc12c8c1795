import EasyConnection.Ssh.Session

/-! # What a session sends

The calls that a session makes are justified by the ones before. Until the key of the server has
been accepted, nothing of the profile's authentication is looked up; what is sent after that is
what the profile names, and the session is there exactly if the server has accepted it.
-/
namespace EasyConnection.Ssh
open Async Config

section Allowed
variable (profile : ConnectionConfig) (past : List SessionAccess)

/-- The server has accepted the user. -/
def Accepted : Prop :=
  ∃ username c, (⟨.authenticate username c, .ok true⟩ : SessionAccess) ∈ past

def KeyChecked (v : HostKeyVerifier) : Prop := (⟨.handshake v, .ok ()⟩ : SessionAccess) ∈ past

def Read (r : SecretRef) (value : String) : Prop := (⟨.getSecret r, .ok value⟩ : SessionAccess) ∈ past

/-- The options of the session, and the password that was given with them: those of the profile,
or those of the endpoint that its Smart Config names. -/
def Chosen (opts : SshConnectOptions) (password : Option String) : Prop :=
  match profile.smartLinkSecret with
  | some linkRef => ∃ link endpoint, Read past linkRef link ∧
      (⟨.fetchEndpoint link profile.selectedZone, .ok endpoint⟩ : SessionAccess) ∈ past ∧
      smartOptions profile endpoint = .ok opts ∧ password = some endpoint.password
  | none => SshConnectOptions.fromConfig profile = .ok opts ∧ password = none

/-- The passphrase is the one that the profile refers to, if it does. -/
def Passphrase (passphrase : Option SecretRef) (pass : Option String) : Prop :=
  match passphrase with
  | some r => ∃ value, Read past r value ∧ pass = some value
  | none => pass = none

/-- The key comes from the vault, or else from the file that the profile names. -/
def Loaded (path : Option String) (material : Option SecretRef) (pass : Option String)
    (key : PrivateKey) : Prop :=
  match material with
  | some r => ∃ pem, Read past r pem ∧ (⟨.decodeSecretKey pem pass, .ok key⟩ : SessionAccess) ∈ past
  | none => ∃ file, path = some file ∧
      (⟨.loadSecretKey file pass, .ok key⟩ : SessionAccess) ∈ past

/-- What an authentication of a profile lets a session send. -/
def Proves (auth : AuthMethod) (c : Credential) : Prop :=
  match auth with
  | .password secret => ∃ r value, secret = some r ∧ Read past r value ∧ c = .password value
  | .privateKey path passphrase material => ∃ pass key hash, Passphrase past passphrase pass ∧
      Loaded past path material pass key ∧ c = .key key hash
  | .agent => ∃ identities identity hash,
      (⟨.requestIdentities, .ok identities⟩ : SessionAccess) ∈ past ∧ identity ∈ identities ∧
      c = .agent identity.pubkey hash
  | .none => c = .none

/-- What a session may send: the password that it was given, or else what its authentication
says. -/
def Sendable (opts : SshConnectOptions) (password : Option String) (c : Credential) : Prop :=
  match password with
  | some password => c = .password password
  | none => Proves past opts.auth c

/-- The call is made before the server is talked to in SSH. -/
def SessionOp.early : SessionOp → Prop
  | .handshake _ => False
  | .authenticate _ _ => False
  | _ => True

/-- The handshake has not begun. -/
def Early : Prop := ∀ c ∈ past, c.1.early

/-- The calls that a session may make. A secret is the link of the Smart Config, which is read
first of all, or belongs to the authentication of the profile. -/
def Justified (o : SessionOp) : Prop :=
  match o with
  | .getSecret r => (past = [] ∧ profile.smartLinkSecret = some r) ∨
      ∃ opts, Chosen profile past opts none ∧ KeyChecked past opts.verifier ∧
        r ∈ profile.authentication.secretRefs
  | .tcpConnect host port => host = profile.host ∧ port = profile.port
  | .dial host port transport tls => host = profile.host ∧ port = profile.port ∧
      transport = profile.transport ∧ tls = profile.tls
  | .handshake v => Early past ∧
      ∃ opts password, Chosen profile past opts password ∧ v = opts.verifier
  | .authenticate username c => ∃ opts password, Chosen profile past opts password ∧
      KeyChecked past opts.verifier ∧ username = opts.username ∧ Sendable past opts password c
  | _ => True

/-- Nothing is done after the server has accepted. -/
def Allowed (o : SessionOp) (past : List SessionAccess) : Prop :=
  ¬ Accepted past ∧ Justified profile past o

end Allowed

section Programs
variable {profile : ConnectionConfig} {opts : SshConnectOptions} {password : Option String}
  {past past' : List SessionAccess} {α : Type}

theorem Chosen.mono (h : Chosen profile past opts password) (hpast : past ⊆ past') :
    Chosen profile past' opts password := by
  unfold Chosen at h ⊢
  cases hlink : profile.smartLinkSecret with
  | none =>
    rw [hlink] at h
    exact h
  | some linkRef =>
    rw [hlink] at h
    obtain ⟨link, endpoint, hread, hfetched, hopts⟩ := h
    exact ⟨link, endpoint, hpast hread, hpast hfetched, hopts⟩

theorem fromConfig_eq_ok (h : SshConnectOptions.fromConfig profile = .ok opts) :
    opts.host = profile.host ∧ opts.port = profile.port ∧
      opts.auth = profile.authentication ∧ profile.username = some opts.username := by
  unfold SshConnectOptions.fromConfig at h
  split at h
  · split at h
    · next husername =>
      obtain rfl := Except.ok.inj h
      exact ⟨rfl, rfl, rfl, husername⟩
    · cases h
  · cases h

/-- A session that was given no password is that of the profile itself. -/
theorem Chosen.fromConfig (h : Chosen profile past opts none) :
    SshConnectOptions.fromConfig profile = .ok opts := by
  unfold Chosen at h
  cases hlink : profile.smartLinkSecret with
  | none =>
    rw [hlink] at h
    exact h.1
  | some linkRef =>
    rw [hlink] at h
    obtain ⟨link, endpoint, -, -, -, hpassword⟩ := h
    cases hpassword

variable {passphrase : Option SecretRef}

theorem Passphrase.mono {pass : Option String} (h : Passphrase past passphrase pass)
    (hpast : past ⊆ past') : Passphrase past' passphrase pass := by
  cases passphrase with
  | none => exact h
  | some r =>
    obtain ⟨value, hread, hpass⟩ := h
    exact ⟨value, hpast hread, hpass⟩

variable {material : Option SecretRef}

theorem Loaded.mono {path : Option String} {pass : Option String} {key : PrivateKey}
    (h : Loaded past path material pass key) (hpast : past ⊆ past') :
    Loaded past' path material pass key := by
  cases material with
  | none =>
    obtain ⟨file, hpath, hkey⟩ := h
    exact ⟨file, hpath, hpast hkey⟩
  | some r =>
    obtain ⟨pem, hread, hkey⟩ := h
    exact ⟨pem, hpast hread, hpast hkey⟩

/-- An answer of the server decides whether it has accepted, as long as it has not before. -/
theorem accepted_remember_authenticate (h : ¬ Accepted past) (username : String) (c : Credential)
    (x : Except String Bool) :
    x = .ok true ↔ Accepted (Prog.remember (.authenticate username c) x past) := by
  constructor
  · rintro rfl
    exact ⟨username, c, Prog.mem_remember_self⟩
  · rintro ⟨username', c', hmem⟩
    rcases Prog.mem_remember.1 hmem with hmem | heq
    · exact absurd ⟨username', c', hmem⟩ h
    · cases heq
      rfl

variable (profile opts password) in
/-- The server's key has been accepted, and the user has not. -/
structure Ready (past : List SessionAccess) : Prop where
  chosen : Chosen profile past opts password
  checked : KeyChecked past opts.verifier
  pending : ¬ Accepted past

/-- The call sends nothing that proves the user. -/
def SessionOp.quiet : SessionOp → Prop
  | .authenticate _ _ => False
  | _ => True

theorem Early.not_accepted (h : Early past) : ¬ Accepted past :=
  fun ⟨_, _, hmem⟩ => h _ hmem

variable {o : SessionOp} {x : SessionAns o}

theorem Early.remember (h : Early past) (hearly : o.early) : Early (Prog.remember o x past) := by
  intro c hc
  rcases Prog.mem_remember.1 hc with hc | rfl
  · exact h c hc
  · exact hearly

theorem not_accepted_remember (h : ¬ Accepted past) (hquiet : o.quiet) :
    ¬ Accepted (Prog.remember o x past) := by
  rintro ⟨username, c, hmem⟩
  rcases Prog.mem_remember.1 hmem with hmem | heq
  · exact h ⟨username, c, hmem⟩
  · cases heq
    exact hquiet

theorem Ready.remember (h : Ready profile opts password past)
    (hx : ¬ Accepted (Prog.remember o x past)) :
    Ready profile opts password (Prog.remember o x past) :=
  ⟨h.chosen.mono Prog.subset_remember, Prog.subset_remember h.checked, hx⟩

theorem Ready.quiet (h : Ready profile opts password past) (hquiet : o.quiet) :
    Ready profile opts password (Prog.remember o x past) :=
  h.remember (not_accepted_remember h.pending hquiet)

variable (profile) in
/-- The program makes allowed calls only, and ends in `post`. -/
abbrev Opens (post : Except SessionError α → List SessionAccess → Prop) (x : SessionM α)
    (past : List SessionAccess) : Prop :=
  Prog.Heeds (Allowed profile) post x past

/-- A secret of the authentication may be read once the key has been accepted. -/
theorem getSecret_opens (h : Ready profile opts none past) {r : SecretRef}
    (hr : r ∈ opts.auth.secretRefs) :
    Opens profile (Prog.Kept (Ready profile opts none) past fun value past' => Read past' r value)
      (Prog.orFail (SessionCall.getSecret r) .secrets) past := by
  have hauth := (fromConfig_eq_ok h.chosen.fromConfig).2.2.1
  refine Prog.heeds_call ⟨⟨h.pending, .inr ⟨opts, h.chosen, h.checked, hauth ▸ hr⟩⟩, fun x => ?_⟩
  refine ⟨h.quiet (by trivial), Prog.subset_remember, ?_⟩
  rintro value rfl
  exact Prog.mem_remember_self

theorem loadOptionalPassphrase_opens (h : Ready profile opts none past)
    (hrefs : ∀ r ∈ passphrase, r ∈ opts.auth.secretRefs) :
    Opens profile
      (Prog.Kept (Ready profile opts none) past fun pass past' => Passphrase past' passphrase pass)
      (loadOptionalPassphrase passphrase) past := by
  cases passphrase with
  | none => exact Prog.heeds_pure (Prog.kept_ok h (List.Subset.refl _) rfl)
  | some r =>
    refine (getSecret_opens h (hrefs r rfl)).bind ?_ fun e past' h hpast => Prog.kept_error h hpast e
    intro value past' hready hpast hread
    exact Prog.heeds_pure (Prog.kept_ok hready hpast ⟨value, hread, rfl⟩)

theorem loadKey_opens (h : Ready profile opts none past) (path : Option String)
    (hrefs : ∀ r ∈ material, r ∈ opts.auth.secretRefs) (pass : Option String) :
    Opens profile
      (Prog.Kept (Ready profile opts none) past fun key past' => Loaded past' path material pass key)
      (loadKey path material pass) past := by
  match material, path with
  | some r, _ =>
    refine (getSecret_opens h (hrefs r rfl)).bind ?_ fun e past' h hpast => Prog.kept_error h hpast e
    intro pem past' hready hpast hread
    refine Prog.heeds_call ⟨⟨hready.pending, trivial⟩, fun x => ?_⟩
    refine ⟨hready.quiet (by trivial), List.Subset.trans hpast Prog.subset_remember, ?_⟩
    rintro key rfl
    exact ⟨pem, Prog.subset_remember hread, Prog.mem_remember_self⟩
  | none, some file =>
    refine Prog.heeds_call ⟨⟨h.pending, trivial⟩,
      fun x => ⟨h.quiet (by trivial), Prog.subset_remember, ?_⟩⟩
    rintro key rfl
    exact ⟨file, rfl, Prog.mem_remember_self⟩
  | none, none => exact Prog.heeds_throw (Prog.kept_error h (List.Subset.refl _) _)

theorem hashAlg_opens (h : Ready profile opts password past) (isRsa : Bool) :
    Opens profile (Prog.Kept (Ready profile opts password) past fun _ _ => True)
      (hashAlg isRsa) past := by
  cases isRsa with
  | false => exact Prog.heeds_pure (Prog.kept_ok h (List.Subset.refl _) trivial)
  | true =>
    have hcall : Opens profile (Prog.Kept (Ready profile opts password) past fun _ _ => True)
        (Prog.orFail SessionCall.bestSupportedRsaHash .russh) past :=
      Prog.heeds_call ⟨⟨h.pending, trivial⟩, fun x =>
        ⟨h.quiet (by trivial), Prog.subset_remember, fun _ _ => trivial⟩⟩
    exact hcall.bind (fun best past' h hpast _ => Prog.heeds_pure (Prog.kept_ok h hpast trivial))
      fun e past' h hpast => Prog.kept_error h hpast e

/-- The result is what the server has answered. -/
def Tells (r : Except SessionError Bool) (past : List SessionAccess) : Prop :=
  r = .ok true ↔ Accepted past

theorem tells_error (h : ¬ Accepted past) (e : SessionError) : Tells (.error e) past :=
  iff_of_false (fun heq => by cases heq) h

theorem authenticate_allowed (h : Ready profile opts password past) {c : Credential}
    (hc : Sendable past opts password c) : Allowed profile (.authenticate opts.username c) past :=
  ⟨h.pending, opts, password, h.chosen, h.checked, rfl, hc⟩

theorem authenticate_opens (h : Ready profile opts password past) {c : Credential}
    (hc : Sendable past opts password c) :
    Opens profile Tells (Prog.orFail (SessionCall.authenticate opts.username c) .russh) past := by
  refine Prog.heeds_orFail.2 ⟨authenticate_allowed h hc, ?_⟩
  intro (x : Except String Bool)
  refine (Prog.obeys_ret x).2 (Iff.trans ?_ (accepted_remember_authenticate h.pending _ c x))
  cases x with
  | error e => exact iff_of_false (fun heq => by cases heq) (fun heq => by cases heq)
  | ok b =>
    constructor
    · intro heq
      exact congrArg Except.ok (Except.ok.inj heq)
    · intro heq
      exact congrArg Except.ok (Except.ok.inj heq)

/-- The loop goes on only while the server has not accepted. -/
theorem tryIdentities_opens {identities rest : List AgentIdentity} (hauth : opts.auth = .agent)
    (h : Ready profile opts none past)
    (hread : (⟨.requestIdentities, .ok identities⟩ : SessionAccess) ∈ past)
    (hrest : rest ⊆ identities) :
    Opens profile Tells (tryIdentities opts.username false rest) past := by
  induction rest generalizing past with
  | nil => exact Prog.heeds_pure (iff_of_false (fun heq => by cases heq) h.pending)
  | cons identity rest ih =>
    have hrest' : rest ⊆ identities := fun _ hi => hrest (List.mem_cons_of_mem _ hi)
    refine (hashAlg_opens h identity.isRsa).bind ?_ fun e past' h _ => tells_error h.pending e
    intro hash past' hready hpast _
    have hc : Sendable past' opts none (.agent identity.pubkey hash) := by
      unfold Sendable Proves
      rw [hauth]
      exact ⟨identities, identity, hash, hpast hread, hrest List.mem_cons_self, rfl⟩
    refine (Prog.obeys_except_bind _ _).2
      ((Prog.obeys_lift _).2 ⟨authenticate_allowed hready hc, ?_⟩)
    intro (x : Except String Bool)
    have hx := accepted_remember_authenticate hready.pending opts.username
      (.agent identity.pubkey hash) x
    have hnext (hne : x ≠ .ok true) := hready.remember fun h => hne (hx.2 h)
    have hread' : (⟨.requestIdentities, .ok identities⟩ : SessionAccess) ∈
        Prog.remember (.authenticate opts.username (.agent identity.pubkey hash)) x past' :=
      Prog.subset_remember (hpast hread)
    match x, hx, hnext, hread' with
    | .ok true, hx, _, _ =>
      have htells : Tells (.ok true) _ := iff_of_true rfl (hx.1 rfl)
      exact htells
    | .ok false, _, hnext, hread' => exact ih (hnext fun heq => by cases heq) hread' hrest'
    | .error e, _, hnext, hread' => exact ih (hnext fun heq => by cases heq) hread' hrest'

theorem agent_opens (hauth : opts.auth = .agent) (h : Ready profile opts none past) :
    Opens profile Tells (proveUser opts.username .agent) past := by
  have hagent : Opens profile (Prog.Kept (Ready profile opts none) past fun _ _ => True)
      (Prog.orFail SessionCall.agentConnect fun e => .config ("SSH agent unavailable: " ++ e)) past :=
    Prog.heeds_call ⟨⟨h.pending, trivial⟩, fun x =>
      ⟨h.quiet (by trivial), Prog.subset_remember, fun _ _ => trivial⟩⟩
  refine hagent.bind ?_ fun e past' h _ => tells_error h.pending e
  intro _ past₁ h₁ _ _
  have hidentities : Opens profile (Prog.Kept (Ready profile opts none) past₁ fun identities past' =>
      (⟨.requestIdentities, .ok identities⟩ : SessionAccess) ∈ past')
      (Prog.orFail SessionCall.requestIdentities .russh) past₁ := by
    refine Prog.heeds_call ⟨⟨h₁.pending, trivial⟩,
      fun x => ⟨h₁.quiet (by trivial), Prog.subset_remember, ?_⟩⟩
    rintro identities rfl
    exact Prog.mem_remember_self
  refine hidentities.bind ?_ fun e past' h _ => tells_error h.pending e
  intro identities past₂ h₂ _ hread
  exact tryIdentities_opens hauth h₂ hread (List.Subset.refl _)

theorem privateKey_opens {path : Option String}
    (hauth : opts.auth = .privateKey path passphrase material) (h : Ready profile opts none past) :
    Opens profile Tells (proveUser opts.username (.privateKey path passphrase material)) past := by
  have hpassphrase : ∀ r ∈ passphrase, r ∈ opts.auth.secretRefs := by
    intro r hr
    rw [hauth]
    exact List.mem_append_left _ (Option.mem_toList.2 hr)
  have hmaterial : ∀ r ∈ material, r ∈ opts.auth.secretRefs := by
    intro r hr
    rw [hauth]
    exact List.mem_append_right _ (Option.mem_toList.2 hr)
  refine (loadOptionalPassphrase_opens h hpassphrase).bind ?_
    fun e past' h _ => tells_error h.pending e
  intro pass past₁ h₁ _ hpass
  refine (loadKey_opens h₁ path hmaterial pass).bind ?_ fun e past' h _ => tells_error h.pending e
  intro key past₂ h₂ hpast₂ hkey
  refine (hashAlg_opens h₂ key.isRsa).bind ?_ fun e past' h _ => tells_error h.pending e
  intro hash past₃ h₃ hpast₃ _
  refine authenticate_opens h₃ ?_
  unfold Sendable Proves
  rw [hauth]
  exact ⟨pass, key, hash, (hpass.mono hpast₂).mono hpast₃, hkey.mono hpast₃, rfl⟩

theorem proveUser_opens (h : Ready profile opts none past) :
    Opens profile Tells (proveUser opts.username opts.auth) past := by
  cases hauth : opts.auth with
  | password secret =>
    cases secret with
    | none => exact Prog.heeds_throw (tells_error h.pending _)
    | some r =>
      have hr : r ∈ opts.auth.secretRefs := by
        rw [hauth]
        exact List.mem_singleton_self r
      refine (getSecret_opens h hr).bind ?_ fun e past' h _ => tells_error h.pending e
      intro value past' hready _ hread
      refine authenticate_opens hready ?_
      unfold Sendable Proves
      rw [hauth]
      exact ⟨r, value, rfl, hread, rfl⟩
  | privateKey path passphrase material => exact privateKey_opens hauth h
  | agent => exact agent_opens hauth h
  | none =>
    refine authenticate_opens h ?_
    unfold Sendable Proves
    rw [hauth]

/-- The session is there exactly if the server has accepted. -/
def Settled (r : Except SessionError Unit) (past : List SessionAccess) : Prop :=
  r = .ok () ↔ Accepted past

theorem settled_error (h : ¬ Accepted past) (e : SessionError) : Settled (.error e) past :=
  iff_of_false (fun heq => by cases heq) h

theorem settled_of_tells {x : SessionM Bool} (h : Opens profile Tells x past) :
    Opens profile Settled (x >>= requireSuccess) past := by
  refine (Prog.obeys_except_bind x _).2 (Prog.Obeys.mono h ?_)
  intro r past' htells
  match r with
  | .error e => exact settled_error (fun ha => by cases htells.2 ha) e
  | .ok true =>
    have hsettled : Settled (.ok ()) past' := iff_of_true rfl (htells.1 rfl)
    exact hsettled
  | .ok false => exact settled_error (fun ha => by cases htells.2 ha) _

/-- What follows a handshake may rely on the server's key. -/
theorem handshake_bind {f : SessionM Unit} {g : HandshakeFault → SessionError}
    (hchosen : Chosen profile past opts password) (hearly : Early past)
    (hf : ∀ past', Ready profile opts password past' → Opens profile Settled f past') :
    Opens profile Settled (Prog.orFail (SessionCall.handshake opts.verifier) g >>= fun _ => f) past := by
  have hcall : Opens profile (Prog.Kept (fun past' => ¬ Accepted past') past
      fun _ past' => KeyChecked past' opts.verifier)
      (Prog.orFail (SessionCall.handshake opts.verifier) g) past := by
    refine Prog.heeds_call ⟨⟨hearly.not_accepted, hearly, opts, password, hchosen, rfl⟩, fun x => ?_⟩
    refine ⟨not_accepted_remember hearly.not_accepted (by trivial), Prog.subset_remember, ?_⟩
    rintro _ rfl
    exact Prog.mem_remember_self
  exact hcall.bind (fun _ past' h hpast hchecked => hf past' ⟨hchosen.mono hpast, hchecked, h⟩)
    fun e past' h _ => settled_error h e

theorem connect_opens (hchosen : Chosen profile past opts none) (hearly : Early past) :
    Opens profile Settled (connect opts) past := by
  unfold connect
  split_ifs
  · exact Prog.heeds_throw (settled_error hearly.not_accepted _)
  · obtain ⟨hhost, hport, -⟩ := fromConfig_eq_ok hchosen.fromConfig
    have hcall : Opens profile (Prog.Kept Early past fun _ _ => True)
        (Prog.orFail (SessionCall.tcpConnect opts.host opts.port) (tcpError opts.connectTimeoutSecs))
        past :=
      Prog.heeds_call ⟨⟨hearly.not_accepted, hhost, hport⟩, fun x =>
        ⟨hearly.remember (by trivial), Prog.subset_remember, fun _ _ => trivial⟩⟩
    refine hcall.bind ?_ fun e past' h _ => settled_error h.not_accepted e
    intro _ past' hearly' hpast _
    exact handshake_bind (hchosen.mono hpast) hearly' fun past'' h =>
      settled_of_tells (proveUser_opens h)

theorem connectOverTransportInner_opens (hchosen : Chosen profile past opts password)
    (hearly : Early past) :
    Opens profile Settled (connectOverTransportInner opts password) past := by
  unfold connectOverTransportInner
  split_ifs
  · exact Prog.heeds_throw (settled_error hearly.not_accepted _)
  · refine handshake_bind hchosen hearly fun past' h => ?_
    cases password with
    | some password => exact settled_of_tells (authenticate_opens h rfl)
    | none => exact settled_of_tells (proveUser_opens h)

theorem connectSmartProfile_opens {linkRef : SecretRef} {link : String}
    (hlink : profile.smartLinkSecret = some linkRef) (hread : Read past linkRef link)
    (hearly : Early past) : Opens profile Settled (connectSmartProfile profile link) past := by
  have hfetch : Opens profile (Prog.Kept Early past fun endpoint past' =>
      (⟨.fetchEndpoint link profile.selectedZone, .ok endpoint⟩ : SessionAccess) ∈ past')
      (Prog.orFail (SessionCall.fetchEndpoint link profile.selectedZone) .ofSsh) past := by
    refine Prog.heeds_call ⟨⟨hearly.not_accepted, trivial⟩, fun x => ?_⟩
    refine ⟨hearly.remember (by trivial), Prog.subset_remember, ?_⟩
    rintro endpoint rfl
    exact Prog.mem_remember_self
  refine hfetch.bind ?_ fun e past' h _ => settled_error h.not_accepted e
  intro endpoint past₁ h₁ hpast₁ hfetched
  have hshim : Opens profile (Prog.Kept Early past₁ fun _ _ => True)
      (Prog.orFail (SessionCall.openShim endpoint) .ofSsh) past₁ :=
    Prog.heeds_call ⟨⟨h₁.not_accepted, trivial⟩, fun x =>
      ⟨h₁.remember (by trivial), Prog.subset_remember, fun _ _ => trivial⟩⟩
  refine hshim.bind ?_ fun e past' h _ => settled_error h.not_accepted e
  intro _ past₂ h₂ hpast₂ _
  refine (Prog.obeys_except_bind _ _).2 ((Prog.obeys_pure _).2 ?_)
  cases hopts : smartOptions profile endpoint with
  | error e => exact settled_error h₂.not_accepted e
  | ok opts =>
    refine connectOverTransportInner_opens ?_ h₂
    unfold Chosen
    rw [hlink]
    exact ⟨link, endpoint, hpast₂ (hpast₁ hread), hpast₂ hfetched, hopts, rfl⟩

theorem connectProfile_opens (hlink : profile.smartLinkSecret = none)
    (hopts : SshConnectOptions.fromConfig profile = .ok opts) :
    Opens profile Settled (connectProfile profile opts) [] := by
  have hnone : Early [] := fun _ h => by cases h
  have hchosen : Chosen profile [] opts none := by
    unfold Chosen
    rw [hlink]
    exact ⟨hopts, rfl⟩
  unfold connectProfile
  split_ifs
  · exact connect_opens hchosen hnone
  · have hdial : Opens profile (Prog.Kept Early [] fun _ _ => True)
        (Prog.orFail (SessionCall.dial profile.host profile.port profile.transport profile.tls)
          fun e => .other ("SSH transport: " ++ e)) [] :=
      Prog.heeds_call ⟨⟨hnone.not_accepted, rfl, rfl, rfl, rfl⟩, fun x =>
        ⟨hnone.remember (by trivial), Prog.subset_remember, fun _ _ => trivial⟩⟩
    exact hdial.bind (fun _ past' h hpast _ => connectOverTransportInner_opens (hchosen.mono hpast) h)
      fun e past' h _ => settled_error h.not_accepted e

theorem openSession_opens (profile : ConnectionConfig) :
    Opens profile Settled (openSession profile) [] := by
  have hnone : Early [] := fun _ h => by cases h
  unfold openSession
  cases hlink : profile.smartLinkSecret with
  | some linkRef =>
    have hread : Opens profile (Prog.Kept Early []
        fun link past' => Read past' linkRef link)
        (Prog.orFail (SessionCall.getSecret linkRef)
          fun e => .other ("Smart Config vault: " ++ e)) [] := by
      refine Prog.heeds_call ⟨⟨hnone.not_accepted, .inl ⟨rfl, hlink⟩⟩, fun x => ?_⟩
      refine ⟨hnone.remember (by trivial), Prog.subset_remember, ?_⟩
      rintro link rfl
      exact Prog.mem_remember_self
    exact hread.bind (fun link past' h _ hread => connectSmartProfile_opens hlink hread h)
      fun e past' h _ => settled_error h.not_accepted e
  | none =>
    refine (Prog.obeys_except_bind _ _).2 ((Prog.obeys_pure _).2 ?_)
    cases hopts : SshConnectOptions.fromConfig profile with
    | error e => exact settled_error hnone.not_accepted e
    | ok opts => exact connectProfile_opens hlink hopts

end Programs

end EasyConnection.Ssh
