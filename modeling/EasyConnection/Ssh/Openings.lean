import EasyConnection.Ssh.Credentials

/-! # Sessions that are opened at once

Any number of sessions are opened over one file of known hosts, which each of them may read and
extend. Of the SSH library it is assumed that a handshake ends well only if the check of the
server's key has, and that a check is one step.
-/
namespace EasyConnection.Ssh
open Async Config

/-- What is on record depends on the server only. -/
theorem HostKeyVerifier.recorded_congr {F : Type} {K : KnownHosts F} {v w : HostKeyVerifier}
    {file : F} (hhost : w.host = v.host) (hport : w.port = v.port) :
    w.recorded K file = v.recorded K file := by
  rw [recorded, recorded, hhost, hport]

/-- Records stay when a key is learned. -/
theorem HostKeyVerifier.recorded_learned {F : Type} (K : KnownHosts F) (v w : HostKeyVerifier)
    (key : PublicKey) (file : F) :
    w.recorded K file ⊆ w.recorded K (K.learnKnownHosts v.host v.port key file) := by
  unfold recorded
  by_cases hw : v.host = w.host ∧ v.port = w.port
  · rw [hw.1, hw.2, K.learned]
    exact List.subset_append_left _ _
  · rw [K.elsewhere key file hw]
    exact List.Subset.refl _

section Sessions
variable {ι F : Type} [DecidableEq ι] (K : KnownHosts F)

/-- How the handshake goes: it breaks off before the server has shown a key, or a key is checked,
after which it may still fail. -/
inductive Handshake where
  | broken (e : HandshakeFault)
  | offered (key : PublicKey) (choice : FileChoice) (late : Option HandshakeFault)
  deriving DecidableEq

/-- A handshake whose check has been answered. -/
def conclude : Option HandshakeFault → Except HostKeyError Bool → Except HandshakeFault Unit
  | some e, _ => .error e
  | none, .ok true => .ok ()
  | none, .ok false => .error (.russh "Unknown server key")
  | none, .error e => .error (.hostKey e)

namespace Handshake
variable (v : HostKeyVerifier) (file : F)

def answer : Handshake → Except HandshakeFault Unit
  | .broken e => .error e
  | .offered key choice late => conclude late (v.verify K choice key ⟨file, none⟩).1

def fileAfter : Handshake → F
  | .broken _ => file
  | .offered key choice _ => (v.verify K choice key ⟨file, none⟩).2.knownHosts

/-- The server that the session talks to from then on. -/
def server (h : Handshake) : Option (HostKeyVerifier × PublicKey) :=
  match h, h.answer K v file with
  | .offered key _ _, .ok () => some (v, key)
  | _, _ => none

end Handshake

/-- A session on its way: what it has done, what is left, and the server it is talking to. -/
structure Opening where
  profile : ConnectionConfig
  past : List SessionAccess
  rest : SessionProg (Except SessionError Unit)
  server : Option (HostKeyVerifier × PublicKey)

def Opening.ofProfile (profile : ConnectionConfig) : Opening :=
  ⟨profile, [], (openSession profile).run, none⟩

structure Sessions (ι F : Type) where
  knownHosts : F
  openings : ι → Option Opening

def Sessions.initial (file : F) : Sessions ι F := ⟨file, fun _ => none⟩

inductive SessionEvent (ι : Type) where
  | begins (i : ι) (profile : ConnectionConfig)
  | answers (i : ι) (x : SessionAccess)
  | shakes (i : ι) (h : Handshake)

/-- The next call of the session gets the answer, if it is the call that is answered. -/
def Opening.answered (a : Opening) (x : SessionAccess) : Option Opening :=
  match a.rest with
  | .ret _ => none
  | .call o k =>
    if h : x.1 = o then some { a with past := a.past ++ [x], rest := k (h ▸ x.2) } else none

def SessionOp.isHandshake : SessionOp → Bool
  | .handshake _ => true
  | _ => false

def Opening.verifier? (a : Opening) : Option HostKeyVerifier :=
  match a.rest with
  | .call (.handshake v) _ => some v
  | _ => none

namespace Sessions

def setOpening (st : Sessions ι F) (i : ι) (a : Opening) : Sessions ι F :=
  { st with openings := Function.update st.openings i (some a) }

def step (st : Sessions ι F) : SessionEvent ι → Option (Sessions ι F)
  | .begins i profile =>
    if (st.openings i).isNone then some (st.setOpening i (.ofProfile profile)) else none
  | .answers i x => do
    let a ← st.openings i
    if x.1.isHandshake then none
    else return st.setOpening i (← a.answered x)
  | .shakes i h => do
    let a ← st.openings i
    let v ← a.verifier?
    let a' ← a.answered ⟨.handshake v, h.answer K v st.knownHosts⟩
    return ⟨h.fileAfter K v st.knownHosts,
      Function.update st.openings i (some { a' with server := h.server K v st.knownHosts })⟩

end Sessions

section Outcome
variable {K} {v : HostKeyVerifier} {file : F} {h : Handshake}

theorem conclude_eq_ok {late : Option HandshakeFault} {answer : Except HostKeyError Bool}
    (h : conclude late answer = .ok ()) : answer = .ok true := by
  match late, answer with
  | none, .ok true => rfl
  | none, .ok false => cases h
  | none, .error e => cases h
  | some e, _ => cases h

/-- A handshake that ends well was one in which a key was accepted. -/
theorem Handshake.server_of_ok (hok : h.answer K v file = .ok ()) :
    ∃ key choice late, h = .offered key choice late ∧ h.server K v file = some (v, key) ∧
      (v.verify K choice key ⟨file, none⟩).1 = .ok true := by
  cases h with
  | broken e => cases hok
  | offered key choice late =>
    refine ⟨key, choice, late, rfl, ?_, conclude_eq_ok hok⟩
    unfold server
    rw [hok]

theorem Handshake.ok_of_server {w : HostKeyVerifier} {key : PublicKey}
    (hserver : h.server K v file = some (w, key)) : w = v ∧ h.answer K v file = .ok () := by
  unfold server at hserver
  split at hserver
  · next hok =>
    cases hserver
    exact ⟨rfl, hok⟩
  · cases hserver

/-- The file has changed only if a key of an unknown algorithm was offered. -/
theorem Handshake.fileAfter_cases (h : Handshake) (v : HostKeyVerifier) (file : F) :
    h.fileAfter K v file = file ∨ ∃ key choice late, h = .offered key choice late ∧
      (∀ k ∈ v.recorded K file, k.algorithm ≠ key.algorithm) ∧
      h.fileAfter K v file = K.learnKnownHosts v.host v.port key file := by
  cases h with
  | broken e => exact .inl rfl
  | offered key choice late =>
    rcases HostKeyVerifier.verify_cases (v := v) choice key ⟨file, none⟩ with
      ⟨hsame, -⟩ | ⟨hunknown, hlearned⟩
    · exact .inl hsame
    · exact .inr ⟨key, choice, late, rfl, hunknown, hlearned⟩

/-- Records stay. -/
theorem Handshake.recorded_fileAfter (h : Handshake) (v w : HostKeyVerifier) (file : F) :
    w.recorded K file ⊆ w.recorded K (h.fileAfter K v file) := by
  rcases h.fileAfter_cases v file with hsame | ⟨key, _, _, _, _, hlearned⟩
  · rw [hsame]
    exact List.Subset.refl _
  · rw [hlearned]
    exact HostKeyVerifier.recorded_learned K v w key file

/-- The key that was accepted is on record. -/
theorem Handshake.server_recorded {w : HostKeyVerifier} {key : PublicKey}
    (hserver : h.server K v file = some (w, key)) : key ∈ w.recorded K (h.fileAfter K v file) := by
  obtain ⟨rfl, hok⟩ := ok_of_server hserver
  obtain ⟨key', choice, late, rfl, hserver', hverify⟩ := server_of_ok hok
  obtain ⟨-, rfl⟩ := Prod.mk.inj (Option.some.inj (hserver.symm.trans hserver'))
  change key ∈ w.recorded K (w.verify K choice key ⟨file, none⟩).2.knownHosts
  rcases HostKeyVerifier.verify_cases (v := w) choice key ⟨file, none⟩ with
    ⟨hsame, hknown⟩ | ⟨-, hlearned⟩
  · rw [hsame]
    exact hknown hverify
  · rw [hlearned, HostKeyVerifier.recorded, K.learned]
    exact List.mem_append_right _ List.mem_cons_self

end Outcome

section Moves
variable {st st' : Sessions ι F} {e : SessionEvent ι}

/-- What one step does. -/
inductive Moves (st : Sessions ι F) : SessionEvent ι → Sessions ι F → Prop where
  | begins {i : ι} {profile : ConnectionConfig} (h : st.openings i = none) :
      Moves st (.begins i profile) (st.setOpening i (.ofProfile profile))
  | answers {i : ι} {a : Opening} {o : SessionOp} {k : SessionAns o → SessionProg _} {x : SessionAns o}
      (ha : st.openings i = some a) (hrest : a.rest = .call o k) (ho : o.isHandshake = false) :
      Moves st (.answers i ⟨o, x⟩)
        (st.setOpening i ⟨a.profile, a.past ++ [⟨o, x⟩], k x, a.server⟩)
  | shakes {i : ι} {a : Opening} {v : HostKeyVerifier} {k : SessionAns (.handshake v) → SessionProg _}
      {h : Handshake} (ha : st.openings i = some a) (hrest : a.rest = .call (.handshake v) k) :
      Moves st (.shakes i h) ⟨h.fileAfter K v st.knownHosts, Function.update st.openings i
        (some ⟨a.profile, a.past ++ [⟨.handshake v, h.answer K v st.knownHosts⟩],
          k (h.answer K v st.knownHosts), h.server K v st.knownHosts⟩)⟩

variable {K}

theorem Opening.answered_eq_some {a a' : Opening} {x : SessionAccess} (h : a.answered x = some a') :
    ∃ k, a.rest = .call x.1 k ∧ a' = ⟨a.profile, a.past ++ [x], k x.2, a.server⟩ := by
  unfold answered at h
  split at h
  · cases h
  · next o k hrest =>
    split at h
    · next ho =>
      subst ho
      exact ⟨k, hrest, (Option.some.inj h).symm⟩
    · cases h

theorem step_moves (h : st.step K e = some st') : Moves K st e st' := by
  cases e with
  | begins i profile =>
    simp only [Sessions.step] at h
    split at h
    · next hnone =>
      obtain rfl := Option.some.inj h
      exact .begins (Option.isNone_iff_eq_none.1 hnone)
    · cases h
  | answers i x =>
    simp only [Sessions.step, Option.bind_eq_bind, Option.bind_eq_some_iff] at h
    obtain ⟨a, ha, h⟩ := h
    split at h
    · cases h
    · next ho =>
      obtain ⟨a', ha', h⟩ := Option.bind_eq_some_iff.1 h
      obtain rfl := Option.some.inj h
      obtain ⟨k, hrest, rfl⟩ := Opening.answered_eq_some ha'
      exact .answers ha hrest (Bool.eq_false_iff.2 ho)
  | shakes i hs =>
    simp only [Sessions.step, Option.bind_eq_bind, Option.bind_eq_some_iff] at h
    obtain ⟨a, ha, v, hv, a', ha', h⟩ := h
    obtain rfl := Option.some.inj h
    obtain ⟨k, hrest, rfl⟩ := Opening.answered_eq_some ha'
    exact .shakes ha hrest

end Moves

section Known
variable {K} {st st' : Sessions ι F} {file : F} {a : Opening}

/-- The session has done what it may, and talks to a server whose key is on record. -/
structure Opening.Sound (K : KnownHosts F) (file : F) (a : Opening) : Prop where
  followed : Prog.Followed (Allowed a.profile) Settled a.past a.rest
  served : ∀ v, KeyChecked a.past v → ∃ key, a.server = some (v, key)
  known : ∀ v key, a.server = some (v, key) → key ∈ v.recorded K file

theorem Opening.Sound.mono {file' : F} (h : a.Sound K file)
    (hfile : ∀ v : HostKeyVerifier, v.recorded K file ⊆ v.recorded K file') : a.Sound K file' :=
  ⟨h.followed, h.served, fun v key hserver => hfile v (h.known v key hserver)⟩

theorem Opening.sound_ofProfile (profile : ConnectionConfig) (file : F) :
    (Opening.ofProfile profile).Sound K file where
  followed := ⟨Prog.warranted_nil, openSession_opens profile⟩
  served := fun _ h => by cases h
  known := fun _ _ h => by cases h

theorem Opening.Sound.answer (h : a.Sound K file) {o : SessionOp}
    {k : SessionAns o → SessionProg (Except SessionError Unit)} (hrest : a.rest = .call o k)
    (ho : o.isHandshake = false) (x : SessionAns o) :
    Opening.Sound K file ⟨a.profile, a.past ++ [⟨o, x⟩], k x, a.server⟩ where
  followed := by
    have hfollowed := h.followed
    rw [hrest] at hfollowed
    exact hfollowed.step x
  served := by
    intro v hv
    rcases List.mem_append.1 hv with hv | hv
    · exact h.served v hv
    · cases List.mem_singleton.1 hv
      cases ho
  known := h.known

/-- The session has made one handshake at most, so the server it talks to is the one of that
handshake. -/
theorem Opening.Sound.shake (h : a.Sound K file) {v : HostKeyVerifier}
    {k : SessionAns (.handshake v) → SessionProg (Except SessionError Unit)}
    (hrest : a.rest = .call (.handshake v) k) (hs : Handshake) :
    Opening.Sound K (hs.fileAfter K v file) ⟨a.profile, a.past ++ [⟨.handshake v, hs.answer K v file⟩],
      k (hs.answer K v file), hs.server K v file⟩ := by
  have hfollowed := h.followed
  rw [hrest] at hfollowed
  have hearly : Early a.past := hfollowed.2.1.2.1
  refine ⟨hfollowed.step _, fun w hw => ?_, fun w key hserver => Handshake.server_recorded hserver⟩
  rcases List.mem_append.1 hw with hw | hw
  · exact absurd (hearly _ hw) id
  · obtain ⟨hv, hok⟩ := Sigma.mk.inj (List.mem_singleton.1 hw)
    cases hv
    obtain ⟨key, _, _, _, hserver, _⟩ := Handshake.server_of_ok (eq_of_heq hok).symm
    exact ⟨key, hserver⟩

def Sessions.Sound (K : KnownHosts F) (st : Sessions ι F) : Prop :=
  ∀ i a, st.openings i = some a → a.Sound K st.knownHosts

theorem sound_step {e : SessionEvent ι} (h : st.Sound K) (hstep : st.step K e = some st') :
    st'.Sound K := by
  intro i a ha
  cases step_moves hstep with
  | @begins j profile hnone =>
    by_cases hij : i = j
    · subst hij
      simp only [Sessions.setOpening, Function.update_self] at ha
      obtain rfl := Option.some.inj ha
      exact Opening.sound_ofProfile profile _
    · simp only [Sessions.setOpening, Function.update_of_ne hij] at ha
      exact h i a ha
  | @answers j b o k x hb hrest ho =>
    by_cases hij : i = j
    · subst hij
      simp only [Sessions.setOpening, Function.update_self] at ha
      obtain rfl := Option.some.inj ha
      exact (h i b hb).answer hrest ho x
    · simp only [Sessions.setOpening, Function.update_of_ne hij] at ha
      exact h i a ha
  | @shakes j b v k hs hb hrest =>
    by_cases hij : i = j
    · subst hij
      simp only [Function.update_self] at ha
      obtain rfl := Option.some.inj ha
      exact (h i b hb).shake hrest hs
    · simp only [Function.update_of_ne hij] at ha
      exact (h i a ha).mono fun w => hs.recorded_fileAfter v w st.knownHosts

theorem sound_run {es : List (SessionEvent ι)}
    (hrun : run (Sessions.step K) (Sessions.initial file) es = some st) : st.Sound K := by
  refine run_invariant (fun _ _ _ h _ hs => sound_step h hs) ?_
    (Meets.of_forall (fun _ _ => trivial) _ es) hrun
  exact fun _ _ h => by cases h

/-- Every call of the session was justified by the ones before, the session is there exactly if
the server has accepted, and all proofs of the user have gone to a server whose key was accepted
and is on record. -/
structure Opening.Proper (K : KnownHosts F) (file : F) (a : Opening) : Prop where
  justified : Prog.Warranted (Allowed a.profile) a.past
  settled : ∀ r, a.rest = .ret r → (r = .ok () ↔ Accepted a.past)
  known : ∀ username c x, (⟨.authenticate username c, x⟩ : SessionAccess) ∈ a.past →
    ∃ v key, a.server = some (v, key) ∧ KeyChecked a.past v ∧ key ∈ v.recorded K file

theorem Opening.Sound.proper (h : a.Sound K file) : a.Proper K file where
  justified := h.followed.1
  settled := by
    intro r hr
    have hobeys := h.followed.2
    rw [hr] at hobeys
    exact hobeys
  known := by
    intro username c x hmem
    obtain ⟨past, rest, hpast⟩ := List.append_of_mem hmem
    obtain ⟨-, opts, password, -, hchecked, -⟩ := h.followed.1 past _ rest hpast
    have hchecked : KeyChecked a.past opts.verifier := by
      rw [hpast]
      exact List.mem_append_left _ hchecked
    obtain ⟨key, hserver⟩ := h.served _ hchecked
    exact ⟨opts.verifier, key, hserver, hchecked, h.known _ _ hserver⟩

/-- Whatever other sessions are opened at the same time, a session looks up the secrets of its
profile only after the server's key has been accepted, and sends to that server what its profile
names. -/
theorem sessions_proper {es : List (SessionEvent ι)}
    (hrun : run (Sessions.step K) (Sessions.initial file) es = some st) {i : ι}
    (ha : st.openings i = some a) : a.Proper K st.knownHosts :=
  (sound_run hrun i a ha).proper

/-- A profile that trusts on first use. -/
def aliceProfile : ConnectionConfig :=
  { ConnectionConfig.newSsh 1 0 "home" "ssh.example" 22 with
    username := some "alice"
    authentication := .password (some ⟨"home"⟩)
    settings := .ssh 30 15 .tofu }

/-- The server shows its key, and accepts the password. -/
def smoothSession : List (SessionEvent Unit) :=
  [.begins () aliceProfile, .answers () ⟨.tcpConnect "ssh.example" 22, .ok ()⟩,
    .shakes () (.offered serverKey .fine none), .answers () ⟨.getSecret ⟨"home"⟩, .ok "pass"⟩,
    .answers () ⟨.authenticate "alice" (.password "pass"), .ok true⟩]

theorem smoothSession_proper :
    ∃ st a, run (Sessions.step knownHostsLines) (Sessions.initial []) smoothSession = some st ∧
      st.openings () = some a ∧ a.rest = .ret (.ok ()) ∧ a.Proper knownHostsLines st.knownHosts := by
  have hend : ∃ st a, run (Sessions.step knownHostsLines) (Sessions.initial []) smoothSession = some st ∧
      st.openings () = some a ∧ a.rest = .ret (.ok ()) := ⟨_, _, rfl, rfl, rfl⟩
  obtain ⟨st, a, hrun, ha, hrest⟩ := hend
  exact ⟨st, a, hrun, ha, hrest, sessions_proper hrun ha⟩

end Known

section OneKey
variable {st st' : Sessions ι F} {file : F} {w : HostKeyVerifier}

/-- The server `w` shows keys of one algorithm: that of the key on record, if there is one. -/
def OneAlgorithm (w : HostKeyVerifier) (st : Sessions ι F) : SessionEvent ι → Prop
  | .shakes i (.offered key _ _) => ∀ a ∈ st.openings i, ∀ v ∈ a.verifier?,
      v.host = w.host → v.port = w.port →
        ∀ k ∈ w.recorded K st.knownHosts, k.algorithm = key.algorithm
  | _ => True

instance (w : HostKeyVerifier) (st : Sessions ι F) : (e : SessionEvent ι) →
    Decidable (OneAlgorithm K w st e)
  | .shakes i (.offered key _ _) => inferInstanceAs (Decidable (∀ a ∈ st.openings i,
      ∀ v ∈ a.verifier?, v.host = w.host → v.port = w.port →
        ∀ k ∈ w.recorded K st.knownHosts, k.algorithm = key.algorithm))
  | .shakes _ (.broken _) => inferInstanceAs (Decidable True)
  | .begins _ _ => inferInstanceAs (Decidable True)
  | .answers _ _ => inferInstanceAs (Decidable True)

/-- One key at most is on record. -/
def SingleKey (w : HostKeyVerifier) (file : F) : Prop :=
  ∀ k ∈ w.recorded K file, ∀ k' ∈ w.recorded K file, k = k'

variable {K}

theorem singleKey_fileAfter {v : HostKeyVerifier} {h : Handshake} (hsingle : SingleKey K w file)
    (hone : ∀ key choice late, h = .offered key choice late → v.host = w.host → v.port = w.port →
      ∀ k ∈ w.recorded K file, k.algorithm = key.algorithm) :
    SingleKey K w (h.fileAfter K v file) := by
  rcases h.fileAfter_cases v file with hsame | ⟨key, choice, late, heq, hunknown, hlearned⟩
  · rwa [hsame]
  · unfold SingleKey HostKeyVerifier.recorded
    rw [hlearned]
    by_cases hw : v.host = w.host ∧ v.port = w.port
    · -- the key is recorded only where there is none yet
      have hnone : K.recorded w.host w.port file = [] := by
        refine List.eq_nil_iff_forall_not_mem.2 fun k hk => ?_
        have hv : k ∈ v.recorded K file := by
          rwa [HostKeyVerifier.recorded_congr hw.1 hw.2]
        exact hunknown k hv (hone key choice late heq hw.1 hw.2 k hk)
      rw [hw.1, hw.2, K.learned, hnone, List.nil_append]
      simp
    · rw [K.elsewhere key file hw]
      exact hsingle

theorem singleKey_step {e : SessionEvent ι} (h : SingleKey K w st.knownHosts)
    (hone : OneAlgorithm K w st e) (hstep : st.step K e = some st') : SingleKey K w st'.knownHosts := by
  cases step_moves hstep with
  | begins _ => exact h
  | answers _ _ _ => exact h
  | @shakes i a v k hs ha hrest =>
    refine singleKey_fileAfter h ?_
    rintro key choice late rfl
    have hv : a.verifier? = some v := by
      unfold Opening.verifier?
      rw [hrest]
    exact hone a ha v hv

/-- A server that has shown keys of one algorithm only is known to all sessions by one key, under
whatever policies and however they overlap. -/
theorem one_key_per_server {es : List (SessionEvent ι)} (hfile : SingleKey K w file)
    (hone : Meets (Sessions.step K) (OneAlgorithm K w) (Sessions.initial file) es)
    (hrun : run (Sessions.step K) (Sessions.initial file) es = some st) {i j : ι} {a b : Opening}
    (ha : st.openings i = some a) (hb : st.openings j = some b) {va vb : HostKeyVerifier}
    {ka kb : PublicKey} (hva : a.server = some (va, ka)) (hvb : b.server = some (vb, kb))
    (hwa : va.host = w.host ∧ va.port = w.port) (hwb : vb.host = w.host ∧ vb.port = w.port) :
    ka = kb := by
  have hsingle : SingleKey K w st.knownHosts :=
    run_invariant (I := fun st => SingleKey K w st.knownHosts)
      (fun _ _ _ h hone hs => singleKey_step h hone hs) hfile hone hrun
  have hsound := sound_run hrun
  have hka := (hsound i a ha).known va ka hva
  have hkb := (hsound j b hb).known vb kb hvb
  rw [HostKeyVerifier.recorded_congr hwa.1 hwa.2] at hka
  rw [HostKeyVerifier.recorded_congr hwb.1 hwb.2] at hkb
  exact hsingle ka hka kb hkb

/-- Two sessions that shake hands with a new server at once. -/
def twoSessions : List (SessionEvent Bool) :=
  [.begins false aliceProfile, .begins true aliceProfile,
    .answers false ⟨.tcpConnect "ssh.example" 22, .ok ()⟩,
    .answers true ⟨.tcpConnect "ssh.example" 22, .ok ()⟩,
    .shakes true (.offered serverKey .fine none), .shakes false (.offered serverKey .fine none)]

theorem twoSessions_one_key :
    ∃ st a b ka kb, run (Sessions.step knownHostsLines) (Sessions.initial []) twoSessions =
        some st ∧ st.openings false = some a ∧ st.openings true = some b ∧
      a.server = some (exampleVerifier, ka) ∧ b.server = some (exampleVerifier, kb) ∧ ka = kb := by
  have hend : ∃ st a b ka kb,
      run (Sessions.step knownHostsLines) (Sessions.initial []) twoSessions = some st ∧
      st.openings false = some a ∧ st.openings true = some b ∧
      a.server = some (exampleVerifier, ka) ∧ b.server = some (exampleVerifier, kb) :=
    ⟨_, _, _, _, _, rfl, rfl, rfl, rfl, rfl⟩
  obtain ⟨st, a, b, ka, kb, hrun, ha, hb, hva, hvb⟩ := hend
  have hone : Meets (Sessions.step knownHostsLines)
      (OneAlgorithm knownHostsLines exampleVerifier) (Sessions.initial []) twoSessions := by
    decide
  have hfile : SingleKey knownHostsLines exampleVerifier [] := fun _ hk => by cases hk
  exact ⟨st, a, b, ka, kb, hrun, ha, hb, hva, hvb,
    one_key_per_server hfile hone hrun ha hb hva hvb ⟨rfl, rfl⟩ ⟨rfl, rfl⟩⟩

end OneKey

end Sessions

end EasyConnection.Ssh
