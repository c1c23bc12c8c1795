import EasyConnection.Socks.Session

/-! # Who may use the upstream

A proxy that is started with a user and a password asks a SOCKS5 client for them before it calls
the upstream. It does not ask the clients of its other two protocols.
-/
namespace EasyConnection.Socks
open Async Codec

/-- The stream begins with a SOCKS5 greeting that offers a user and a password, and then gives
these two. -/
def Presents (user pass : String) (bytes : List UInt8) : Prop :=
  ∃ (methods : List UInt8) (ver : UInt8) (rest : List UInt8),
    methods.length < 256 ∧ 0x02 ∈ methods ∧ (utf8 user).length < 256 ∧ (utf8 pass).length < 256 ∧
    bytes = [0x05, UInt8.ofNat methods.length] ++ methods ++
      [ver, UInt8.ofNat (utf8 user).length] ++ utf8 user ++
      [UInt8.ofNat (utf8 pass).length] ++ utf8 pass ++ rest

inductive Listener where
  | socks
  | http
  deriving DecidableEq

/-- The target with which the HTTP handler calls the upstream. -/
def httpDialled (segments : List (List UInt8)) : Option (String × UInt16) :=
  (readHead (.ofSegments bufCapacity segments)).toOption.map Prod.fst

/-- The upstream is called for a client of the listener only if `permitted`, however the accesses
go. -/
def DialsOnlyIf (auth : Socks5Auth) (listener : Listener) (segments : List (List UInt8))
    (permitted : Prop) : Prop :=
  match listener with
  | .socks => (dispatchSocks auth).run.Ensures exec (fun _ _ _ => True)
      (fun _ s => s.dialled ≠ [] → permitted) (.start segments.flatten)
  | .http => httpDialled segments ≠ none → permitted

/-- How a client comes in: by its first byte on the SOCKS listener, or on the HTTP listener. -/
inductive Entry where
  | socks (version : UInt8)
  | http
  deriving DecidableEq

namespace Entry

def listener : Entry → Listener
  | .socks _ => .socks
  | .http => .http

def Admits : Entry → List (List UInt8) → Prop
  | .socks version, segments => segments.flatten.head? = some version
  | .http, _ => True

/-- The entries at which a client is asked for the credentials, or turned away. -/
def checked : Entry → Bool
  | .socks version => version ≠ 0x04
  | .http => false

end Entry

abbrev Runs {α : Type} (post : Except SocksError α → Session → Prop) (x : SocksM α) (s : Session) :
    Prop :=
  x.run.Ensures exec (fun _ _ _ => True) post s

section Rules
variable {α β : Type} {s : Session}

theorem readExact_runs {n : ℕ} {post : Except SocksError (List UInt8) → Session → Prop}
    (hok : ∀ bytes rest, bytes.length = n → s.input = bytes ++ rest →
      post (.ok bytes) { s with input := rest })
    (herror : ∀ e input, post (.error e) { s with input := input }) :
    Runs post (readExact n) s := by
  rintro ⟨breaks, refuses, upstream⟩ -
  cases breaks with
  | some kind => exact herror (.io kind) s.input
  | none =>
    simp only [exec]
    split_ifs with hlen
    · exact herror (.io .other) []
    · exact hok (s.input.take n) (s.input.drop n) (List.length_take_of_le (Nat.le_of_not_lt hlen))
        (List.take_append_drop n s.input).symm

theorem readByte_runs {post : Except SocksError UInt8 → Session → Prop}
    (hok : ∀ b rest, s.input = b :: rest → post (.ok b) { s with input := rest })
    (herror : ∀ e input, post (.error e) { s with input := input }) :
    Runs post readByte s := by
  refine Prog.ensures_of_then (readExact_runs (fun bytes rest hlen hinput => ?_) herror)
  obtain ⟨b, rfl⟩ := List.length_eq_one_iff.1 hlen
  exact hok b rest hinput

theorem writeAll_runs {bytes : List UInt8} {post : Except SocksError Unit → Session → Prop}
    (hok : ∀ output, post (.ok ()) { s with output := output })
    (herror : ∀ e, post (.error e) s) : Runs post (writeAll bytes) s := by
  rintro ⟨breaks, refuses, upstream⟩ -
  cases refuses with
  | some kind => exact herror (.io kind)
  | none => exact hok (s.output ++ bytes)

theorem runs_of_forall {x : SocksM α} {post : Except SocksError α → Session → Prop}
    (h : ∀ r s', post r s') : Runs post x s := by
  unfold Runs
  generalize x.run = p
  induction p generalizing s with
  | ret a => exact h a s
  | call o k ih => exact fun c _ => ih _

end Rules

section Negotiation
variable {s : Session} {user pass : String}

/-- A greeting is read as it stands in the stream. -/
theorem readGreeting_runs {post : Except SocksError (List UInt8) → Session → Prop}
    (hok : ∀ methods rest, methods.length < 256 →
      s.input = [0x05, UInt8.ofNat methods.length] ++ methods ++ rest →
      post (.ok methods) { s with input := rest })
    (herror : ∀ e input, post (.error e) { s with input := input }) :
    Runs post readGreeting s := by
  refine Prog.ensures_of_then (readExact_runs (fun header rest hlen hinput => ?_) herror)
  obtain ⟨v, n, rfl⟩ := List.length_eq_two.1 hlen
  simp only [Prog.Then, byteAt, List.getD_cons_zero, List.getD_cons_succ]
  split_ifs with hv hn
  · exact herror _ rest
  · refine readExact_runs (fun methods rest' hlen' hrest => ?_) herror
    refine hok methods rest' (hlen' ▸ n.toNat_lt) ?_
    rw [hinput, not_not.1 hv, hlen', UInt8.ofNat_toNat]
    exact congrArg ([0x05, n] ++ ·) hrest
  · refine hok [] rest (by decide) ?_
    have hn0 : n = 0 := UInt8.toNat_inj.1 (Nat.eq_zero_of_not_pos hn)
    rw [hinput, not_not.1 hv, hn0]
    rfl

/-- Past this point the client has given the user and the password. -/
theorem checkUserPass_runs {post : Except SocksError Unit → Session → Prop}
    (hok : ∀ ver rest output, (utf8 user).length < 256 → (utf8 pass).length < 256 →
      s.input = [ver, UInt8.ofNat (utf8 user).length] ++ utf8 user ++
        [UInt8.ofNat (utf8 pass).length] ++ utf8 pass ++ rest →
      post (.ok ()) { s with input := rest, output := output })
    (herror : ∀ e input output, post (.error e) { s with input := input, output := output }) :
    Runs post (checkUserPass (.required user pass)) s := by
  have hio (e : SocksError) (input : List UInt8) : post (.error e) { s with input := input } :=
    herror e input s.output
  refine Prog.ensures_of_then (readByte_runs (fun ver in₁ h₁ => ?_) hio)
  refine Prog.ensures_of_then (readByte_runs (fun ulen in₂ h₂ => ?_) fun e => hio e)
  refine Prog.ensures_of_then (readExact_runs (fun uname in₃ hulen h₃ => ?_) fun e => hio e)
  refine Prog.ensures_of_then (readByte_runs (fun plen in₄ h₄ => ?_) fun e => hio e)
  refine Prog.ensures_of_then (readExact_runs (fun pass' in₅ hplen h₅ => ?_) fun e => hio e)
  refine Prog.ensures_of_then (writeAll_runs (fun output => ?_) fun e => hio e in₅)
  split_ifs with haccepts
  · simp only [Socks5Auth.accepts, Socks5Auth.required, Bool.and_eq_true, beq_iff_eq] at haccepts
    obtain ⟨rfl, rfl⟩ := haccepts
    refine hok ver in₅ output (hulen ▸ ulen.toNat_lt) (hplen ▸ plen.toNat_lt) ?_
    have hall : s.input = ver :: ulen :: (utf8 user ++ (plen :: (utf8 pass ++ in₅))) := by
      rw [h₁]
      exact congrArg (ver :: ·) (h₂.trans (congrArg (ulen :: ·)
        (h₃.trans (congrArg (utf8 user ++ ·) (h₄.trans (congrArg (plen :: ·) h₅))))))
    rw [hall, hulen, hplen, UInt8.ofNat_toNat, UInt8.ofNat_toNat]
    simp
  · exact herror _ in₅ output

theorem select_required (user pass : String) (methods : List UInt8) :
    (Socks5Auth.required user pass).select methods = 0x02 ∧ 0x02 ∈ methods ∨
      (Socks5Auth.required user pass).select methods = 0xFF := by
  by_cases hmem : 0x02 ∈ methods
  · exact .inl ⟨by simp [Socks5Auth.select, Socks5Auth.required, hmem], hmem⟩
  · exact .inr (by simp [Socks5Auth.select, Socks5Auth.required, hmem])

/-- A negotiation that succeeds has seen the credentials, and none calls the upstream. -/
theorem negotiate_runs :
    Runs (fun r s' => s'.dialled = s.dialled ∧ (r = .ok () → Presents user pass s.input))
      (negotiate (.required user pass)) s := by
  refine Prog.ensures_of_then (readGreeting_runs (fun methods rest hlen hinput => ?_) fun e input => ⟨rfl, nofun⟩)
  refine Prog.ensures_of_then (writeAll_runs (fun output => ?_) fun e => ⟨rfl, nofun⟩)
  simp only [Prog.Then]
  split_ifs with hnone huser
  · exact ⟨rfl, nofun⟩
  · refine checkUserPass_runs (fun ver rest' output' hu hp hrest => ⟨rfl, fun _ => ?_⟩)
      fun e input output => ⟨rfl, nofun⟩
    refine ⟨methods, ver, rest', hlen, ?_, hu, hp, ?_⟩
    · rcases select_required user pass methods with ⟨_, hmem⟩ | hselect
      · exact hmem
      · exact absurd hselect hnone
    · have hall := hinput.trans (congrArg ([0x05, UInt8.ofNat methods.length] ++ methods ++ ·) hrest)
      rw [hall]
      simp
  · rcases select_required user pass methods with ⟨hselect, _⟩ | hselect
    · exact absurd hselect huser
    · exact absurd hselect hnone

theorem handleSocks5_runs (hdialled : s.dialled = []) :
    Runs (fun _ s' => s'.dialled ≠ [] → Presents user pass s.input)
      (handleSocks5 (.required user pass)) s := by
  refine Prog.ensures_of_then (negotiate_runs.mono fun r s' hr => ?_)
  obtain ⟨hsame, hpresents⟩ := hr
  cases r with
  | ok _ => exact runs_of_forall fun _ _ _ => hpresents rfl
  | error e => exact fun hne => absurd (hsame.trans hdialled) hne

/-- A client that does not begin like a SOCKS4 client is asked for the credentials. -/
theorem dispatchSocks_runs (hdialled : s.dialled = []) (hfirst : s.input.head? ≠ some 0x04) :
    Runs (fun _ s' => s'.dialled ≠ [] → Presents user pass s.input)
      (dispatchSocks (.required user pass)) s := by
  refine Prog.ensures_of_then (readByte_runs (fun ver rest hinput => ?_) fun _ _ hne => absurd hdialled hne)
  simp only [Prog.Then]
  split_ifs with h5 h4
  · have hback : { s with input := ver :: rest } = s := by rw [← hinput]
    refine Prog.ensures_of_then fun _ _ => ?_
    change Runs _ (handleSocks5 _) { s with input := ver :: rest }
    rw [hback]
    exact handleSocks5_runs hdialled
  · rw [hinput, h4] at hfirst
    exact absurd rfl hfirst
  · exact fun hne => absurd hdialled hne

end Negotiation

/-- Nothing fails. -/
def faultless : Op → Choice := fun _ => ⟨none, none, .ok ⟨[], none⟩⟩

/-- A SOCKS4 request for port 80 of 192.0.2.1, with an empty user id. -/
def socks4Request : List UInt8 := [0x04, 0x01, 0, 80, 192, 0, 2, 1, 0]

def connectRequest : List UInt8 := utf8 "CONNECT example.com:443 HTTP/1.1\r\n\r\n"

theorem not_presents_of_head {user pass : String} {bytes : List UInt8}
    (h : bytes.head? ≠ some 0x05) : ¬ Presents user pass bytes := by
  rintro ⟨methods, ver, rest, _, _, _, _, rfl⟩
  exact h rfl

/-- Exactly at the checked entries does every client have to give the credentials before the
upstream is called. -/
theorem credentials_gate_dial_iff (user pass : String) (entry : Entry) :
    (∀ segments, entry.Admits segments →
      DialsOnlyIf (.required user pass) entry.listener segments
        (Presents user pass segments.flatten)) ↔ entry.checked = true := by
  constructor
  · intro h
    cases entry with
    | http =>
      have hdials := h [connectRequest] trivial (by decide +kernel)
      exact absurd hdials (not_presents_of_head (by decide +kernel))
    | socks version =>
      refine decide_eq_true fun hversion => ?_
      subst hversion
      have hruns : Runs _ _ (.start socks4Request) := h [socks4Request] rfl
      have hdials := hruns.runAlone faultless fun _ _ => trivial
      exact absurd (hdials nofun) (not_presents_of_head (by decide))
  · intro hchecked segments hadmits
    cases entry with
    | http => cases hchecked
    | socks version =>
      refine dispatchSocks_runs (s := .start segments.flatten) rfl fun hfirst => ?_
      have hversion : version = 0x04 := Option.some.inj (hadmits.symm.trans hfirst)
      exact of_decide_eq_true hchecked hversion

/-- A SOCKS4 client and an HTTP client that give no credentials reach the upstream of a proxy
that requires them. -/
theorem credentials_bypassed :
    ((dispatchSocks (.required "alice" "secret")).run.runAlone exec faultless
      (.start socks4Request)).2.dialled = [("192.0.2.1", 80)] ∧
    ¬ Presents "alice" "secret" socks4Request ∧
    httpDialled [connectRequest] = some ("example.com", 443) ∧
    ¬ Presents "alice" "secret" connectRequest :=
  ⟨by decide +kernel, not_presents_of_head (by decide), by decide +kernel,
    not_presents_of_head (by decide +kernel)⟩

end EasyConnection.Socks
