import EasyConnection.Tunnel.Sound

/-! # No session is leaked

`connect` looks at the slot, releases it for the whole of its work and fills it at the end. When
it then finds the slot empty, exactly the session in the slot is running whenever no call is in
progress.
-/
namespace EasyConnection.Tunnel
open Async Config

variable {ι : Type}

/-- The session that the manager knows of. -/
def State.session (st : State ι) : Option ι := st.world.active.map ActiveSession.id

section Quiet
variable {custody : ι → Custody ι} {stages : ι → Stage ι} {st : State ι}

/-- Without a call in progress, what runs is in the slot. -/
theorem Sound.running_iff (h : Sound custody stages st) (hquiet : Quiet st) (j : ι) :
    (st.world.live j).any = true ↔ st.session = some j := by
  have hslot : st.session = some j ↔ ∃ s, custody j = .slot s := by
    simp only [State.session, Option.map_eq_some_iff, h.kept.slot]
  rw [hslot, h.kept.live]
  rcases h.kept.known j with hnobody | ⟨s, hs⟩ | ⟨i, hi⟩
  · simp [hnobody, Custody.live, Live.any, Live.off]
  · simp [hs, Custody.live, ActiveSession.live, Live.any]
  · rw [h.rest i (hquiet i)] at hi
    cases hi

theorem Sound.placed (h : Sound custody stages st) (hquiet : Quiet st) {i : ι}
    (hi : (st.calls i).connected = true) :
    st.session = some i ∨
      ∃ d, st.world.takenBy i = some d ∧ (st.calls d).disconnected = true := by
  have hlanded : Landed (st.calls i) (stages i) := by
    unfold Phase.connected at hi
    split at hi
    · next hc =>
      rw [hc]
      trivial
    · cases hi
  rcases h.landed i hlanded with ⟨s, hs, hid⟩ | ⟨d, hd, hdis⟩
  · left
    rw [State.session, hs, ← hid]
    rfl
  · refine .inr ⟨d, hd, ?_⟩
    have hq := hquiet d
    unfold Phase.disconnects at hdis
    split at hdis
    · next hc =>
      rw [hc] at hq
      cases hq
    · next hc =>
      rw [hc]
      rfl
    · exact hdis.elim

end Quiet

/-- After every run in which no `connect` stores its session over another one: when no call is in
progress, exactly the session in the slot is running, and every `connect` that succeeded is the one
in the slot or was taken down by a `disconnect`. -/
theorem running_session [Texts] [DecidableEq ι] (es : List (Event ι)) (st : State ι)
    (hexcl : Meets step Exclusive State.initial es) (hrun : run step State.initial es = some st)
    (hquiet : Quiet st) :
    (∀ j, (st.world.live j).any = true ↔ st.session = some j) ∧
      ∀ i, (st.calls i).connected = true → st.session = some i ∨
        ∃ d, st.world.takenBy i = some d ∧ (st.calls d).disconnected = true := by
  obtain ⟨custody, stages, h⟩ := sound_run hexcl hrun
  exact ⟨h.running_iff hquiet, fun i hi => h.placed hquiet hi⟩

/-- Three calls. -/
inductive Caller where
  | first
  | second
  | third
  deriving DecidableEq

instance : Fintype Caller where
  elems := {.first, .second, .third}
  complete c := by cases c <;> decide

/-- Everything succeeds. -/
def smooth : Env ι
  | .inspect => false
  | .take => none
  | .store _ => ()
  | .readSnapshot => .default
  | .writeSnapshot _ => ()
  | .getSecret _ => .ok ""
  | .sshOptions => .ok ()
  | .dial _ _ => .ok ()
  | .openSsh _ _ => .ok ⟨"192.0.2.1", 22⟩
  | .disconnectSsh _ => .ok ()
  | .openShadowsocks => .ok ()
  | .startVless => .ok ()
  | .startProxies _ _ _ _ => .ok ("127.0.0.1:1080", "127.0.0.1:8080")
  | .stopProxies _ => ()
  | .ensureHelper => .ok ()
  | .connectHelper => .ok ()
  | .ping => .ok ()
  | .lookupHost _ _ => .ok [.ofOctets 192 0 2 1]
  | .bind _ => .ok ()
  | .connectUdpgw _ _ => .connected
  | .spawn _ _ => ()
  | .apply _ _ => .ok ""
  | .fromOwnedFd => .ok ()
  | .dropHelper _ => ()
  | .teardownHelper _ => .ok ""
  | .cancelStop _ => ()
  | .abortTun _ => ()
  | .spawnPoller _ => ()
  | .stopPoller _ => ()
  | .now => (0 : ℕ)

/-- A profile over SSH, in proxy-only mode. -/
def sshProfile : ConnectionConfig :=
  { ConnectionConfig.newSsh 1 0 "Home" "192.0.2.1" 22 with username := some "alice" }

/-- The same with other ports for the proxies. -/
def otherProfile : ConnectionConfig :=
  { sshProfile with
    proxy := { ProxyShareSettings.default with socksPort := 1081, httpProxyPort := 8081 } }

def steps (n : ℕ) (i : Caller) : List (Event Caller) := List.replicate n (.step i smooth)

/-- A call from its beginning to its end. -/
def oneCall (i : Caller) (req : Request) (n : ℕ) : List (Event Caller) :=
  .call i req :: steps n i ++ [.finish i]

/-- A connection, a disconnection and a second connection. -/
def orderlyRun : List (Event Caller) :=
  oneCall .first (.connect sshProfile) 16 ++ oneCall .second .disconnect 7 ++
    oneCall .third (.connect otherProfile) 16

/-- Two calls of `connect` that both find the slot empty. -/
def overlappingRun : List (Event Caller) :=
  [.call .first (.connect sshProfile), .call .second (.connect otherProfile)] ++
    steps 1 .first ++ steps 1 .second ++
    steps 15 .first ++ [.finish .first] ++ steps 15 .second ++ [.finish .second]

open Sample

theorem orderlyRun_running :
    ∃ st, Meets step Exclusive State.initial orderlyRun ∧
      run step State.initial orderlyRun = some st ∧ Quiet st ∧
      st.session = some Caller.third ∧ (st.calls .first).connected = true ∧
      (∀ j, (st.world.live j).any = true ↔ st.session = some j) ∧
      ∀ i, (st.calls i).connected = true → st.session = some i ∨
        ∃ d, st.world.takenBy i = some d ∧ (st.calls d).disconnected = true := by
  have hexcl : Meets step Exclusive State.initial orderlyRun := by decide +kernel
  have hend : (run step State.initial orderlyRun).any (fun st =>
      decide (Quiet st ∧ st.session = some Caller.third ∧
        (st.calls .first).connected = true)) = true := by decide +kernel
  obtain ⟨st, hrun, hst⟩ := (Option.any_eq_true _ _).1 hend
  have ⟨hquiet, hsession, hfirst⟩ := of_decide_eq_true hst
  have ⟨hlive, hconn⟩ := running_session orderlyRun st hexcl hrun hquiet
  exact ⟨st, hexcl, hrun, hquiet, hsession, hfirst, hlive, hconn⟩

/-- Both calls succeed, and the first session runs on with nothing left that could stop it. -/
theorem overlappingRun_leaks :
    ∃ st, run step State.initial overlappingRun = some st ∧ Quiet st ∧
      (st.calls .first).connected = true ∧ (st.calls .second).connected = true ∧
      st.session = some Caller.second ∧ (st.world.live .first).any = true ∧
      st.world.takenBy .first = none := by
  have hend : (run step State.initial overlappingRun).any (fun st =>
      decide (Quiet st ∧ (st.calls .first).connected = true ∧
        (st.calls .second).connected = true ∧ st.session = some Caller.second ∧
        (st.world.live .first).any = true ∧ st.world.takenBy .first = none)) = true := by
    decide +kernel
  obtain ⟨st, hrun, hst⟩ := (Option.any_eq_true _ _).1 hend
  exact ⟨st, hrun, of_decide_eq_true hst⟩

end EasyConnection.Tunnel
