import EasyConnection.Codec.Json
import EasyConnection.Helper.Server
import EasyConnection.Ipc.Lockstep

/-! # Calls of the helper over its sockets

The clients' calls as bytes on sockets, each end taking any part of them at a time. The helper's
tasks run as in the model that handles a request in one step: a request is taken when its frame
is complete, and a response is out when its frame is. A client that goes away does nothing more,
and the helper may find a socket broken whenever it reads or writes.
-/
namespace EasyConnection.Helper
open Async Ipc Nftables

/-- How requests and responses are written and read. -/
structure MessageCodec where
  readRequest : List UInt8 → Option HelperRequest
  response : HelperResponse → List UInt8
  readResponse : List UInt8 → Option HelperResponse

inductive ClientError where
  | json
  | rejected (message : String)
  | ipc (message : String)
  deriving DecidableEq

def HelperRequest.expectsFd : HelperRequest → Bool
  | .apply _ => true
  | _ => false

/-- What the client's `roundtrip` makes of the frame it has received. -/
def roundtripResult (codec : MessageCodec) (expectFd : Bool) (f : Frame Fd) :
    Except ClientError (HelperResponse × Option Fd) :=
  match codec.readResponse f.payload with
  | none => .error .json
  | some (.error message) => .error (.rejected message)
  | some resp =>
    if expectFd ∧ f.fd = none then
      .error (.ipc "helper Apply succeeded but no TUN file descriptor was passed")
    else .ok (resp, f.fd)

/-- The helper with its sockets. -/
structure Wired (ι : Type) where
  helper : State ι
  socks : ι → Sock Fd

inductive WiredEvent (ι : Type) where
  | call (c : ι) (payload : List UInt8)
  | callerSend (c : ι) (n : ℕ)
  | callerRecv (c : ι) (op : String) (n : ℕ)
  | calleeRecv (c : ι) (n : ℕ)
  | step (c : ι) (choice : Option Failure)
  /-- `send_json` begins. -/
  | answer (c : ι)
  | calleeSend (c : ι) (n : ℕ)
  /-- The helper's end finds the socket closed or broken. -/
  | drop (c : ι)
  deriving DecidableEq

variable {ι : Type} [DecidableEq ι]

namespace Wired

def initial (w : World ι) : Wired ι := ⟨.initial w, fun _ => .opened⟩

variable (codec : MessageCodec) (uid : ι → UInt32) (st : Wired ι)

def setSock (c : ι) (s : Sock Fd) : Wired ι := { st with socks := Function.update st.socks c s }

/-- A step of the helper behind its sockets. -/
def advance (e : Event ι) : Option (Wired ι) :=
  (Helper.step uid st.helper e).map fun helper => { st with helper }

/-- The request of a complete frame. One that cannot be read ends the task. -/
def accept (c : ι) : Option (Wired ι) :=
  match (st.socks c).callee with
  | .working payload =>
    match codec.readRequest payload with
    | some req => st.advance uid (.request c req)
    | none => st.advance uid (.disconnect c)
  | .receiving _ => some st
  | _ => st.advance uid (.disconnect c)

def step : WiredEvent ι → Option (Wired ι)
  | .call c payload => ((st.socks c).call payload).map (st.setSock c)
  | .callerSend c n => ((st.socks c).callerSend n).map (st.setSock c)
  | .callerRecv c op n => ((st.socks c).callerRecv op n).map (st.setSock c)
  | .calleeRecv c n =>
    match (st.helper.conns c).phase with
    | .idle => ((st.socks c).calleeRecv "helper recv client request" n).bind fun s =>
        (st.setSock c s).accept codec uid c
    | _ => none
  | .step c choice => st.advance uid (.step c choice)
  | .answer c =>
    match (st.helper.conns c).phase with
    | .replying d => ((st.socks c).answer ⟨codec.response d.response, d.fd⟩).bind fun s =>
        match s.callee with
        | .failed => (st.setSock c s).advance uid (.disconnect c)
        | _ => some (st.setSock c s)
    | _ => none
  | .calleeSend c n =>
    match (st.helper.conns c).phase with
    | .replying _ => ((st.socks c).calleeSend n).bind fun s =>
        match s.callee with
        | .receiving _ => (st.setSock c s).advance uid (.reply c)
        | _ => some (st.setSock c s)
    | _ => none
  | .drop c => st.advance uid (.disconnect c)

end Wired

/-- What a handled request may be answered with: a descriptor goes along exactly with an `Apply`
that has succeeded. -/
def Fits (uid : UInt32) (d : Done) : HelperRequest → Prop
  | .ping version => d.fd = none ∧ d.response =
      if version ≠ ipcVersion then .error ("helper IPC version mismatch: client " ++
        toString version ++ ", helper " ++ toString ipcVersion)
      else .pong ipcVersion uid
  | .apply _ => (∃ message fd, d.response = .ok message (some tunName) ∧ d.fd = some fd) ∨
      ∃ message, d.response = .error message ∧ d.fd = none
  | _ => (∃ message, d.response = .ok message none) ∧ d.fd = none

theorem handle_fits (uid : UInt32) (req : HelperRequest) :
    (handle uid req).Returns fun d => Fits uid d req := by
  cases req with
  | ping version =>
    by_cases hversion : version ≠ ipcVersion
    · rw [handle, if_pos hversion]
      exact ⟨rfl, (if_pos hversion).symm⟩
    · rw [handle, if_neg hversion]
      exact ⟨rfl, (if_neg hversion).symm⟩
  | cleanup | emergencyRestore =>
    exact Prog.returns_bind _ fun _ => Prog.returns_bind _ fun _ => ⟨⟨_, rfl⟩, rfl⟩
  | teardown => exact Prog.returns_bind _ fun _ => ⟨⟨_, rfl⟩, rfl⟩
  | apply spec =>
    refine Prog.returns_bind _ fun r => ?_
    cases r with
    | ok up => exact .inl ⟨up.1, up.2, rfl, rfl⟩
    | error message => exact .inr ⟨message, rfl, rfl⟩

/-- The request of a payload has been answered by a frame. -/
def Answers (codec : MessageCodec) (uid : UInt32) (payload : List UInt8) (f : Frame Fd) : Prop :=
  ∃ req d, codec.readRequest payload = some req ∧ Fits uid d req ∧
    f = ⟨codec.response d.response, d.fd⟩

/-- The task of a connection is where the helper's end of the socket is. -/
def Coupled (codec : MessageCodec) (uid : UInt32) (callee : Callee Fd) : Phase → Prop
  | .idle => ∃ pieces, callee = .receiving pieces
  | .busy req p => ∃ payload, callee = .working payload ∧
      codec.readRequest payload = some req ∧ p.Returns fun d => Fits uid d req
  | .replying d =>
      (∃ payload req, callee = .working payload ∧ codec.readRequest payload = some req ∧
        Fits uid d req) ∨ ∃ payload f left, callee = .sending payload f left
  | _ => True

/-- Each socket is in lock-step with its task, and what the tasks have sent are answers. -/
structure WiredSound (codec : MessageCodec) (uid : ι → UInt32) (st : Wired ι) : Prop where
  lockstep : ∀ c, Lockstep (st.socks c)
  coupled : ∀ c, Coupled codec (uid c) (st.socks c).callee (st.helper.conns c).phase
  answers : ∀ c, ∀ p ∈ (st.socks c).handled, Answers codec (uid c) p.1 p.2

section Steps
variable {codec : MessageCodec} {uid : ι → UInt32} {st st' : Wired ι} {c : ι} {s : Sock Fd}

/-- What changes for one connection alone. -/
theorem WiredSound.update (h : WiredSound codec uid st) {helper : State ι}
    (hothers : ∀ d, d ≠ c → helper.conns d = st.helper.conns d) (hlockstep : Lockstep s)
    (hcoupled : Coupled codec (uid c) s.callee (helper.conns c).phase)
    (hanswers : ∀ p ∈ s.handled, Answers codec (uid c) p.1 p.2) :
    WiredSound codec uid ⟨helper, Function.update st.socks c s⟩ where
  lockstep d := by
    by_cases hd : d = c
    · subst hd
      simpa only [Function.update_self] using hlockstep
    · simpa only [Function.update_of_ne hd] using h.lockstep d
  coupled d := by
    by_cases hd : d = c
    · subst hd
      simpa only [Function.update_self] using hcoupled
    · simpa only [Function.update_of_ne hd, hothers d hd] using h.coupled d
  answers d := by
    by_cases hd : d = c
    · subst hd
      simpa only [Function.update_self] using hanswers
    · simpa only [Function.update_of_ne hd] using h.answers d

/-- The caller's end moves, and the task does not notice. -/
theorem WiredSound.setSock (h : WiredSound codec uid st) (hlockstep : Lockstep s)
    (hframe : s.callee = (st.socks c).callee ∧ s.handled = (st.socks c).handled) :
    WiredSound codec uid (st.setSock c s) := by
  refine h.update (fun _ _ => rfl) hlockstep ?_ ?_
  · rw [hframe.1]
    exact h.coupled c
  · rw [hframe.2]
    exact h.answers c

theorem coupled_work {helper : State ι} {payload : List UInt8} {req : HelperRequest}
    {p : HelperM Done} (hreq : codec.readRequest payload = some req)
    (hp : p.Returns fun d => Fits (uid c) d req) :
    Coupled codec (uid c) (.working payload) ((helper.work c req p).conns c).phase := by
  cases p with
  | ret d =>
    simp only [State.work, Function.update_self]
    exact .inl ⟨payload, req, rfl, hreq, hp⟩
  | call o k =>
    rw [work_call_phase]
    exact ⟨payload, rfl, hreq, hp⟩

theorem coupled_leave {helper : State ι} {p : HelperM Unit} {callee : Callee Fd} :
    Coupled codec (uid c) callee ((helper.leave c p).conns c).phase := by
  cases p with
  | ret u => simp only [State.leave, Function.update_self, Coupled]
  | call o k => simp only [State.leave, setPhase_self, Coupled]

/-- A task that ends leaves its socket. -/
theorem WiredSound.disconnect (h : WiredSound codec uid st) {s : Sock Fd} (hlockstep : Lockstep s)
    (hanswers : ∀ p ∈ s.handled, Answers codec (uid c) p.1 p.2)
    (hs : (st.setSock c s).advance uid (.disconnect c) = some st') : WiredSound codec uid st' := by
  obtain ⟨helper, hstep, rfl⟩ := Option.map_eq_some_iff.1 hs
  cases step_moves hstep with
  | teardown _ _ =>
    exact h.update (fun d hd => leave_of_ne _ hd) hlockstep coupled_leave hanswers
  | depart _ _ =>
    refine h.update (fun d hd => setPhase_of_ne _ hd) hlockstep ?_ hanswers
    rw [setPhase_self]
    trivial

theorem WiredSound.calleeRecv (h : WiredSound codec uid st) {n : ℕ}
    (hs : st.step codec uid (.calleeRecv c n) = some st') : WiredSound codec uid st' := by
  simp only [Wired.step] at hs
  split at hs
  · next hidle =>
    obtain ⟨s, hrecv, hs⟩ := Option.bind_eq_some_iff.1 hs
    have hlockstep := (h.lockstep c).calleeRecv hrecv
    have hhandled : s.handled = (st.socks c).handled := Sock.calleeRecv_handled hrecv
    have hanswers := h.answers c
    rw [← hhandled] at hanswers
    have hsock : ((st.setSock c s).socks c).callee = s.callee := by
      simp only [Wired.setSock, Function.update_self]
    rw [Wired.accept, hsock] at hs
    cases hcallee : s.callee with
    | working payload =>
      simp only [hcallee] at hs
      cases hreq : codec.readRequest payload with
      | none =>
        simp only [hreq] at hs
        exact h.disconnect hlockstep hanswers hs
      | some req =>
        simp only [hreq] at hs
        obtain ⟨helper, hstep, rfl⟩ := Option.map_eq_some_iff.1 hs
        cases step_moves hstep with
        | request _ =>
          refine h.update (fun d hd => work_of_ne _ _ hd) hlockstep ?_ hanswers
          rw [hcallee]
          exact coupled_work hreq (handle_fits (uid c) req)
    | receiving pieces =>
      simp only [hcallee] at hs
      rw [← Option.some.inj hs]
      refine h.update (fun _ _ => rfl) hlockstep ?_ hanswers
      rw [hidle]
      exact ⟨pieces, hcallee⟩
    | sending payload f left | failed =>
      simp only [hcallee] at hs
      exact h.disconnect hlockstep hanswers hs
  · cases hs

theorem WiredSound.answer (h : WiredSound codec uid st)
    (hs : st.step codec uid (.answer c) = some st') : WiredSound codec uid st' := by
  simp only [Wired.step] at hs
  split at hs
  · next d hreplying =>
    obtain ⟨s, hanswer, hs⟩ := Option.bind_eq_some_iff.1 hs
    have hlockstep := (h.lockstep c).answer hanswer
    have hcoupled := h.coupled c
    rw [hreplying] at hcoupled
    obtain ⟨payload, req, hworking, hreq, hfits⟩ : ∃ payload req,
        (st.socks c).callee = .working payload ∧ codec.readRequest payload = some req ∧
          Fits (uid c) d req := by
      rcases hcoupled with hworking | ⟨payload, f, left, hsending⟩
      · exact hworking
      · rw [Sock.answer, hsending] at hanswer
        cases hanswer
    rw [Sock.answer, hworking] at hanswer
    simp only at hanswer
    split_ifs at hanswer with hlarge
    · obtain rfl := Option.some.inj hanswer
      exact h.disconnect hlockstep (h.answers c) hs
    · obtain rfl := Option.some.inj hanswer
      simp only at hs
      rw [← Option.some.inj hs]
      refine h.update (fun _ _ => rfl) hlockstep ?_ ?_
      · rw [hreplying]
        exact .inr ⟨payload, _, _, rfl⟩
      · intro p hp
        rcases List.mem_append.1 hp with hp | hp
        · exact h.answers c p hp
        · rw [List.mem_singleton.1 hp]
          exact ⟨req, d, hreq, hfits, rfl⟩
  · cases hs

theorem WiredSound.calleeSend (h : WiredSound codec uid st) {n : ℕ}
    (hs : st.step codec uid (.calleeSend c n) = some st') : WiredSound codec uid st' := by
  simp only [Wired.step] at hs
  split at hs
  · next d hreplying =>
    obtain ⟨s, hsend, hs⟩ := Option.bind_eq_some_iff.1 hs
    have hlockstep := (h.lockstep c).calleeSend hsend
    unfold Sock.calleeSend at hsend
    split at hsend
    · next payload f left hsending =>
      split_ifs at hsend with hpart hall
      · obtain rfl := Option.some.inj hsend
        simp only at hs
        rw [← Option.some.inj hs]
        refine h.update (fun _ _ => rfl) hlockstep ?_ (h.answers c)
        rw [hreplying]
        exact .inr ⟨payload, f, _, rfl⟩
      · obtain rfl := Option.some.inj hsend
        simp only at hs
        obtain ⟨helper, hstep, rfl⟩ := Option.map_eq_some_iff.1 hs
        cases step_moves hstep with
        | reply _ =>
          refine h.update (fun d hd => setPhase_of_ne _ hd) hlockstep ?_ (h.answers c)
          rw [setPhase_self]
          exact ⟨[], rfl⟩
    · cases hsend
  · cases hs

theorem WiredSound.work (h : WiredSound codec uid st) {choice : Option Failure}
    (hs : st.step codec uid (.step c choice) = some st') : WiredSound codec uid st' := by
  obtain ⟨helper, hstep, rfl⟩ := Option.map_eq_some_iff.1 hs
  have hself : Function.update st.socks c (st.socks c) = st.socks := Function.update_eq_self c _
  rw [← hself]
  cases step_moves hstep with
  | @work _ _ req o k hbusy =>
    have hcoupled := h.coupled c
    rw [hbusy] at hcoupled
    obtain ⟨payload, hcallee, hreq, hreturns⟩ := hcoupled
    refine h.update (fun d hd => work_of_ne _ _ hd) (h.lockstep c) ?_ (h.answers c)
    rw [hcallee]
    exact coupled_work hreq (hreturns _)
  | leave hleaving =>
    exact h.update (fun d hd => leave_of_ne _ hd) (h.lockstep c) coupled_leave (h.answers c)

theorem WiredSound.step {e : WiredEvent ι} (h : WiredSound codec uid st)
    (hs : st.step codec uid e = some st') : WiredSound codec uid st' := by
  cases e with
  | call c payload =>
    obtain ⟨s, hcall, rfl⟩ := Option.map_eq_some_iff.1 hs
    exact h.setSock ((h.lockstep c).call hcall) (Sock.call_frame hcall)
  | callerSend c n =>
    obtain ⟨s, hsend, rfl⟩ := Option.map_eq_some_iff.1 hs
    exact h.setSock ((h.lockstep c).callerSend hsend) (Sock.callerSend_frame hsend)
  | callerRecv c op n =>
    obtain ⟨s, hrecv, rfl⟩ := Option.map_eq_some_iff.1 hs
    exact h.setSock ((h.lockstep c).callerRecv hrecv) (Sock.callerRecv_frame hrecv)
  | calleeRecv c n => exact h.calleeRecv hs
  | step c choice => exact h.work hs
  | answer c => exact h.answer hs
  | calleeSend c n => exact h.calleeSend hs
  | drop c =>
    refine h.disconnect (h.lockstep c) (h.answers c) ?_
    rw [Wired.setSock, Function.update_eq_self]
    exact hs

omit [DecidableEq ι] in
theorem wiredSound_initial (w : World ι) : WiredSound codec uid (.initial w) where
  lockstep _ := lockstep_opened
  coupled _ := ⟨[], rfl⟩
  answers _ p hp := by cases hp

theorem advance_projects {helper : State ι} {e : Event ι}
    (hs : st.advance uid e = some st') (hsame : st.helper = helper) :
    ∃ e', Helper.step uid helper e' = some st'.helper := by
  subst hsame
  obtain ⟨helper, hstep, rfl⟩ := Option.map_eq_some_iff.1 hs
  exact ⟨e, hstep⟩

/-- Behind its sockets the helper makes the steps of the model without them, or none. -/
theorem step_projects {e : WiredEvent ι} (hs : st.step codec uid e = some st') :
    st'.helper = st.helper ∨ ∃ e', Helper.step uid st.helper e' = some st'.helper := by
  cases e with
  | call c payload | callerSend c n | callerRecv c op n =>
    obtain ⟨s, -, rfl⟩ := Option.map_eq_some_iff.1 hs
    exact .inl rfl
  | calleeRecv c n =>
    simp only [Wired.step] at hs
    split at hs
    · obtain ⟨s, -, hs⟩ := Option.bind_eq_some_iff.1 hs
      unfold Wired.accept at hs
      split at hs
      · split at hs
        · exact .inr (advance_projects hs rfl)
        · exact .inr (advance_projects hs rfl)
      · rw [← Option.some.inj hs]
        exact .inl rfl
      · exact .inr (advance_projects hs rfl)
    · cases hs
  | step c choice => exact .inr (advance_projects hs rfl)
  | answer c | calleeSend c n =>
    simp only [Wired.step] at hs
    split at hs
    · obtain ⟨s, -, hs⟩ := Option.bind_eq_some_iff.1 hs
      split at hs
      · exact .inr (advance_projects hs rfl)
      · rw [← Option.some.inj hs]
        exact .inl rfl
    · cases hs
  | drop c => exact .inr (advance_projects hs rfl)

end Steps

section Runs
variable {codec : MessageCodec} {uid : ι → UInt32} {st : Wired ι} {es : List (WiredEvent ι)}
  {w : World ι}

omit [DecidableEq ι] in
/-- The client makes of an answer what the helper meant: an error, or the response with the
descriptor that came along. -/
theorem roundtripResult_answer {c : ι} {req : HelperRequest} {d : Done} (hfits : Fits (uid c) d req)
    (hread : codec.readResponse (codec.response d.response) = some d.response) :
    roundtripResult codec req.expectsFd ⟨codec.response d.response, d.fd⟩ =
      match d.response with
      | .error message => .error (.rejected message)
      | resp => .ok (resp, d.fd) := by
  have hfd : (∃ message, d.response = .error message) ∨ ¬ (req.expectsFd ∧ d.fd = none) := by
    cases req with
    | apply spec =>
      rcases hfits with ⟨message, fd, -, hsome⟩ | ⟨message, herror, -⟩
      · exact .inr fun h => by cases hsome.symm.trans h.2
      · exact .inl ⟨message, herror⟩
    | ping version => exact .inr fun h => by cases h.1
    | cleanup => exact .inr fun h => by cases h.1
    | teardown => exact .inr fun h => by cases h.1
    | emergencyRestore => exact .inr fun h => by cases h.1
  rw [roundtripResult, hread]
  rcases hfd with ⟨message, herror⟩ | hfd
  · rw [herror]
  · cases d.response with
    | error message => rfl
    | pong version uid => exact if_neg hfd
    | ok message name => exact if_neg hfd

theorem helper_projects (hrun : run (Wired.step codec uid) (.initial w) es = some st) :
    ∃ es', run (Helper.step uid) (.initial w) es' = some st.helper := by
  have hmeets : Meets (Wired.step codec uid) (fun _ _ => True) (.initial w) es :=
    Meets.of_forall (fun _ _ => trivial) _ _
  refine run_invariant
    (I := fun s => ∃ es', run (Helper.step uid) (.initial w) es' = some s.helper)
    ?_ ⟨[], rfl⟩ hmeets hrun
  rintro s e s' ⟨es', hes'⟩ - hs
  rcases step_projects hs with hsame | ⟨e', he'⟩
  · exact ⟨es', hsame ▸ hes'⟩
  · exact ⟨es' ++ [e'], by rw [run_append, hes', Option.bind_some, run_cons, he']; rfl⟩

/-- However the bytes of any number of clients' calls are cut on their way, the helper's tasks
run as if requests and responses were handed over whole, and each call returns the answer to its
own request: all answers that were sent have been returned in this order, but for one that is
still on its way. A descriptor comes along exactly with the answer to an `Apply` that has
succeeded. -/
theorem calls_get_own_answers (hrun : run (Wired.step codec uid) (.initial w) es = some st) :
    (∃ es', run (Helper.step uid) (.initial w) es' = some st.helper) ∧
    ∀ c, ((st.socks c).handled = (st.socks c).returned ∨
        ∃ p, (st.socks c).handled = (st.socks c).returned ++ [p]) ∧
      ∀ p ∈ (st.socks c).handled, ∃ req d, codec.readRequest p.1 = some req ∧
        Fits (uid c) d req ∧ p.2 = ⟨codec.response d.response, d.fd⟩ ∧
          (codec.readResponse (codec.response d.response) = some d.response →
            roundtripResult codec req.expectsFd p.2 =
              match d.response with
              | .error message => .error (.rejected message)
              | resp => .ok (resp, d.fd)) := by
  have hmeets : Meets (Wired.step codec uid) (fun _ _ => True) (.initial w) es :=
    Meets.of_forall (fun _ _ => trivial) _ _
  have hsound : WiredSound codec uid st :=
    run_invariant (fun _ _ _ h _ hs => h.step hs) (wiredSound_initial w) hmeets hrun
  refine ⟨helper_projects hrun, fun c => ⟨?_, fun p hp => ?_⟩⟩
  · cases hsound.lockstep c with
    | ready _ _ _ _ hlog => exact .inl hlog
    | asking _ _ _ _ _ hlog => exact .inl hlog
    | asked _ _ _ _ _ hlog => exact .inl hlog
    | working _ _ _ _ hlog => exact .inl hlog
    | refused _ _ _ _ hlog => exact .inl hlog
    | answering _ _ _ _ _ hlog => exact .inr ⟨_, hlog⟩
    | answered _ _ _ _ _ hlog => exact .inr ⟨_, hlog⟩
  · obtain ⟨req, d, hreq, hfits, hframe⟩ := hsound.answers c p hp
    refine ⟨req, d, hreq, hfits, hframe, fun hread => ?_⟩
    rw [hframe]
    exact roundtripResult_answer hfits hread

section Sample
open Codec Sample

def ping : List UInt8 := jsonBytes (.object [("op", .string "ping"), ("version", .unsigned 1)])

def responseJson : HelperResponse → Json
  | .pong version uid => .object [("status", .string "pong"),
    ("version", .unsigned version.toUInt64), ("uid", .unsigned uid.toUInt64)]
  | .ok message tunName => .object [("status", .string "ok"), ("message", .string message),
    ("tun_name", tunName.elim .null .string)]
  | .error message => .object [("status", .string "error"), ("message", .string message)]

def pong : List UInt8 := jsonBytes (responseJson (.pong 1 7))

/-- The messages in JSON, of which a ping and its answer are read. -/
def pingCodec : MessageCodec where
  readRequest bytes := if bytes = ping then some (.ping 1) else none
  response resp := jsonBytes (responseJson resp)
  readResponse bytes := if bytes = pong then some (.pong 1 7) else none

/-- A ping whose bytes travel in several parts, each way. -/
def pingRun : List (WiredEvent (Fin 2)) :=
  [.call clientA ping, .callerSend clientA 20, .calleeRecv clientA 9, .callerSend clientA 9,
    .calleeRecv clientA 20, .answer clientA, .calleeSend clientA 11,
    .callerRecv clientA "helper recv Pong" 11, .calleeSend clientA 30,
    .callerRecv clientA "helper recv Pong" 30]

theorem ping_answered : ∃ st,
    run (Wired.step pingCodec fun _ => 7) (.initial cleanWorld) pingRun = some st ∧
      (st.socks clientA).returned = [(ping, ⟨pong, none⟩)] ∧
      ∃ req d, pingCodec.readRequest ping = some req ∧ Fits 7 d req ∧
        (⟨pong, none⟩ : Frame Fd) = ⟨pingCodec.response d.response, d.fd⟩ := by
  have hend : (run (Wired.step pingCodec fun _ => 7) (.initial cleanWorld) pingRun).any (fun st =>
      (st.socks clientA).returned = [(ping, ⟨pong, none⟩)] ∧
        (st.socks clientA).handled = [(ping, ⟨pong, none⟩)]) = true := by
    decide +kernel
  obtain ⟨st, hrun, hst⟩ := (Option.any_eq_true _ _).1 hend
  obtain ⟨hreturned, hhandled⟩ := of_decide_eq_true hst
  obtain ⟨-, hcalls⟩ := calls_get_own_answers hrun
  obtain ⟨req, d, hreq, hfits, hframe, -⟩ := (hcalls clientA).2 (ping, ⟨pong, none⟩) (by
    rw [hhandled]
    exact List.mem_cons_self)
  exact ⟨st, hrun, hreturned, req, d, hreq, hfits, hframe⟩

end Sample

end Runs

end EasyConnection.Helper
