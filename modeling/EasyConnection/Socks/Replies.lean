import EasyConnection.Socks.Requests

/-! # Replies to SOCKS5 requests

What a client is told after its request. An address that the proxy cannot read ends the handler
without a word; every other request is answered once, before the handler ends or relays.
-/
namespace EasyConnection.Socks
open Async Codec Net

section Streams

/-- What a client sends before its request, for the negotiation to succeed. -/
inductive Greeting (auth : Socks5Auth) where
  | plain (methods : List UInt8) (hlen : methods.length < 256) (hselect : auth.select methods = 0x00)
  | userPass (methods : List UInt8) (ver : UInt8) (uname pass : List UInt8)
      (hlen : methods.length < 256) (hselect : auth.select methods = 0x02)
      (huname : uname.length < 256) (hpass : pass.length < 256)
      (haccepts : auth.accepts uname pass = true)

/-- The address of a request, of a type that is known or not. -/
inductive Destination where
  | v4 (addr : List UInt8) (hlen : addr.length = 4)
  | domain (name : List UInt8) (hlen : name.length < 256)
  | v6 (addr : List UInt8) (hlen : addr.length = 16)
  | unknown (atyp : UInt8) (hatyp : atyp ∉ [0x01, 0x03, 0x04])

namespace Destination

def atyp : Destination → UInt8
  | v4 _ _ => 0x01
  | domain _ _ => 0x03
  | v6 _ _ => 0x04
  | unknown atyp _ => atyp

/-- What follows the type: the address and the port, if the type has a form for them. -/
def bytes (port : UInt16) : Destination → List UInt8
  | v4 addr _ | v6 addr _ => addr ++ beBytes 2 port.toNat
  | domain name _ => UInt8.ofNat name.length :: (name ++ beBytes 2 port.toNat)
  | unknown _ _ => []

def isUnknown : Destination → Bool
  | unknown _ _ => true
  | _ => false

def readable : Destination → Bool
  | domain name _ => (fromUtf8 name).isSome
  | unknown _ _ => false
  | _ => true

end Destination

def requestBytes (cmd rsv : UInt8) (d : Destination) (port : UInt16) (rest : List UInt8) :
    List UInt8 :=
  [0x05, cmd, rsv, d.atyp] ++ (d.bytes port ++ rest)

end Streams

variable {d : Destination} {cmd : UInt8}

section Acts

/-- What a handler does besides reading. -/
inductive Act where
  | sent (bytes : List UInt8)
  | connected (up : Bool)
  | relayed
  deriving DecidableEq

def act : Op → Choice → Option Act
  | .writeAll bytes, _ => some (.sent bytes)
  | .connect _ _, c => some (.connected c.upstream.isOk)
  | .relayBoth, _ => some .relayed
  | _, _ => none

def acts (log : List (Op × Choice)) : List Act := log.filterMap fun e => act e.1 e.2

/-- What the negotiation tells the client. -/
def Greeting.told {auth : Socks5Auth} : Greeting auth → List Act
  | plain _ _ _ => [.sent [0x05, 0x00]]
  | userPass .. => [.sent [0x05, 0x02], .sent [0x01, 0x00]]

def Greeting.bytes {auth : Socks5Auth} : Greeting auth → List UInt8
  | plain methods _ _ => [0x05, UInt8.ofNat methods.length] ++ methods
  | userPass methods ver uname pass _ _ _ _ _ =>
    [0x05, UInt8.ofNat methods.length] ++ methods ++ [ver, UInt8.ofNat uname.length] ++ uname ++
      [UInt8.ofNat pass.length] ++ pass

/-- The code of a reply, after what has been done before it. -/
def Fits (cmd : UInt8) (d : Destination) (before : List Act) (code : UInt8) : Prop :=
  code = 0x00 ∧ .connected true ∈ before ∨
  .connected true ∉ before ∧
    (code = 0x01 ∧ cmd = 0x01 ∨ code = 0x07 ∧ cmd ≠ 0x01 ∨ code = 0x08 ∧ d.isUnknown = true)

/-- One reply is sent, and nothing but it outside of the relay. -/
def Answered (cmd : UInt8) (d : Destination) (told : List Act) : Prop :=
  ∃ before code after, told = before ++ .sent (reply5 code) :: after ∧ Fits cmd d before code ∧
    .relayed ∉ before ∧ ∀ bytes, .sent bytes ∉ before ++ after

theorem not_answered_nil : ¬ Answered cmd d [] := by
  rintro ⟨before, code, after, heq, -⟩
  cases before <;> cases heq

end Acts

variable {post : Except SocksError Unit → Session → List Act → Prop}

section Rules
variable {α β : Type} {s : Session} {told : List Act}

/-- With a client that neither breaks nor refuses, the program ends in `post`, where `told` is what
has been done before. -/
def Tells (post : Except SocksError α → Session → List Act → Prop) (x : SocksM α) (s : Session)
    (told : List Act) : Prop :=
  ∀ log, acts log = told →
    x.run.Ensures (Prog.logged exec) (fun o c v => Quiet o c v.1) (fun r v => post r v.1 (acts v.2))
      (s, log)

theorem acts_concat (log : List (Op × Choice)) (o : Op) (c : Choice) :
    acts (log ++ [(o, c)]) = acts log ++ (act o c).toList := by
  rw [acts, List.filterMap_append]
  cases h : act o c <;> simp [acts, h]

theorem tells_bind {x : SocksM α} {f : α → SocksM β}
    {post : Except SocksError β → Session → List Act → Prop}
    (h : Tells (fun r s' told' => match r with
      | .ok a => Tells post (f a) s' told'
      | .error e => post (.error e) s' told') x s told) : Tells post (x >>= f) s told := by
  intro log hlog
  refine Prog.ensures_of_then ((h log hlog).mono fun r v hr => ?_)
  cases r with
  | ok a => exact hr v.2 rfl
  | error e => exact hr

/-- The calls that leave no act. -/
def Op.Reads : Op → Prop
  | .readExact _ => True
  | _ => False

/-- A program that only reads tells nothing. -/
theorem tells_of_serves {x : SocksM α} {post : Except SocksError α → Session → List Act → Prop}
    (h : Serves (fun r s' => post r s' told) x s) (honly : x.run.Only Op.Reads) :
    Tells post x s told := by
  intro log hlog
  have hacts : x.run.Ensures (Prog.logged exec) (fun o c v => Quiet o c v.1)
      (fun _ v => acts v.2 = told) (s, log) := by
    refine honly.ensures (fun o c v ho hv => ?_) hlog
    cases o with
    | readExact n =>
      refine (acts_concat _ _ _).trans ?_
      rw [hv]
      exact List.append_nil told
    | _ => exact ho.elim
  refine ((h.logged log).and hacts).mono fun r v hr => ?_
  rw [hr.2]
  exact hr.1

theorem tells_pure {a : α} {post : Except SocksError α → Session → List Act → Prop}
    (h : post (.ok a) s told) : Tells post (pure a) s told := by
  rintro log rfl
  exact h

theorem tells_throw {e : SocksError} {post : Except SocksError α → Session → List Act → Prop}
    (h : post (.error e) s told) : Tells post (throw e) s told := by
  rintro log rfl
  exact h

theorem writeAll_tells {bytes : List UInt8}
    (h : post (.ok ()) { s with output := s.output ++ bytes } (told ++ [.sent bytes])) :
    Tells post (writeAll bytes) s told := by
  rintro log rfl ⟨breaks, refuses, upstream⟩ ⟨-, rfl⟩
  have hacts : acts (log ++ [(.writeAll bytes, ⟨breaks, none, upstream⟩)]) =
      acts log ++ [.sent bytes] := acts_concat ..
  rw [← hacts] at h
  exact h

theorem perform_tells {o : Op} {post : Except SocksError (Ans o) → Session → List Act → Prop}
    (h : ∀ c, post (.ok (exec o c s).2) (exec o c s).1 (told ++ (act o c).toList)) :
    Tells post (liftM (perform o)) s told := by
  rintro log rfl
  refine (Prog.ensures_lift _).2 fun c _ => ?_
  have hc := h c
  rw [← acts_concat] at hc
  exact hc

end Rules

section Reading

theorem only_readExact (n : ℕ) : (readExact n).run.Only Op.Reads := ⟨trivial, fun _ => trivial⟩

theorem only_readByte : readByte.run.Only Op.Reads :=
  (only_readExact 1).except_bind fun _ => trivial

theorem only_readPort : readPort.run.Only Op.Reads :=
  (only_readExact 2).except_bind fun _ => trivial

theorem only_readAddress (atyp : UInt8) : (readAddress atyp).run.Only Op.Reads := by
  unfold readAddress
  split_ifs
  · exact (only_readExact 4).except_bind fun _ => only_readPort.except_bind fun _ => trivial
  · refine only_readByte.except_bind fun len => (only_readExact _).except_bind fun domain => ?_
    refine only_readPort.except_bind fun port => ?_
    cases fromUtf8 domain <;> trivial
  · exact (only_readExact 16).except_bind fun _ => only_readPort.except_bind fun _ => trivial
  · trivial

theorem only_readGreeting : readGreeting.run.Only Op.Reads := by
  refine (only_readExact 2).except_bind fun header => ?_
  split_ifs
  · trivial
  · dsimp only
    split_ifs
    · exact only_readExact _
    · trivial

end Reading

section Handler
variable {auth : Socks5Auth} {s : Session} {told : List Act}

theorem connectAndRelay_tells (host : String) (port : UInt16) (granted failed : List UInt8) :
    Tells (fun _ _ told' => told' = told ++ [.connected true, .sent granted, .relayed] ∨
      told' = told ++ [.connected false, .sent failed])
      (connectAndRelay host port granted failed) s told := by
  refine tells_bind (perform_tells ?_)
  rintro ⟨breaks, refuses, up⟩
  cases up with
  | error e =>
    refine tells_bind (writeAll_tells (tells_throw (.inr ?_)))
    exact List.append_assoc ..
  | ok up =>
    refine tells_bind (writeAll_tells (tells_bind (perform_tells fun c => ?_)))
    have hall : told ++ [.connected true] ++ [.sent granted] ++ [.relayed] =
        told ++ [.connected true, .sent granted, .relayed] := by simp
    dsimp only
    split
    · refine perform_tells (o := .recordRelay _ _) fun c => .inl ?_
      exact (List.append_nil _).trans hall
    · exact tells_pure (.inl hall)

theorem checkUserPass_tells {ver : UInt8} {uname pass rest : List UInt8}
    (huname : uname.length < 256) (hpass : pass.length < 256)
    (haccepts : auth.accepts uname pass = true)
    (hinput : s.input = ver :: UInt8.ofNat uname.length ::
      (uname ++ (UInt8.ofNat pass.length :: (pass ++ rest))))
    (hok : ∀ output, post (.ok ()) { s with input := rest, output := output }
      (told ++ [.sent [0x01, 0x00]])) : Tells post (checkUserPass auth) s told := by
  refine tells_bind (tells_of_serves (readByte_serves hinput ?_) only_readByte)
  refine tells_bind (tells_of_serves (readByte_serves rfl ?_) only_readByte)
  refine tells_bind (tells_of_serves (readExact_serves (toNat_length huname).symm rfl ?_)
    (only_readExact _))
  refine tells_bind (tells_of_serves (readByte_serves rfl ?_) only_readByte)
  refine tells_bind (tells_of_serves (readExact_serves (toNat_length hpass).symm rfl ?_)
    (only_readExact _))
  refine tells_bind ?_
  simp only [haccepts, if_true]
  exact writeAll_tells (tells_pure (hok _))

theorem negotiate_tells (greeting : Greeting auth) {rest : List UInt8}
    (hinput : s.input = greeting.bytes ++ rest)
    (hok : ∀ output, post (.ok ()) { s with input := rest, output := output }
      (told ++ greeting.told)) : Tells post (negotiate auth) s told := by
  cases greeting with
  | plain methods hlen hselect =>
    rw [Greeting.bytes, List.append_assoc] at hinput
    refine tells_bind (tells_of_serves (readGreeting_serves hlen hinput ?_) only_readGreeting)
    refine tells_bind ?_
    rw [hselect]
    exact writeAll_tells (tells_pure (hok _))
  | userPass methods ver uname pass hlen hselect huname hpass haccepts =>
    have hall : s.input = [0x05, UInt8.ofNat methods.length] ++ (methods ++
        (ver :: UInt8.ofNat uname.length ::
          (uname ++ (UInt8.ofNat pass.length :: (pass ++ rest))))) := by
      rw [hinput, Greeting.bytes]
      simp
    refine tells_bind (tells_of_serves (readGreeting_serves hlen hall ?_) only_readGreeting)
    refine tells_bind ?_
    rw [hselect]
    refine writeAll_tells (checkUserPass_tells huname hpass haccepts rfl fun output => ?_)
    rw [List.append_assoc]
    exact hok output

theorem Destination.address (h : d.readable = true) :
    ∃ addr host, Address5 (d.atyp :: addr) host ∧
      ∀ port, d.bytes port = addr ++ beBytes 2 port.toNat := by
  cases d with
  | v4 addr hlen => exact ⟨addr, _, .v4 hlen, fun _ => rfl⟩
  | domain name hlen =>
    obtain ⟨host, hhost⟩ := Option.isSome_iff_exists.1 h
    obtain rfl := utf8_of_fromUtf8 hhost
    exact ⟨_, host, .domain hlen, fun _ => rfl⟩
  | v6 addr hlen => exact ⟨addr, _, .v6 hlen, fun _ => rfl⟩
  | unknown atyp hatyp => cases h

theorem readAddress_refuses (h : d.readable = false) {port : UInt16} {rest : List UInt8}
    (hinput : s.input = d.bytes port ++ rest) :
    Serves (fun r _ => ∃ e, r = .error e) (readAddress d.atyp) s := by
  cases d with
  | v4 addr hlen => cases h
  | v6 addr hlen => cases h
  | domain name hlen =>
    rw [Destination.bytes, List.cons_append, List.append_assoc] at hinput
    refine Prog.ensures_of_then (readByte_serves hinput ?_)
    refine Prog.ensures_of_then (readExact_serves (toNat_length hlen).symm rfl ?_)
    refine Prog.ensures_of_then (readPort_serves rfl ?_)
    dsimp only
    rw [Option.not_isSome_iff_eq_none.1 (Bool.eq_false_iff.1 h)]
    exact ⟨_, rfl⟩
  | unknown atyp hatyp =>
    simp only [List.mem_cons, List.not_mem_nil, or_false, not_or] at hatyp
    rw [Destination.atyp, readAddress, if_neg hatyp.1, if_neg hatyp.2.1, if_neg hatyp.2.2]
    exact ⟨_, rfl⟩

theorem request5_tells {rsv : UInt8} {port : UInt16} {rest : List UInt8} (h : d.readable = true)
    (hinput : s.input = requestBytes cmd rsv d port rest) :
    Tells (fun _ _ told' => ∃ request, told' = told ++ request ∧ Answered cmd d request)
      request5 s told := by
  obtain ⟨addr, host, haddr, hbytes⟩ := d.address h
  rw [requestBytes, hbytes, List.append_assoc] at hinput
  refine tells_bind (tells_of_serves (readExact_serves rfl hinput ?_) (only_readExact 4))
  simp only [byteAt, List.getD_cons_zero, List.getD_cons_succ]
  rw [if_neg (by decide)]
  refine tells_bind (tells_of_serves (readAddress_serves haddr rfl ?_) (only_readAddress _))
  dsimp only
  split_ifs with hcmd
  · refine tells_bind (writeAll_tells (tells_throw ⟨_, rfl, [], 0x07, [], rfl, ?_, ?_, ?_⟩))
    · exact .inr ⟨List.not_mem_nil, .inr (.inl ⟨rfl, hcmd⟩)⟩
    · exact List.not_mem_nil
    · simp
  · refine fun log hlog => (connectAndRelay_tells host port _ _ log hlog).mono ?_
    rintro - v (h | h)
    · refine ⟨_, h, [.connected true], 0x00, [.relayed], rfl, ?_, ?_, ?_⟩
      · exact .inl ⟨rfl, List.mem_singleton_self _⟩
      · simp
      · simp
    · refine ⟨_, h, [.connected false], 0x01, [], rfl, ?_, ?_, ?_⟩
      · exact .inr ⟨by simp, .inl ⟨rfl, not_not.1 hcmd⟩⟩
      · simp
      · simp

theorem request5_silent {rsv : UInt8} {port : UInt16} {rest : List UInt8} (h : d.readable = false)
    (hinput : s.input = requestBytes cmd rsv d port rest) :
    Tells (fun _ _ told' => told' = told) request5 s told := by
  refine tells_bind (tells_of_serves (readExact_serves rfl hinput ?_) (only_readExact 4))
  simp only [byteAt, List.getD_cons_zero, List.getD_cons_succ]
  rw [if_neg (by decide)]
  refine tells_bind (tells_of_serves ((readAddress_refuses h rfl).mono ?_) (only_readAddress _))
  rintro r s' ⟨e, rfl⟩
  rfl

end Handler

/-- A request that comes whole after the negotiation is answered once, exactly if its address is one
that the proxy can read. -/
theorem socks5_answered_iff (auth : Socks5Auth) (greeting : Greeting auth) (cmd rsv : UInt8)
    (d : Destination) (port : UInt16) (rest : List UInt8) :
    (handleSocks5 auth).run.Ensures (Prog.logged exec) (fun o c v => Quiet o c v.1)
      (fun _ v => ∃ request, acts v.2 = greeting.told ++ request ∧ Answered cmd d request)
      (.start (greeting.bytes ++ requestBytes cmd rsv d port rest), []) ↔ d.readable = true := by
  constructor
  · intro h
    by_contra hreadable
    have hsilent : Tells (fun _ _ told => told = greeting.told) (handleSocks5 auth)
        (.start (greeting.bytes ++ requestBytes cmd rsv d port rest)) [] :=
      tells_bind (negotiate_tells greeting rfl fun output =>
        request5_silent (Bool.eq_false_iff.2 hreadable) rfl)
    obtain ⟨⟨request, hacts, hanswered⟩, htold⟩ :=
      (h.and (hsilent [] rfl)).runAlone faultless fun _ _ => ⟨rfl, rfl⟩
    rw [htold, List.self_eq_append_right] at hacts
    rw [hacts] at hanswered
    exact not_answered_nil hanswered
  · intro h
    have htells : Tells (fun _ _ told => ∃ request, told = greeting.told ++ request ∧
        Answered cmd d request) (handleSocks5 auth)
        (.start (greeting.bytes ++ requestBytes cmd rsv d port rest)) [] :=
      tells_bind (negotiate_tells greeting rfl fun output => request5_tells h rfl)
    exact htells [] rfl

/-- How the handler ends, and what it has done, where nothing fails. -/
def outcome (auth : Socks5Auth) (bytes : List UInt8) : Except SocksError Unit × List Act :=
  let (r, _, log) := (handleSocks5 auth).run.runAlone (Prog.logged exec) faultless (.start bytes, [])
  (r, acts log)

/-- A type that the proxy does not know, and a name that is not UTF-8: the client hears of the
method alone. -/
theorem requests_not_answered :
    outcome .none [0x05, 0x01, 0x00, 0x05, 0x01, 0x00, 0x02] =
      (.error .addressNotSupported, [.sent [0x05, 0x00]]) ∧
    outcome .none [0x05, 0x01, 0x00, 0x05, 0x01, 0x00, 0x03, 0x01, 0xff, 0x00, 0x50] =
      (.error (.protocol "invalid domain utf-8"), [.sent [0x05, 0x00]]) := by
  decide +kernel

end EasyConnection.Socks
