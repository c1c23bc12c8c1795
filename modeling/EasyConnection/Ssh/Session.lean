import EasyConnection.Async.Past
import EasyConnection.Ssh.HostKey
import EasyConnection.Ssh.Smart

/-! # SSH sessions

How the session of a profile is opened: to the server itself, over a transport, or to the server
that a Smart Config names. The key of the server is checked in the handshake; what proves the user
is looked up and sent after that. A session is a program over the SSH library, the vault and the
agent, which may answer anything.
-/
namespace EasyConnection.Ssh
open Async Codec Config

structure PrivateKey where
  isRsa : Bool
  material : String
  deriving DecidableEq

inductive HashAlg where
  | sha256
  | sha512
  deriving DecidableEq

inductive AgentIdentity where
  | publicKey (key : PublicKey) (isRsa : Bool)
  | certificate (key : PublicKey)
  deriving DecidableEq

/-- What is sent to prove the user. -/
inductive Credential where
  | none
  | password (password : String)
  | key (key : PrivateKey) (hash : Option HashAlg)
  | agent (key : PublicKey) (hash : Option HashAlg)
  deriving DecidableEq

inductive ConnectFault where
  | timedOut
  | failed (message : String)
  deriving DecidableEq

inductive HandshakeFault where
  | timedOut
  | hostKey (e : HostKeyError)
  | russh (message : String)
  deriving DecidableEq

/-- The errors of the SSH crate, and those that the manager puts into words itself. -/
inductive SessionError where
  | authenticationFailed
  | hostKey (e : HostKeyError)
  | timeout (secs : UInt64)
  | io (message : String)
  | secrets (message : String)
  | config (message : String)
  | zones (message : String)
  | russh (message : String)
  | other (message : String)
  deriving DecidableEq

inductive SessionOp where
  | getSecret (r : SecretRef)
  | dial (host : String) (port : UInt16) (transport : Transport) (tls : TlsSettings)
  | fetchEndpoint (link : String) (zone : Option String)
  | openShim (endpoint : SmartEndpoint)
  | tcpConnect (host : String) (port : UInt16)
  | handshake (v : HostKeyVerifier)
  | decodeSecretKey (pem : String) (pass : Option String)
  | loadSecretKey (path : String) (pass : Option String)
  | bestSupportedRsaHash
  | agentConnect
  | requestIdentities
  | authenticate (username : String) (c : Credential)
  deriving DecidableEq

def SessionAns : SessionOp → Type
  | .getSecret _ => Except String String
  | .dial _ _ _ _ => Except String Unit
  | .fetchEndpoint _ _ => Except SshError SmartEndpoint
  | .openShim _ => Except SshError Unit
  | .tcpConnect _ _ => Except ConnectFault Unit
  | .handshake _ => Except HandshakeFault Unit
  | .decodeSecretKey _ _ => Except String PrivateKey
  | .loadSecretKey _ _ => Except String PrivateKey
  | .bestSupportedRsaHash => Except String (Option (Option HashAlg))
  | .agentConnect => Except String Unit
  | .requestIdentities => Except String (List AgentIdentity)
  | .authenticate _ _ => Except String Bool

/-- A call with its answer. -/
abbrev SessionAccess := (o : SessionOp) × SessionAns o

abbrev SessionProg := Prog SessionOp SessionAns

abbrev SessionM := ExceptT SessionError SessionProg

namespace SessionCall

abbrev getSecret (r : SecretRef) : SessionProg (Except String String) :=
  Prog.perform (SessionOp.getSecret r)
abbrev dial (host : String) (port : UInt16) (transport : Transport) (tls : TlsSettings) :
    SessionProg (Except String Unit) := Prog.perform (SessionOp.dial host port transport tls)
abbrev fetchEndpoint (link : String) (zone : Option String) :
    SessionProg (Except SshError SmartEndpoint) := Prog.perform (SessionOp.fetchEndpoint link zone)
abbrev openShim (endpoint : SmartEndpoint) : SessionProg (Except SshError Unit) :=
  Prog.perform (SessionOp.openShim endpoint)
abbrev tcpConnect (host : String) (port : UInt16) : SessionProg (Except ConnectFault Unit) :=
  Prog.perform (SessionOp.tcpConnect host port)
abbrev handshake (v : HostKeyVerifier) : SessionProg (Except HandshakeFault Unit) :=
  Prog.perform (SessionOp.handshake v)
abbrev decodeSecretKey (pem : String) (pass : Option String) : SessionProg (Except String PrivateKey) :=
  Prog.perform (SessionOp.decodeSecretKey pem pass)
abbrev loadSecretKey (path : String) (pass : Option String) : SessionProg (Except String PrivateKey) :=
  Prog.perform (SessionOp.loadSecretKey path pass)
abbrev bestSupportedRsaHash : SessionProg (Except String (Option (Option HashAlg))) :=
  Prog.perform SessionOp.bestSupportedRsaHash
abbrev agentConnect : SessionProg (Except String Unit) := Prog.perform SessionOp.agentConnect
abbrev requestIdentities : SessionProg (Except String (List AgentIdentity)) :=
  Prog.perform SessionOp.requestIdentities
abbrev authenticate (username : String) (c : Credential) : SessionProg (Except String Bool) :=
  Prog.perform (SessionOp.authenticate username c)

end SessionCall

structure SshConnectOptions where
  host : String
  port : UInt16
  username : String
  auth : AuthMethod
  connectTimeoutSecs : UInt64
  hostKeyPolicy : HostKeyPolicy
  zoneId : Option String
  deriving DecidableEq

def SshConnectOptions.verifier (opts : SshConnectOptions) : HostKeyVerifier :=
  ⟨opts.host, opts.port, opts.hostKeyPolicy⟩

/-- Plain SSH keeps the user name for every zone. -/
def sshUsernameForZone (username : String) (_zone : Option String) : String := username

def SshConnectOptions.fromConfig (cfg : ConnectionConfig) : Except SessionError SshConnectOptions :=
  match cfg.settings with
  | .ssh _ connectTimeoutSecs hostKeyPolicy =>
    match cfg.username with
    | some username => .ok {
        host := cfg.host
        port := cfg.port
        username := sshUsernameForZone username cfg.selectedZone
        auth := cfg.authentication
        connectTimeoutSecs
        hostKeyPolicy
        zoneId := (cfg.selectedZone.map trimmed).filter (· ≠ "") }
    | none => .error (.config "SSH username required")
  | _ => .error (.config "connection settings are not SSH")

def SessionError.ofSsh : SshError → SessionError
  | .zones message => .zones message

def smartOptions (profile : ConnectionConfig) (endpoint : SmartEndpoint) :
    Except SessionError SshConnectOptions :=
  match profile.settings with
  | .ssh _ connectTimeoutSecs hostKeyPolicy => .ok {
      host := endpoint.host
      port := endpoint.port
      username := endpoint.username
      auth := .none
      connectTimeoutSecs
      hostKeyPolicy
      zoneId := none }
  | _ => .error (.ofSsh (smartError "invalid SSH settings"))

section Programs

def loadOptionalPassphrase : Option SecretRef → SessionM (Option String)
  | some r => do
    let pass ← Prog.orFail (SessionCall.getSecret r) .secrets
    return some pass
  | none => return none

def loadKey (path : Option String) (material : Option SecretRef) (pass : Option String) :
    SessionM PrivateKey :=
  match material, path with
  | some r, _ => do
    let pem ← Prog.orFail (SessionCall.getSecret r) .secrets
    Prog.orFail (SessionCall.decodeSecretKey pem pass) .russh
  | none, some path => Prog.orFail (SessionCall.loadSecretKey path pass) .russh
  | none, none => throw (.config "private key path or key material required")

def hashAlg (isRsa : Bool) : SessionM (Option HashAlg) :=
  if isRsa then do
    let best ← Prog.orFail SessionCall.bestSupportedRsaHash .russh
    return best.getD (some .sha512)
  else return none

namespace AgentIdentity

def pubkey : AgentIdentity → PublicKey
  | .publicKey key _ => key
  | .certificate key => key

def isRsa : AgentIdentity → Bool
  | .publicKey _ isRsa => isRsa
  | .certificate _ => false

end AgentIdentity

/-- The identities are offered in turn until one is accepted. One that cannot be used is passed
over. -/
def tryIdentities (username : String) : Bool → List AgentIdentity → SessionM Bool
  | last, [] => return last
  | last, identity :: rest => do
    let hash ← hashAlg identity.isRsa
    let answer ← liftM (SessionCall.authenticate username (.agent identity.pubkey hash))
    match answer with
    | .ok true => return true
    | .ok false => tryIdentities username false rest
    | .error _ => tryIdentities username last rest

/-- Whether the server has accepted the user. -/
def proveUser (username : String) : AuthMethod → SessionM Bool
  | .password none => throw (.config "password secret reference missing")
  | .password (some r) => do
    let password ← Prog.orFail (SessionCall.getSecret r) .secrets
    Prog.orFail (SessionCall.authenticate username (.password password)) .russh
  | .privateKey path passphrase material => do
    let pass ← loadOptionalPassphrase passphrase
    let key ← loadKey path material pass
    let hash ← hashAlg key.isRsa
    Prog.orFail (SessionCall.authenticate username (.key key hash)) .russh
  | .agent => do
    Prog.orFail SessionCall.agentConnect fun e => .config ("SSH agent unavailable: " ++ e)
    let identities ← Prog.orFail SessionCall.requestIdentities .russh
    tryIdentities username false identities
  | .none => Prog.orFail (SessionCall.authenticate username .none) .russh

def requireSuccess (success : Bool) : SessionM Unit :=
  if success then return () else throw .authenticationFailed

def authenticate (username : String) (auth : AuthMethod) : SessionM Unit := do
  let success ← proveUser username auth
  requireSuccess success

def tcpError (secs : UInt64) : ConnectFault → SessionError
  | .timedOut => .timeout secs
  | .failed message => .io message

def handshakeError (secs : UInt64) : HandshakeFault → SessionError
  | .timedOut => .timeout secs
  | .hostKey e => .hostKey e
  | .russh message => .russh message

def connectOnce (opts : SshConnectOptions) : SessionM Unit := do
  Prog.orFail (SessionCall.tcpConnect opts.host opts.port) (tcpError opts.connectTimeoutSecs)
  Prog.orFail (SessionCall.handshake opts.verifier) (handshakeError opts.connectTimeoutSecs)
  authenticate opts.username opts.auth

def zoneMessage : String :=
  "This SSH profile cannot select an exit zone. Clear the saved zone to use the server's " ++
    "automatic routing; Smart Config tunneling is not implemented yet."

def connect (opts : SshConnectOptions) : SessionM Unit :=
  if opts.zoneId.isSome then throw (.zones zoneMessage) else connectOnce opts

/-- A Smart Config gives the password; without one it is in the vault. -/
def connectOverTransportInner (opts : SshConnectOptions) (password : Option String) :
    SessionM Unit :=
  if opts.zoneId.isSome then throw (.zones zoneMessage) else do
    Prog.orFail (SessionCall.handshake opts.verifier) (handshakeError opts.connectTimeoutSecs)
    match password with
    | some password =>
      let success ← Prog.orFail (SessionCall.authenticate opts.username (.password password)) .russh
      requireSuccess success
    | none => authenticate opts.username opts.auth

def connectSmartProfile (profile : ConnectionConfig) (link : String) : SessionM Unit := do
  let endpoint ← Prog.orFail (SessionCall.fetchEndpoint link profile.selectedZone) .ofSsh
  Prog.orFail (SessionCall.openShim endpoint) .ofSsh
  let opts ← ExceptT.mk (pure (smartOptions profile endpoint))
  connectOverTransportInner opts (some endpoint.password)

def connectProfile (profile : ConnectionConfig) (opts : SshConnectOptions) : SessionM Unit :=
  if profile.transport = .direct then connect opts
  else do
    Prog.orFail (SessionCall.dial profile.host profile.port profile.transport profile.tls)
      fun e => .other ("SSH transport: " ++ e)
    connectOverTransportInner opts none

/-- The part of `open_upstream` that is about SSH. -/
def openSession (profile : ConnectionConfig) : SessionM Unit :=
  match profile.smartLinkSecret with
  | some linkRef => do
    let link ← Prog.orFail (SessionCall.getSecret linkRef) fun e => .other ("Smart Config vault: " ++ e)
    connectSmartProfile profile link
  | none => do
    let opts ← ExceptT.mk (pure (SshConnectOptions.fromConfig profile))
    connectProfile profile opts

end Programs

end EasyConnection.Ssh
