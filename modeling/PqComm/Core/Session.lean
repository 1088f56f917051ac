import PqComm.Core.Resilience
import PqComm.Crypto.Suite

/-!
# Sessions

The session record of `session.h` and the functions of `session.c`.

A session carries one field that is not in the source, `history`.  It is a
history variable: the handshake appends to it what it hashes, seals and opens,
and no function of the model reads it.  `session_reset` clears the transcript
and with it `absorbed`; `calls` is never cleared.
-/

namespace PqComm

open Lib

inductive SessionState where
  | idle
  | handshakeStart
  | pqKemInitSent
  | pqKemResponseSent
  | identityProofSent
  | verify
  | locked
  deriving DecidableEq, Repr

inductive HandshakeRole where
  | unassigned
  | initiator
  | responder
  deriving DecidableEq, Repr

def kemTypeMlkem768 : UInt8 := 1

def hsErrNone : UInt8 := 0
def hsErrBadIdentity : UInt8 := 2
def hsErrStateViolation : UInt8 := 5

/-- The two endpoints of a session. -/
inductive Side where
  | left
  | right
  deriving DecidableEq, Repr

def Side.other : Side → Side
  | left => right
  | right => left

@[simp]
theorem Side.other_other (side : Side) : side.other.other = side := by
  cases side <;> rfl

@[simp]
theorem Side.other_ne (side : Side) : side.other ≠ side := by
  cases side <;> simp [Side.other]

theorem Side.eq_or_other (side one : Side) : one = side ∨ one = side.other := by
  cases side <;> cases one <;> simp [Side.other]

/-- One call of a primitive by the handshake. -/
inductive CryptoCall where
  | hash (input : Bytes)
  | seal (key nonce plain cipher tag : Bytes)
  | unseal (key nonce cipher tag : Bytes)
  deriving DecidableEq

/-- What a session has done so far. -/
structure History where
  absorbed : List Bytes := []
  calls : List CryptoCall := []

/-- `handshake_crypto_t`. -/
structure HandshakeCrypto where
  kemType : UInt8 := 0
  kemPublicKey : Bytes := zeros kemPkSize
  kemSecretKey : Bytes := zeros kemSkSize
  peerPublicKey : Bytes := zeros kemPkSize
  kemSharedSecret : Bytes := zeros kemSsSize
  ourIdentityKey : Bytes := zeros 32
  peerIdentityKey : Bytes := zeros 32
  identityVerified : Bool := false
  transcriptHash : Bytes := zeros 32
  messagesExchanged : UInt32 := 0
  timeoutMs : UInt32 := 0
  lastError : UInt8 := hsErrNone

/-- `session_keys_t`. -/
structure SessionKeys where
  sessionKey : Bytes := zeros 32
  channelKeys : List Bytes := List.replicate 6 (zeros 32)
  keyEpoch : UInt64 := 0
  deriving DecidableEq

/-- `session_t`, as `session_init` leaves it when no field is given. -/
structure Session where
  sessionId : UInt64 := 0
  addr : Bytes := zeros 32
  addrLen : Nat := 0
  lastSeq : UInt32 := 0
  recvBitmap : UInt64 := 0
  state : SessionState := .idle
  role : HandshakeRole := .unassigned
  hs : HandshakeCrypto := {}
  keys : SessionKeys := {}
  resilience : Resilience := resilienceInit
  handshakeComplete : Bool := false
  fecRecovered : Option PacketBuf := none
  peerAddrs : Nat → Bytes := fun _ => zeros 32
  peerAddrLens : Nat → Nat := fun _ => 0
  localPort : UInt16 := 0
  hopTargetPort : UInt16 := 0
  reconnectAttempts : UInt32 := 0
  lastHeartbeatRxMs : UInt64 := 0
  reconnectPending : Bool := false
  reconnectStartMs : UInt64 := 0
  history : History := {}

/-- `session_init`. -/
def sessionInit : Session := {}

/-- `session_zero_secrets`. -/
def sessionZeroSecrets (s : Session) : Session :=
  { s with
    hs :=
      { s.hs with
        kemSecretKey := zeros kemSkSize
        kemSharedSecret := zeros kemSsSize }
    keys := {} }

/-- `session_reset`: the identifier, the addresses and the local port survive
the `memset`. -/
def sessionReset (s : Session) : Session :=
  { localPort := s.localPort
    sessionId := s.sessionId
    addr := s.addr
    addrLen := s.addrLen
    peerAddrs := s.peerAddrs
    peerAddrLens := s.peerAddrLens
    history := { calls := s.history.calls } }

/-- `session_register_path`, without its return value. -/
def sessionRegisterPath (s : Session) (idx : Nat) (addr : Bytes) : Session :=
  if idx ≥ resilienceMaxPaths ∨ addr.length > 32 then
    s
  else
    { s with
      peerAddrs := fun i =>
        if i = idx then overlay (s.peerAddrs i) addr else s.peerAddrs i
      peerAddrLens := fun i =>
        if i = idx then addr.length else s.peerAddrLens i }

/-! ## Socket addresses

`addr` fields hold a raw `sockaddr_in6`: family, port in network order, flow
information, address, scope. -/

def sockaddrIn6Size : Nat := 28
def sockaddrInSize : Nat := 16

def sinFamily (addr : Bytes) : Bytes := addr.take 2
def sinPort (addr : Bytes) : Bytes := (addr.drop 2).take 2
def sin6Addr (addr : Bytes) : Bytes := (addr.drop 8).take 16

/-- `ntohs`. -/
def ntohs (port : Bytes) : UInt16 :=
  UInt16.ofNat (256 * (port.getD 0 0).toNat + (port.getD 1 0).toNat)

/-- `htons`. -/
def htons (port : UInt16) : Bytes :=
  [UInt8.ofNat (port.toNat / 256), UInt8.ofNat port.toNat]

/-- `addr.sin6_port = port`. -/
def setSinPort (addr port : Bytes) : Bytes :=
  addr.take 2 ++ port ++ addr.drop 4

/-! ## What most operations leave alone -/

/-- `s'` has the state, role, identifier and keys of `s`. -/
structure SameCore (s s' : Session) : Prop where
  state : s'.state = s.state
  role : s'.role = s.role
  sessionId : s'.sessionId = s.sessionId
  keys : s'.keys = s.keys

theorem SameCore.refl (s : Session) : SameCore s s :=
  ⟨rfl, rfl, rfl, rfl⟩

theorem SameCore.trans
    {s t u : Session} (first : SameCore s t) (second : SameCore t u) :
    SameCore s u where
  state := second.state.trans first.state
  role := second.role.trans first.role
  sessionId := second.sessionId.trans first.sessionId
  keys := second.keys.trans first.keys

/-- `s'` has the core and the handshake secrets of `s`. -/
structure Untouched (s s' : Session) : Prop extends SameCore s s' where
  hs : s'.hs = s.hs

theorem Untouched.refl (s : Session) : Untouched s s :=
  ⟨SameCore.refl s, rfl⟩

theorem Untouched.trans
    {s t u : Session} (first : Untouched s t) (second : Untouched t u) :
    Untouched s u :=
  ⟨first.toSameCore.trans second.toSameCore, second.hs.trans first.hs⟩

/-! ## What a reset leaves -/

@[simp]
theorem sessionReset_state (s : Session) : (sessionReset s).state = .idle :=
  rfl

@[simp]
theorem sessionReset_role (s : Session) :
    (sessionReset s).role = .unassigned :=
  rfl

@[simp]
theorem sessionZeroSecrets_state (s : Session) :
    (sessionZeroSecrets s).state = s.state :=
  rfl

end PqComm
