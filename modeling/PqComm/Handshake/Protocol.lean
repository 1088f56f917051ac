import PqComm.Core.Session

/-!
# The handshake

The functions of `handshake.c`.  A function that builds a message returns the
session, the sequence counter and the packet, with no packet when the source
returns an error.

The nonce field of a proof message is written by its builder and read by
nobody: the receiver derives the nonce again, from the secret and the
transcript.
-/

namespace PqComm

open Lib

/-- `secure_store_get_identity_key`: the 32 bytes it points to. -/
structure IdentityKey where
  bytes : Bytes
  length_bytes : bytes.length = 32

/-- What a call of the handshake takes from outside: a pool buffer, randomness
for the KEM and a random session identifier. -/
structure HsEnv where
  buf : Option PacketBuf
  coins : Bytes
  sessionId : UInt64

/-- What a call of the handshake leaves. -/
structure HsOut where
  sess : Session
  seq : UInt32
  out : Option PacketBuf := none

inductive HsResult where
  | error
  | needMore
  | complete
  deriving DecidableEq, Repr

/-- `"pqcomm-id-proof"`. -/
def labelIdProof : Bytes :=
  asciiBytes
    ['p', 'q', 'c', 'o', 'm', 'm', '-', 'i', 'd', '-', 'p', 'r', 'o', 'o',
      'f']

/-- `"pqcomm-lock-proof"`. -/
def labelLockProof : Bytes :=
  asciiBytes
    ['p', 'q', 'c', 'o', 'm', 'm', '-', 'l', 'o', 'c', 'k', '-', 'p', 'r',
      'o', 'o', 'f']

/-- `"nonce"`. -/
def labelNonce : Bytes :=
  asciiBytes ['n', 'o', 'n', 'c', 'e']

/-- Length of a proof message: opcode, nonce, ciphertext and tag. -/
def proofLength : Nat := 93

/-- Record calls of primitives in the history. -/
def Session.log (s : Session) (calls : List CryptoCall) : Session :=
  { s with history := { s.history with calls := s.history.calls ++ calls } }

def Session.setError (s : Session) (code : UInt8) : Session :=
  { s with hs := { s.hs with lastError := code } }

/-- `PHASE2_HANDSHAKE_TIMEOUT_MS`. -/
def phase2HandshakeTimeoutMs : UInt32 := 30000

section

variable (C : CryptoSuite)

/-! ## Key and nonce of a proof -/

/-- The string hashed into the key of a proof. -/
def proofKeyInput (label secret transcript : Bytes) : Bytes :=
  label ++ secret ++ transcript

def proofKey (label secret transcript : Bytes) : Bytes :=
  C.sha256 (proofKeyInput label secret transcript)

def proofNonce (key : Bytes) : Bytes :=
  (C.sha256 (labelNonce ++ key)).take 12

/-- `derive_id_proof_key`, with the hash calls it makes. -/
def deriveIdProofKey (secret transcript label : Bytes) :
    Bytes × Bytes × List CryptoCall :=
  let key := proofKey C label secret transcript
  (key, proofNonce C key,
    [.hash (proofKeyInput label secret transcript),
      .hash (labelNonce ++ key)])

/-! ## Transcript -/

/-- `update_transcript`. -/
def updateTranscript (s : Session) (data : Bytes) : Session :=
  let input := s.hs.transcriptHash ++ data
  { s with
    hs :=
      { s.hs with
        transcriptHash := C.sha256 input
        messagesExchanged := s.hs.messagesExchanged + 1 }
    history :=
      { absorbed := s.history.absorbed ++ [data]
        calls := s.history.calls ++ [.hash input] } }

/-- `verify_state_transition`; `false` stands for -1. -/
def verifyStateTransition (s : Session) (opcode : UInt8) : Bool :=
  if s.role = .initiator then
    if opcode = ctrlAccept then s.state == .handshakeStart
    else if opcode = ctrlPqKemResponse then s.state == .pqKemInitSent
    else if opcode = ctrlIdentityProof then s.state == .pqKemResponseSent
    else if opcode = ctrlSessionLocked then s.state == .identityProofSent
    else false
  else
    if opcode = ctrlHello then s.state == .idle || s.state == .handshakeStart
    else if opcode = ctrlPqKemInit then s.state == .handshakeStart
    else if opcode = ctrlIdentityProof then s.state == .pqKemResponseSent
    else if opcode = ctrlSessionLocked then s.state == .identityProofSent
    else false

/-! ## Initialisation -/

/-- The common part of `handshake_init_initiator` and
`handshake_init_responder`, which the callers always give ML-KEM-768. -/
def handshakeInit (s : Session) (role : HandshakeRole) (key : IdentityKey) :
    Session :=
  let s := sessionReset s
  { s with
    role := role
    state := .handshakeStart
    hs :=
      { s.hs with
        kemType := kemTypeMlkem768
        timeoutMs := phase2HandshakeTimeoutMs
        ourIdentityKey := key.bytes } }

/-- `handshake_init_initiator`. -/
def handshakeInitInitiator
    (s : Session) (key : IdentityKey) (sessionId : UInt64) : Session :=
  { handshakeInit s .initiator key with sessionId := sessionId }

/-- `handshake_init_responder`. -/
def handshakeInitResponder (s : Session) (key : IdentityKey) : Session :=
  handshakeInit s .responder key

/-! ## Building messages -/

/-- A control message and the session that has absorbed it. -/
def handshakeEmit
    (s : Session) (headerId : UInt64) (buf : PacketBuf) (seq : UInt32)
    (payload : Bytes) : HsOut :=
  { sess := updateTranscript C s payload
    seq := seq + 1
    out := some (buildPacket buf true 0 headerId chControl seq payload) }

/-- `handshake_build_hello`. -/
def handshakeBuildHello (s : Session) (buf : Option PacketBuf) (seq : UInt32) :
    HsOut :=
  match buf with
  | none => { sess := s, seq := seq }
  | some buf => handshakeEmit C s 0 buf seq [ctrlHello]

/-- The payload of ACCEPT. -/
def acceptPayload (sessionId : UInt64) : Bytes :=
  ctrlAccept :: leBytes 8 sessionId.toNat

/-- `handshake_build_accept`. -/
def handshakeBuildAccept
    (s : Session) (sessionId : UInt64) (buf : PacketBuf) (seq : UInt32) :
    HsOut :=
  handshakeEmit C { s with sessionId := sessionId } sessionId buf seq
    (acceptPayload sessionId)

/-- `handshake_build_kem_init`. -/
def handshakeBuildKemInit
    (s : Session) (coins : Bytes) (buf : PacketBuf) (seq : UInt32) : HsOut :=
  if s.hs.kemType ≠ kemTypeMlkem768 then
    { sess := s, seq := seq }
  else
    match C.kemKeypair coins with
    | none =>
        { sess := { s with hs := { s.hs with kemSecretKey := zeros kemSkSize } }
          seq := seq }
    | some (publicKey, secretKey) =>
        let s :=
          { s with
            hs :=
              { s.hs with
                kemPublicKey := publicKey
                kemSecretKey := secretKey } }
        let sent :=
          handshakeEmit C s s.sessionId buf seq (ctrlPqKemInit :: publicKey)
        { sent with sess := { sent.sess with state := .pqKemInitSent } }

/-- `derive_session_keys` into the key fields of a session. -/
def Session.setKeys (s : Session) (material : Bytes × List Bytes) : Session :=
  { s with
    keys :=
      { s.keys with sessionKey := material.1, channelKeys := material.2 } }

/-- `handshake_build_kem_response`.  The keys it derives are those of the
transcript before the message, and are derived again when the session
locks. -/
def handshakeBuildKemResponse
    (s : Session) (coins : Bytes) (buf : PacketBuf) (seq : UInt32) : HsOut :=
  if s.hs.kemType ≠ kemTypeMlkem768 then
    { sess := s, seq := seq }
  else
    match C.kemEncaps s.hs.peerPublicKey coins with
    | none => { sess := s, seq := seq }
    | some (ciphertext, secret) =>
        match deriveSessionKeys C secret s.hs.transcriptHash with
        | none => { sess := s, seq := seq }
        | some material =>
            let s := s.setKeys material
            let s := { s with hs := { s.hs with kemSharedSecret := secret } }
            let sent :=
              handshakeEmit C s s.sessionId buf seq
                (ctrlPqKemResponse :: ciphertext)
            { sent with
              sess := { sent.sess with state := .pqKemResponseSent } }

/-- What a proof encrypts: the identity key and its MAC of the transcript. -/
def proofPlain (s : Session) : Bytes :=
  s.hs.ourIdentityKey ++
    C.hmacSha256 s.hs.ourIdentityKey s.hs.transcriptHash

/-- The payload of a proof message. -/
def proofPayload (opcode : UInt8) (nonce cipher tag : Bytes) : Bytes :=
  opcode :: nonce ++ (cipher ++ tag)

/-- The common part of `handshake_build_identity` and
`handshake_build_locked`: seal the proof, then absorb and emit it. -/
def handshakeBuildProof
    (s : Session) (opcode : UInt8) (label : Bytes) (buf : PacketBuf)
    (seq : UInt32) : HsOut :=
  let (key, nonce, hashes) :=
    deriveIdProofKey C s.hs.kemSharedSecret s.hs.transcriptHash label
  let plain := proofPlain C s
  match aeadEncrypt C key nonce [] plain with
  | none => { sess := s.log hashes, seq := seq + 1 }
  | some (cipher, tag) =>
      let s := s.log (hashes ++ [.seal key nonce plain cipher tag])
      handshakeEmit C s s.sessionId buf seq
        (proofPayload opcode nonce cipher tag)

/-- `handshake_build_identity`. -/
def handshakeBuildIdentity (s : Session) (buf : PacketBuf) (seq : UInt32) :
    HsOut :=
  let sent := handshakeBuildProof C s ctrlIdentityProof labelIdProof buf seq
  match sent.out with
  | none => sent
  | some _ =>
      { sent with sess := { sent.sess with state := .identityProofSent } }

/-- The locked session with the derived keys; the KEM secrets are wiped. -/
def Session.lockWith (s : Session) (material : Bytes × List Bytes) : Session :=
  let s := s.setKeys material
  { s with
    hs :=
      { s.hs with
        kemSecretKey :=
          if s.hs.kemType = kemTypeMlkem768 then zeros kemSkSize
          else s.hs.kemSecretKey
        kemSharedSecret := zeros kemSsSize }
    state := .locked
    handshakeComplete := true }

/-- The end of both sides: derive the keys from the full transcript and
lock. -/
def lockSession (s : Session) : Option Session :=
  (deriveSessionKeys C s.hs.kemSharedSecret s.hs.transcriptHash).map
    s.lockWith

/-- `handshake_build_locked`. -/
def handshakeBuildLocked (s : Session) (buf : PacketBuf) (seq : UInt32) :
    HsOut :=
  let sent := handshakeBuildProof C s ctrlSessionLocked labelLockProof buf seq
  match sent.out with
  | none => sent
  | some _ =>
      match lockSession C sent.sess with
      | none => { sent with out := none }
      | some s => { sent with sess := s }

/-! ## Processing messages -/

/-- The verification shared by IDENTITY_PROOF and SESSION_LOCKED, on the
payload `msg` and the transcript `pre` before it was absorbed. -/
def verifyProof (s : Session) (label pre msg : Bytes) : Session × Bool :=
  let (key, nonce, hashes) :=
    deriveIdProofKey C s.hs.kemSharedSecret pre label
  let cipher := (msg.drop 13).take 64
  let tag := (msg.drop 77).take 16
  let s := s.log (hashes ++ [.unseal key nonce cipher tag])
  match aeadDecrypt C key nonce [] cipher tag with
  | none => (s.setError hsErrBadIdentity, false)
  | some plain =>
      let s := { s with hs := { s.hs with peerIdentityKey := plain.take 32 } }
      if plain.drop 32 ≠ C.hmacSha256 (plain.take 32) pre then
        (s.setError hsErrBadIdentity, false)
      else
        ({ s with hs := { s.hs with identityVerified := true } }, true)

/-- The cases of `handshake_process_message` after the transcript update;
`pre` is the transcript before it. -/
def processOpcode (s : Session) (pre : Bytes) (opcode : UInt8) (msg : Bytes) :
    Session × HsResult :=
  if opcode = ctrlHello then
    if s.role = .responder then
      (s, .needMore)
    else
      (s.setError hsErrStateViolation, .error)
  else if opcode = ctrlAccept then
    if msg.length ≥ 9 then
      ({ s with
          sessionId := UInt64.ofNat (leNat ((msg.drop 1).take 8)) },
        .needMore)
    else
      (s, .needMore)
  else if opcode = ctrlPqKemInit then
    if msg.length < 1 + kemPkSize then
      (s, .error)
    else
      ({ s with
          hs := { s.hs with peerPublicKey := (msg.drop 1).take kemPkSize } },
        .needMore)
  else if opcode = ctrlPqKemResponse then
    if msg.length < 1 + kemCtSize then
      (s, .error)
    else
      match C.kemDecaps s.hs.kemSecretKey ((msg.drop 1).take kemCtSize) with
      | none => (s, .error)
      | some secret =>
          ({ s with hs := { s.hs with kemSharedSecret := secret } },
            .needMore)
  else if opcode = ctrlIdentityProof then
    if msg.length < proofLength then
      (s, .error)
    else
      let checked := verifyProof C s labelIdProof pre msg
      (checked.1, if checked.2 then .needMore else .error)
  else if opcode = ctrlSessionLocked then
    if msg.length < proofLength then
      (s.setError hsErrBadIdentity, .error)
    else
      let checked := verifyProof C s labelLockProof pre msg
      if !checked.2 then
        (checked.1, .error)
      else
        match lockSession C checked.1 with
        | none => (checked.1, .error)
        | some s => (s, .complete)
  else
    (s, .error)

/-- `handshake_process_message`. -/
def handshakeProcessMessage (s : Session) (v : PacketView) :
    Session × HsResult :=
  if v.length < 1 then
    (s.setError hsErrStateViolation, .error)
  else
    let opcode := v.payloadAt 0
    if s.state = .locked ∧
        (opcode = ctrlPqKemInit ∨ opcode = ctrlPqKemResponse) then
      (s.setError hsErrStateViolation, .error)
    else if !verifyStateTransition s opcode then
      (s.setError hsErrStateViolation, .error)
    else
      processOpcode C (updateTranscript C s v.payloadBytes)
        s.hs.transcriptHash opcode v.payloadBytes

/-! ## The runners -/

/-- What the initiator answers to an accepted message. -/
def initiatorReply (env : HsEnv) (s : Session) (opcode : UInt8) (seq : UInt32) :
    HsOut :=
  match env.buf with
  | none => { sess := s, seq := seq }
  | some buf =>
      if opcode = ctrlAccept then
        handshakeBuildKemInit C s env.coins buf seq
      else if opcode = ctrlPqKemResponse then
        handshakeBuildIdentity C s buf seq
      else
        { sess := s, seq := seq }

/-- What the responder answers to an accepted message. -/
def responderReply (env : HsEnv) (s : Session) (opcode : UInt8) (seq : UInt32) :
    HsOut :=
  match env.buf with
  | none => { sess := s, seq := seq }
  | some buf =>
      if opcode = ctrlHello then
        handshakeBuildAccept C s env.sessionId buf seq
      else if opcode = ctrlPqKemInit then
        handshakeBuildKemResponse C s env.coins buf seq
      else if opcode = ctrlIdentityProof then
        handshakeBuildLocked C s buf seq
      else
        { sess := s, seq := seq }

/-- The common part of the two runners. -/
def handshakeRun
    (reply : HsEnv → Session → UInt8 → UInt32 → HsOut)
    (env : HsEnv) (s : Session) (p : PacketBuf) (seq : UInt32) : HsOut :=
  match packetParse p with
  | none => { sess := s, seq := seq }
  | some v =>
      let processed := handshakeProcessMessage C s v
      match processed.2 with
      | .error => { sess := sessionReset processed.1, seq := seq }
      | .complete => { sess := processed.1, seq := seq }
      | .needMore => reply env processed.1 (v.payloadAt 0) seq

/-- `handshake_run_as_initiator`. -/
def handshakeRunAsInitiator :
    HsEnv → Session → PacketBuf → UInt32 → HsOut :=
  handshakeRun C (initiatorReply C)

/-- `handshake_run_as_responder`. -/
def handshakeRunAsResponder :
    HsEnv → Session → PacketBuf → UInt32 → HsOut :=
  handshakeRun C (responderReply C)

end

end PqComm
