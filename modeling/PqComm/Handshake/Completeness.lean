import Mathlib.Data.List.Nodup
import PqComm.Handshake.Invariants

/-!
# The undisturbed handshake

The sides take turns and each receives the latest packet of the other.  With a
KEM that decapsulates what was encapsulated and a cipher that opens what was
sealed, six deliveries lock both sides, and the log of each side is known call
by call.
-/

namespace PqComm

open Lib

section

variable (C : CryptoSuite)

/-! ## Where a side stands -/

/-- What the handshake reads of a session. -/
structure Standing (s : Session) (key : Bytes) (role : HandshakeRole)
    (state : SessionState) (secret : Bytes) (id : UInt64)
    (absorbed : List Bytes) (calls : List CryptoCall) : Prop where
  identity : s.hs.ourIdentityKey = key
  kemType : s.hs.kemType = kemTypeMlkem768
  role : s.role = role
  state : s.state = state
  secret : s.hs.kemSharedSecret = secret
  id : s.sessionId = id
  transcript : s.hs.transcriptHash = transcriptOf C absorbed
  absorbed : s.history.absorbed = absorbed
  calls : s.history.calls = calls
  chained : Chained C s

/-- The call that absorbing `msg` after `before` adds to the log. -/
def absorbCall (before : List Bytes) (msg : Bytes) : CryptoCall :=
  .hash (transcriptOf C before ++ msg)

theorem Standing.absorb
    {s : Session} {key secret : Bytes} {role : HandshakeRole}
    {state : SessionState} {id : UInt64} {absorbed : List Bytes}
    {calls : List CryptoCall}
    (stands : Standing C s key role state secret id absorbed calls)
    (msg : Bytes) :
    Standing C (updateTranscript C s msg) key role state secret id
      (absorbed ++ [msg]) (calls ++ [absorbCall C absorbed msg]) where
  identity := stands.identity
  kemType := stands.kemType
  role := stands.role
  state := stands.state
  secret := stands.secret
  id := stands.id
  transcript := by
    rw [transcriptOf, hashChain_concat]
    simp only [updateTranscript]
    rw [stands.transcript, transcriptOf]
  absorbed := by
    simp only [updateTranscript]
    rw [stands.absorbed]
  calls := by
    simp only [updateTranscript]
    rw [stands.calls, stands.transcript, absorbCall]
  chained := stands.chained.updateTranscript C msg

/-- `r` carries the message `msg`. -/
def Sends (r : HsOut) (msg : Bytes) : Prop :=
  ∃ buf id seq, r.out = some (buildPacket buf true 0 id chControl seq msg)

/-! ## The messages of an undisturbed handshake -/

/-- The key of the proof with `label` after `before`. -/
def keyAfter (label secret : Bytes) (before : List Bytes) : Bytes :=
  proofKey C label secret (transcriptOf C before)

/-- What the owner of `key` proves after `before`. -/
def plainAfter (key : Bytes) (before : List Bytes) : Bytes :=
  key ++ C.hmacSha256 key (transcriptOf C before)

def sealedAfter (label secret key : Bytes) (before : List Bytes) :
    Bytes × Bytes :=
  C.aeadSeal (keyAfter C label secret before)
    (proofNonce C (keyAfter C label secret before)) []
    (plainAfter C key before)

/-- The proof message of the owner of `key` after `before`. -/
def proofAfter (opcode : UInt8) (label secret key : Bytes)
    (before : List Bytes) : Bytes :=
  proofPayload opcode (proofNonce C (keyAfter C label secret before))
    (sealedAfter C label secret key before).1
    (sealedAfter C label secret key before).2

/-- The hash calls of building or verifying a proof after `before`. -/
def keyCalls (label secret : Bytes) (before : List Bytes) : List CryptoCall :=
  [.hash (proofKeyInput label secret (transcriptOf C before)),
    .hash (labelNonce ++ keyAfter C label secret before)]

def sealCall (label secret key : Bytes) (before : List Bytes) : CryptoCall :=
  .seal (keyAfter C label secret before)
    (proofNonce C (keyAfter C label secret before))
    (plainAfter C key before) (sealedAfter C label secret key before).1
    (sealedAfter C label secret key before).2

def unsealCall (label secret key : Bytes) (before : List Bytes) :
    CryptoCall :=
  .unseal (keyAfter C label secret before)
    (proofNonce C (keyAfter C label secret before))
    (sealedAfter C label secret key before).1
    (sealedAfter C label secret key before).2

section

variable {C} {s : Session} {key secret : Bytes} {role : HandshakeRole}
  {state : SessionState} {id : UInt64} {absorbed : List Bytes}
  {calls : List CryptoCall}

theorem Standing.builtProof_eq
    (stands : Standing C s key role state secret id absorbed calls)
    (opcode : UInt8) (label : Bytes) :
    builtProof C s opcode label =
      proofAfter C opcode label secret key absorbed := by
  simp only [builtProof, proofSealed, proofPlain, stands.secret,
    stands.transcript, stands.identity]
  rfl

theorem Standing.proofCalls_eq
    (stands : Standing C s key role state secret id absorbed calls)
    (label : Bytes) :
    proofCalls C s label =
      keyCalls C label secret absorbed ++
        [sealCall C label secret key absorbed] := by
  simp only [proofCalls, proofSealed, proofPlain, stands.secret,
    stands.transcript, stands.identity]
  rfl

/-- Building a proof. -/
theorem Standing.buildProof
    (stands : Standing C s key role state secret id absorbed calls)
    (opcode : UInt8) (label : Bytes) (buf : PacketBuf) (seq : UInt32) :
    Sends (handshakeBuildProof C s opcode label buf seq)
        (proofAfter C opcode label secret key absorbed) ∧
      Standing C (handshakeBuildProof C s opcode label buf seq).sess key role
        state secret id
        (absorbed ++ [proofAfter C opcode label secret key absorbed])
        (calls ++
          (keyCalls C label secret absorbed ++
            [sealCall C label secret key absorbed,
              absorbCall C absorbed
                (proofAfter C opcode label secret key absorbed)])) := by
  rw [handshakeBuildProof_eq C stands.chained, stands.builtProof_eq,
    stands.proofCalls_eq]
  refine ⟨⟨_, _, _, rfl⟩, ?_⟩
  have logged :
      Standing C
        (s.log
          (keyCalls C label secret absorbed ++
            [sealCall C label secret key absorbed]))
        key role state secret id absorbed
        (calls ++
          (keyCalls C label secret absorbed ++
            [sealCall C label secret key absorbed])) :=
    { stands with
      calls := by
        rw [Session.log]
        dsimp only
        rw [stands.calls]
      chained :=
        { stands.chained with
          logged := fun input member =>
            List.mem_append_left _ (stands.chained.logged input member) } }
  simpa using logged.absorb C
    (proofAfter C opcode label secret key absorbed)

/-- Building PQ_KEM_INIT. -/
theorem Standing.buildKemInit
    (stands : Standing C s key role state secret id absorbed calls)
    {coins publicKey secretKey : Bytes}
    (made : C.kemKeypair coins = some (publicKey, secretKey))
    (buf : PacketBuf) (seq : UInt32) :
    let r := handshakeBuildKemInit C s coins buf seq
    Sends r (ctrlPqKemInit :: publicKey) ∧
      r.sess.hs.kemSecretKey = secretKey ∧
      Standing C r.sess key role .pqKemInitSent secret id
        (absorbed ++ [ctrlPqKemInit :: publicKey])
        (calls ++ [absorbCall C absorbed (ctrlPqKemInit :: publicKey)]) := by
  have keyed :
      Standing C
        { s with
          hs :=
            { s.hs with
              kemPublicKey := publicKey
              kemSecretKey := secretKey } }
        key role state secret id absorbed calls :=
    { stands with chained := { stands.chained with } }
  have sent := keyed.absorb C (ctrlPqKemInit :: publicKey)
  intro r
  simp only [r]
  rw [handshakeBuildKemInit, if_neg (by simp [stands.kemType]), made]
  exact ⟨⟨_, _, _, rfl⟩, rfl,
    { sent with state := rfl, chained := { sent.chained with } }⟩

/-- Building PQ_KEM_RESPONSE. -/
theorem Standing.buildKemResponse
    (stands : Standing C s key role state secret id absorbed calls)
    {coins ciphertext shared : Bytes}
    (made :
      C.kemEncaps s.hs.peerPublicKey coins = some (ciphertext, shared))
    (buf : PacketBuf) (seq : UInt32) :
    let r := handshakeBuildKemResponse C s coins buf seq
    Sends r (ctrlPqKemResponse :: ciphertext) ∧
      Standing C r.sess key role .pqKemResponseSent shared id
        (absorbed ++ [ctrlPqKemResponse :: ciphertext])
        (calls ++
          [absorbCall C absorbed (ctrlPqKemResponse :: ciphertext)]) := by
  have size := (C.length_kemEncaps _ _ _ _ made).2
  have secretNonempty : shared.length ≠ 0 := by
    omega
  have transcriptNonempty : s.hs.transcriptHash.length ≠ 0 := by
    rw [stands.transcript, length_transcriptOf]
    decide
  have derived := deriveSessionKeys_eq C secretNonempty transcriptNonempty
  have keyed :
      Standing C
        { s.setKeys (sessionKeyMaterial C shared s.hs.transcriptHash) with
          hs := { s.hs with kemSharedSecret := shared } }
        key role state shared id absorbed calls :=
    { stands with
      secret := rfl
      chained := { stands.chained with secret := size } }
  have sent := keyed.absorb C (ctrlPqKemResponse :: ciphertext)
  intro r
  simp only [r]
  rw [handshakeBuildKemResponse, if_neg (by simp [stands.kemType]), made]
  dsimp only
  rw [derived]
  exact ⟨⟨_, _, _, rfl⟩,
    { sent with state := rfl, chained := { sent.chained with } }⟩

/-- Building IDENTITY_PROOF. -/
theorem Standing.buildIdentity
    (stands : Standing C s key role state secret id absorbed calls)
    (buf : PacketBuf) (seq : UInt32) :
    let r := handshakeBuildIdentity C s buf seq
    let proof :=
      proofAfter C ctrlIdentityProof labelIdProof secret key absorbed
    Sends r proof ∧
      Standing C r.sess key role .identityProofSent secret id
        (absorbed ++ [proof])
        (calls ++
          (keyCalls C labelIdProof secret absorbed ++
            [sealCall C labelIdProof secret key absorbed,
              absorbCall C absorbed proof])) := by
  obtain ⟨⟨buf', id', seq', out⟩, after⟩ :=
    stands.buildProof ctrlIdentityProof labelIdProof buf seq
  intro r proof
  simp only [r]
  rw [handshakeBuildIdentity]
  simp only [out]
  exact ⟨⟨_, _, _, rfl⟩,
    { after with state := rfl, chained := { after.chained with } }⟩

theorem length_sealedAfter
    (label secret : Bytes) {owner : Bytes} (size : owner.length = 32)
    (before : List Bytes) :
    (sealedAfter C label secret owner before).1.length = 64 ∧
      (sealedAfter C label secret owner before).2.length = 16 := by
  have lengths := C.length_aeadSeal (keyAfter C label secret before)
    (proofNonce C (keyAfter C label secret before)) []
    (plainAfter C owner before)
  have plain : (plainAfter C owner before).length = 64 := by
    simp [plainAfter, size, C.length_hmacSha256]
  rw [plain] at lengths
  exact lengths

/-- The fields of a proof message are found where they were put. -/
theorem proofPayload_slices
    {nonce cipher tag : Bytes} (opcode : UInt8)
    (nonceLength : nonce.length = 12) (cipherLength : cipher.length = 64)
    (tagLength : tag.length = 16) :
    ((proofPayload opcode nonce cipher tag).drop 13).take 64 = cipher ∧
      ((proofPayload opcode nonce cipher tag).drop 77).take 16 = tag := by
  have front : (opcode :: nonce).length = 13 := by
    simp [nonceLength]
  have afterNonce :
      (proofPayload opcode nonce cipher tag).drop 13 = cipher ++ tag := by
    rw [proofPayload, ← front, List.drop_left]
  constructor
  · rw [afterNonce, ← cipherLength, List.take_left]
  · have afterCipher :
        (proofPayload opcode nonce cipher tag).drop 77 = tag := by
      rw [show 77 = 13 + 64 from rfl, ← List.drop_drop, afterNonce,
        ← cipherLength, List.drop_left]
    rw [afterCipher]
    exact List.take_of_length_le (Nat.le_of_eq tagLength)

/-- `msg` carries the ciphertext and the tag of the proof of `owner` after
`before`.  What else it carries is not said. -/
structure CarriesProof (C : CryptoSuite) (label secret owner : Bytes)
    (before : List Bytes) (msg : Bytes) : Prop where
  long : 93 ≤ msg.length
  cipher :
    (msg.drop 13).take 64 = (sealedAfter C label secret owner before).1
  tag : (msg.drop 77).take 16 = (sealedAfter C label secret owner before).2

theorem carriesProof_proofAfter
    (opcode : UInt8) (label secret : Bytes) {owner : Bytes}
    (size : owner.length = 32) (before : List Bytes) :
    CarriesProof C label secret owner before
      (proofAfter C opcode label secret owner before) := by
  obtain ⟨cipherLength, tagLength⟩ :=
    length_sealedAfter (C := C) label secret size before
  have nonceLength := length_proofNonce C (keyAfter C label secret before)
  obtain ⟨cipher, tag⟩ := proofPayload_slices opcode nonceLength
    cipherLength tagLength
  refine ⟨?_, cipher, tag⟩
  rw [proofAfter, length_proofPayload opcode nonceLength cipherLength
    tagLength]

theorem length_proofAfter_le
    (opcode : UInt8) (label secret : Bytes) (owner : IdentityKey)
    (before : List Bytes) :
    (proofAfter C opcode label secret owner.bytes before).length ≤ 1476 := by
  have sizes := length_sealedAfter (C := C) label secret owner.length_bytes
    before
  rw [proofAfter, length_proofPayload _ (length_proofNonce C _) sizes.1
    sizes.2]
  decide

/-- A message that carries the proof of the owner of another key, sealed on
the same secret and transcript, is verified, and the key becomes known. -/
theorem Standing.verify
    (stands : Standing C s key role state secret id absorbed calls)
    (inverts : AeadInverts C) {owner : Bytes} (size : owner.length = 32)
    {label msg : Bytes} {before : List Bytes}
    (carries : CarriesProof C label secret owner before msg) :
    let checked := verifyProof C s label (transcriptOf C before) msg
    checked.2 = true ∧ checked.1.hs.peerIdentityKey = owner ∧
      checked.1.hs.identityVerified = true ∧
      Standing C checked.1 key role state secret id absorbed
        (calls ++
          (keyCalls C label secret before ++
            [unsealCall C label secret owner before])) := by
  have cipherLength :=
    (length_sealedAfter (C := C) label secret size before).1
  have opened :
      aeadDecrypt C (keyAfter C label secret before)
          (proofNonce C (keyAfter C label secret before)) []
          (sealedAfter C label secret owner before).1
          (sealedAfter C label secret owner before).2 =
        some (plainAfter C owner before) := by
    rw [aeadDecrypt, if_neg (by rw [cipherLength]; decide)]
    exact inverts _ _ _ _
  have front : (plainAfter C owner before).take 32 = owner := by
    rw [plainAfter, ← size, List.take_left]
  have back :
      (plainAfter C owner before).drop 32 =
        C.hmacSha256 owner (transcriptOf C before) := by
    rw [plainAfter, ← size, List.drop_left]
  have checkedLog := verifyProof_checked C s label (transcriptOf C before)
    msg
  have logged := checkedLog.calls
  rw [carries.cipher, carries.tag, stands.secret, stands.calls] at logged
  intro checked
  have result :
      checked.2 = true ∧ checked.1.hs.peerIdentityKey = owner ∧
        checked.1.hs.identityVerified = true := by
    simp only [checked, verifyProof, deriveIdProofKey, carries.cipher,
      carries.tag, stands.secret]
    rw [show proofKey C label secret (transcriptOf C before) =
      keyAfter C label secret before from rfl, opened]
    simp [front, back]
  refine ⟨result.1, result.2.1, result.2.2, ?_⟩
  exact
    { identity := checkedLog.identity.trans stands.identity
      kemType := checkedLog.kemType.trans stands.kemType
      role := checkedLog.core.role.trans stands.role
      state := checkedLog.core.state.trans stands.state
      secret := checkedLog.secret.trans stands.secret
      id := checkedLog.core.sessionId.trans stands.id
      transcript := checkedLog.transcript.trans stands.transcript
      absorbed := checkedLog.absorbed.trans stands.absorbed
      calls := logged
      chained := stands.chained.proofChecked C checkedLog }

/-- Locking. -/
theorem Standing.lock
    (stands : Standing C s key role state secret id absorbed calls) :
    lockSession C s = some (lockedSession C s) ∧
      (lockedSession C s).material =
        sessionKeyMaterial C secret (transcriptOf C absorbed) ∧
      Standing C (lockedSession C s) key role .locked (zeros 32) id absorbed
        calls := by
  refine ⟨lockSession_eq C stands.chained, ?_, ?_⟩
  · rw [← stands.secret, ← stands.transcript]
    rfl
  · exact
      { stands with
        state := rfl
        secret := rfl
        chained := chained_lockedSession C stands.chained }

/-! ## One message after the other -/

theorem processPayload_expected
    {msg : Bytes} (nonempty : 1 ≤ msg.length) (unlocked : s.state ≠ .locked)
    (expected : verifyStateTransition s (opcodeOf msg) = true) :
    processPayload C s msg =
      processOpcode C (updateTranscript C s msg) s.hs.transcriptHash
        (opcodeOf msg) msg := by
  simp [processPayload, Nat.not_lt.mpr nonempty, unlocked, expected]

theorem opcodeOf_acceptPayload (newId : UInt64) :
    opcodeOf (acceptPayload newId) = ctrlAccept :=
  rfl

/-- HELLO is answered with ACCEPT. -/
theorem Standing.feed_hello
    (stands :
      Standing C s key .responder .handshakeStart secret id absorbed calls)
    {env : HsEnv} {buf : PacketBuf} (pool : env.buf = some buf)
    (seq : UInt32) :
    let r := feed C (responderReply C) env s [ctrlHello] seq
    Sends r (acceptPayload env.sessionId) ∧
      Standing C r.sess key .responder .handshakeStart secret env.sessionId
        (absorbed ++ [[ctrlHello]] ++ [acceptPayload env.sessionId])
        (calls ++ [absorbCall C absorbed [ctrlHello]] ++
          [absorbCall C (absorbed ++ [[ctrlHello]])
            (acceptPayload env.sessionId)]) := by
  have expected : verifyStateTransition s (opcodeOf [ctrlHello]) = true := by
    simp [verifyStateTransition, stands.role, stands.state]
  have processed :
      processPayload C s [ctrlHello] =
        (updateTranscript C s [ctrlHello], .needMore) := by
    rw [processPayload_expected (by decide) (by simp [stands.state]) expected]
    have role := (stands.absorb C [ctrlHello]).role
    simp [processOpcode, role]
  have answer :
      feed C (responderReply C) env s [ctrlHello] seq =
        handshakeBuildAccept C (updateTranscript C s [ctrlHello])
          env.sessionId buf seq := by
    simp [feed, processed, responderReply, pool]
  intro r
  have renamed :
      Standing C
        { updateTranscript C s [ctrlHello] with sessionId := env.sessionId }
        key .responder .handshakeStart secret env.sessionId
        (absorbed ++ [[ctrlHello]])
        (calls ++ [absorbCall C absorbed [ctrlHello]]) :=
    { stands.absorb C [ctrlHello] with
      id := rfl
      chained := { (stands.absorb C [ctrlHello]).chained with } }
  simp only [r, answer, handshakeBuildAccept, handshakeEmit]
  exact ⟨⟨_, _, _, rfl⟩, renamed.absorb C _⟩

/-- ACCEPT is answered with PQ_KEM_INIT, which carries a new public key. -/
theorem Standing.feed_accept
    (stands :
      Standing C s key .initiator .handshakeStart secret id absorbed calls)
    {env : HsEnv} {buf : PacketBuf} (pool : env.buf = some buf)
    {publicKey secretKey : Bytes}
    (made : C.kemKeypair env.coins = some (publicKey, secretKey))
    (newId : UInt64) (seq : UInt32) :
    let r := feed C (initiatorReply C) env s (acceptPayload newId) seq
    Sends r (ctrlPqKemInit :: publicKey) ∧
      r.sess.hs.kemSecretKey = secretKey ∧
      Standing C r.sess key .initiator .pqKemInitSent secret newId
        (absorbed ++ [acceptPayload newId] ++ [ctrlPqKemInit :: publicKey])
        (calls ++ [absorbCall C absorbed (acceptPayload newId)] ++
          [absorbCall C (absorbed ++ [acceptPayload newId])
            (ctrlPqKemInit :: publicKey)]) := by
  have long : 9 ≤ (acceptPayload newId).length := by
    simp [acceptPayload]
  have bytes :
      UInt64.ofNat (leNat (((acceptPayload newId).drop 1).take 8)) =
        newId := by
    have slice :
        ((acceptPayload newId).drop 1).take 8 = leBytes 8 newId.toNat :=
      List.take_of_length_le (Nat.le_of_eq (length_leBytes 8 _))
    rw [slice, uint64_leNat_leBytes]
  have expected : verifyStateTransition s ctrlAccept = true := by
    simp [verifyStateTransition, stands.role, stands.state]
  have processed :
      processPayload C s (acceptPayload newId) =
        ({ updateTranscript C s (acceptPayload newId) with
            sessionId := newId }, .needMore) := by
    rw [processPayload_expected (by omega) (by simp [stands.state]) expected,
      opcodeOf_acceptPayload, processOpcode, if_neg (by decide), if_pos rfl,
      if_pos long, bytes]
  have answer :
      feed C (initiatorReply C) env s (acceptPayload newId) seq =
        handshakeBuildKemInit C
          { updateTranscript C s (acceptPayload newId) with
            sessionId := newId } env.coins buf seq := by
    rw [feed, processed]
    dsimp only
    rw [initiatorReply, pool, opcodeOf_acceptPayload]
    dsimp only
    rw [if_pos rfl]
  have adopted :
      Standing C
        { updateTranscript C s (acceptPayload newId) with
          sessionId := newId }
        key .initiator .handshakeStart secret newId
        (absorbed ++ [acceptPayload newId])
        (calls ++ [absorbCall C absorbed (acceptPayload newId)]) :=
    { stands.absorb C (acceptPayload newId) with
      id := rfl
      chained := { (stands.absorb C (acceptPayload newId)).chained with } }
  rw [answer]
  exact adopted.buildKemInit made buf seq

/-- PQ_KEM_INIT is answered with PQ_KEM_RESPONSE, which carries the
ciphertext of a new secret. -/
theorem Standing.feed_kemInit
    (stands :
      Standing C s key .responder .handshakeStart secret id absorbed calls)
    {env : HsEnv} {buf : PacketBuf} (pool : env.buf = some buf)
    {publicKey ciphertext shared : Bytes}
    (size : publicKey.length = kemPkSize)
    (made : C.kemEncaps publicKey env.coins = some (ciphertext, shared))
    (seq : UInt32) :
    let r :=
      feed C (responderReply C) env s (ctrlPqKemInit :: publicKey) seq
    Sends r (ctrlPqKemResponse :: ciphertext) ∧
      Standing C r.sess key .responder .pqKemResponseSent shared id
        (absorbed ++ [ctrlPqKemInit :: publicKey] ++
          [ctrlPqKemResponse :: ciphertext])
        (calls ++ [absorbCall C absorbed (ctrlPqKemInit :: publicKey)] ++
          [absorbCall C (absorbed ++ [ctrlPqKemInit :: publicKey])
            (ctrlPqKemResponse :: ciphertext)]) := by
  have long : ¬ (ctrlPqKemInit :: publicKey).length < 1 + kemPkSize := by
    rw [List.length_cons, size]
    omega
  have slice :
      ((ctrlPqKemInit :: publicKey).drop 1).take kemPkSize = publicKey :=
    List.take_of_length_le (Nat.le_of_eq size)
  have expected : verifyStateTransition s ctrlPqKemInit = true := by
    simp [verifyStateTransition, stands.role, stands.state]
  have processed :
      processPayload C s (ctrlPqKemInit :: publicKey) =
        ({ updateTranscript C s (ctrlPqKemInit :: publicKey) with
            hs :=
              { (updateTranscript C s (ctrlPqKemInit :: publicKey)).hs with
                peerPublicKey := publicKey } }, .needMore) := by
    rw [processPayload_expected (by simp) (by simp [stands.state]) expected,
      opcodeOf_cons, processOpcode, if_neg (by decide), if_neg (by decide),
      if_pos rfl, if_neg long, slice]
  have answer :
      feed C (responderReply C) env s (ctrlPqKemInit :: publicKey) seq =
        handshakeBuildKemResponse C
          { updateTranscript C s (ctrlPqKemInit :: publicKey) with
            hs :=
              { (updateTranscript C s (ctrlPqKemInit :: publicKey)).hs with
                peerPublicKey := publicKey } } env.coins buf seq := by
    rw [feed, processed]
    dsimp only
    rw [responderReply, pool, opcodeOf_cons]
    dsimp only
    rw [if_neg (by decide), if_pos rfl]
  have absorbs := stands.absorb C (ctrlPqKemInit :: publicKey)
  have held :
      Standing C
        { updateTranscript C s (ctrlPqKemInit :: publicKey) with
          hs :=
            { (updateTranscript C s (ctrlPqKemInit :: publicKey)).hs with
              peerPublicKey := publicKey } }
        key .responder .handshakeStart secret id
        (absorbed ++ [ctrlPqKemInit :: publicKey])
        (calls ++ [absorbCall C absorbed (ctrlPqKemInit :: publicKey)]) :=
    { absorbs with chained := { absorbs.chained with } }
  rw [answer]
  exact held.buildKemResponse made buf seq

/-- PQ_KEM_RESPONSE is answered with IDENTITY_PROOF. -/
theorem Standing.feed_kemResponse
    (stands :
      Standing C s key .initiator .pqKemInitSent secret id absorbed calls)
    {env : HsEnv} {buf : PacketBuf} (pool : env.buf = some buf)
    {ciphertext shared : Bytes}
    (size : ciphertext.length = kemCtSize)
    (opened : C.kemDecaps s.hs.kemSecretKey ciphertext = some shared)
    (seq : UInt32) :
    let r :=
      feed C (initiatorReply C) env s (ctrlPqKemResponse :: ciphertext) seq
    let before := absorbed ++ [ctrlPqKemResponse :: ciphertext]
    let proof :=
      proofAfter C ctrlIdentityProof labelIdProof shared key before
    Sends r proof ∧
      Standing C r.sess key .initiator .identityProofSent shared id
        (before ++ [proof])
        (calls ++
            [absorbCall C absorbed (ctrlPqKemResponse :: ciphertext)] ++
          (keyCalls C labelIdProof shared before ++
            [sealCall C labelIdProof shared key before,
              absorbCall C before proof])) := by
  have long : ¬ (ctrlPqKemResponse :: ciphertext).length < 1 + kemCtSize := by
    rw [List.length_cons, size]
    omega
  have slice :
      ((ctrlPqKemResponse :: ciphertext).drop 1).take kemCtSize =
        ciphertext :=
    List.take_of_length_le (Nat.le_of_eq size)
  have expected : verifyStateTransition s ctrlPqKemResponse = true := by
    simp only [verifyStateTransition, stands.role, stands.state]
    decide
  have kept :
      C.kemDecaps
          (updateTranscript C s
            (ctrlPqKemResponse :: ciphertext)).hs.kemSecretKey ciphertext =
        some shared := opened
  have processed :
      processPayload C s (ctrlPqKemResponse :: ciphertext) =
        ({ updateTranscript C s (ctrlPqKemResponse :: ciphertext) with
            hs :=
              { (updateTranscript C s
                  (ctrlPqKemResponse :: ciphertext)).hs with
                kemSharedSecret := shared } }, .needMore) := by
    rw [processPayload_expected (by simp) (by simp [stands.state]) expected,
      opcodeOf_cons, processOpcode, if_neg (by decide), if_neg (by decide),
      if_neg (by decide), if_pos rfl, if_neg long, slice, kept]
  have answer :
      feed C (initiatorReply C) env s (ctrlPqKemResponse :: ciphertext) seq =
        handshakeBuildIdentity C
          { updateTranscript C s (ctrlPqKemResponse :: ciphertext) with
            hs :=
              { (updateTranscript C s
                  (ctrlPqKemResponse :: ciphertext)).hs with
                kemSharedSecret := shared } } buf seq := by
    rw [feed, processed]
    dsimp only
    rw [initiatorReply, pool, opcodeOf_cons]
    dsimp only
    rw [if_neg (by decide), if_pos rfl]
  have absorbs := stands.absorb C (ctrlPqKemResponse :: ciphertext)
  have held :
      Standing C
        { updateTranscript C s (ctrlPqKemResponse :: ciphertext) with
          hs :=
            { (updateTranscript C s (ctrlPqKemResponse :: ciphertext)).hs with
              kemSharedSecret := shared } }
        key .initiator .pqKemInitSent shared id
        (absorbed ++ [ctrlPqKemResponse :: ciphertext])
        (calls ++
          [absorbCall C absorbed (ctrlPqKemResponse :: ciphertext)]) :=
    { absorbs with
      secret := rfl
      chained :=
        { absorbs.chained with
          secret := C.length_kemDecaps _ _ _ opened } }
  rw [answer]
  exact held.buildIdentity buf seq

/-- What checking a proof of `owner` after `before` adds to the log, the
message itself included. -/
def checkCalls (C : CryptoSuite) (label secret owner : Bytes)
    (before : List Bytes) (msg : Bytes) : List CryptoCall :=
  [absorbCall C before msg] ++
    (keyCalls C label secret before ++
      [unsealCall C label secret owner before])

/-- An IDENTITY_PROOF that carries the proof of `owner` is accepted. -/
theorem Standing.process_identity
    (stands :
      Standing C s key .responder .pqKemResponseSent secret id absorbed calls)
    (inverts : AeadInverts C) {owner : Bytes} (size : owner.length = 32)
    {received : Bytes} (opcode : opcodeOf received = ctrlIdentityProof)
    (carries : CarriesProof C labelIdProof secret owner absorbed received) :
    (processPayload C s received).2 = .needMore ∧
      (processPayload C s received).1.hs.peerIdentityKey = owner ∧
      (processPayload C s received).1.hs.identityVerified = true ∧
      Standing C (processPayload C s received).1 key .responder
        .pqKemResponseSent secret id (absorbed ++ [received])
        (calls ++ checkCalls C labelIdProof secret owner absorbed received) := by
  have long := carries.long
  have expected : verifyStateTransition s (opcodeOf received) = true := by
    simp only [verifyStateTransition, stands.role, stands.state, opcode]
    decide
  obtain ⟨verified, peer, flag, checked⟩ :=
    (stands.absorb C received).verify inverts size carries
  have processed :
      processPayload C s received =
        ((verifyProof C (updateTranscript C s received) labelIdProof
          (transcriptOf C absorbed) received).1, .needMore) := by
    rw [processPayload_expected (by omega) (by simp [stands.state]) expected,
      opcode, processOpcode, if_neg (by decide), if_neg (by decide),
      if_neg (by decide), if_neg (by decide), if_pos rfl,
      if_neg (by simpa [proofLength] using long), stands.transcript]
    dsimp only
    rw [verified]
    rfl
  rw [processed]
  refine ⟨rfl, peer, flag, ?_⟩
  simpa [checkCalls] using checked

/-- IDENTITY_PROOF is answered with SESSION_LOCKED, and the responder
locks. -/
theorem Standing.feed_identity
    (stands :
      Standing C s key .responder .pqKemResponseSent secret id absorbed calls)
    (inverts : AeadInverts C) {owner : Bytes} (size : owner.length = 32)
    {received : Bytes} (opcode : opcodeOf received = ctrlIdentityProof)
    (carries : CarriesProof C labelIdProof secret owner absorbed received)
    {env : HsEnv} {buf : PacketBuf} (pool : env.buf = some buf)
    (seq : UInt32) :
    let after := absorbed ++ [received]
    let proof := proofAfter C ctrlSessionLocked labelLockProof secret key after
    let r := feed C (responderReply C) env s received seq
    Sends r proof ∧ r.sess.hs.peerIdentityKey = owner ∧
      r.sess.hs.identityVerified = true ∧
      r.sess.handshakeComplete = true ∧
      r.sess.material =
        sessionKeyMaterial C secret (transcriptOf C (after ++ [proof])) ∧
      Standing C r.sess key .responder .locked (zeros 32) id
        (after ++ [proof])
        (calls ++ checkCalls C labelIdProof secret owner absorbed received ++
          (keyCalls C labelLockProof secret after ++
            [sealCall C labelLockProof secret key after,
              absorbCall C after proof])) := by
  obtain ⟨result, peer, flag, checked⟩ :=
    stands.process_identity inverts size opcode carries
  have answer :
      feed C (responderReply C) env s received seq =
        handshakeBuildLocked C (processPayload C s received).1 buf seq := by
    rw [feed]
    simp only [result]
    rw [responderReply, pool, opcode]
    dsimp only
    rw [if_neg (by decide), if_neg (by decide), if_pos rfl]
  rw [answer]
  generalize (processPayload C s received).1 = t at *
  obtain ⟨⟨buf', id', seq', out⟩, built⟩ :=
    checked.buildProof ctrlSessionLocked labelLockProof buf seq
  obtain ⟨derived, material, locked⟩ := built.lock
  have kept := handshakeBuildProof_eq C checked.chained ctrlSessionLocked
    labelLockProof buf seq
  intro after proof r
  simp only [r]
  rw [handshakeBuildLocked]
  simp only [out, derived]
  refine ⟨⟨_, _, _, rfl⟩, ?_, ?_, rfl, material, locked⟩
  · rw [kept]
    exact peer
  · rw [kept]
    exact flag

/-- A SESSION_LOCKED that carries the proof of `owner` locks the
initiator. -/
theorem Standing.process_locked
    (stands :
      Standing C s key .initiator .identityProofSent secret id absorbed calls)
    (inverts : AeadInverts C) {owner : Bytes} (size : owner.length = 32)
    {received : Bytes} (opcode : opcodeOf received = ctrlSessionLocked)
    (carries : CarriesProof C labelLockProof secret owner absorbed received) :
    let result := processPayload C s received
    result.2 = .complete ∧ result.1.hs.peerIdentityKey = owner ∧
      result.1.hs.identityVerified = true ∧
      result.1.handshakeComplete = true ∧
      result.1.material =
        sessionKeyMaterial C secret (transcriptOf C (absorbed ++ [received])) ∧
      Standing C result.1 key .initiator .locked (zeros 32) id
        (absorbed ++ [received])
        (calls ++
          checkCalls C labelLockProof secret owner absorbed received) := by
  have long := carries.long
  have expected : verifyStateTransition s (opcodeOf received) = true := by
    simp only [verifyStateTransition, stands.role, stands.state, opcode]
    decide
  obtain ⟨verified, peer, flag, checked⟩ :=
    (stands.absorb C received).verify inverts size carries
  obtain ⟨derived, material, locked⟩ := checked.lock
  have processed :
      processPayload C s received =
        (lockedSession C
          (verifyProof C (updateTranscript C s received) labelLockProof
            (transcriptOf C absorbed) received).1, .complete) := by
    rw [processPayload_expected (by omega) (by simp [stands.state]) expected,
      opcode, processOpcode, if_neg (by decide), if_neg (by decide),
      if_neg (by decide), if_neg (by decide), if_neg (by decide), if_pos rfl,
      if_neg (by simpa [proofLength] using long), stands.transcript]
    dsimp only
    rw [verified, derived]
    rfl
  intro result
  rw [show result = _ from processed]
  refine ⟨rfl, peer, flag, rfl, material, ?_⟩
  simpa [checkCalls] using locked

end

/-! ## Taking turns -/

def Party.other : Party → Party
  | .initiator => .responder
  | .responder => .initiator

def HsWorld.sentBy (w : HsWorld) : Party → List PacketBuf
  | .initiator => w.iniSent
  | .responder => w.respSent

/-- The sides take turns, `party` first, and each receives the latest packet
of the other.  Each environment is for one delivery. -/
def relay (party : Party) (w : HsWorld) : List HsEnv → List Delivery
  | [] => []
  | env :: rest =>
      match (w.sentBy party.other).getLast? with
      | none => []
      | some p =>
          let d : Delivery := { party := party, packet := p, env := env }
          d :: relay party.other (w.step C d) rest

theorem relay_genuine (party : Party) (w : HsWorld) (envs : List HsEnv) :
    w.Genuine C (relay C party w envs) := by
  induction envs generalizing party w with
  | nil =>
      trivial
  | cons env rest inductionHypothesis =>
      unfold relay
      cases latest : (w.sentBy party.other).getLast? with
      | none =>
          trivial
      | some p =>
          refine ⟨?_, inductionHypothesis _ _⟩
          have member := List.mem_of_getLast? latest
          cases party with
          | initiator => exact List.mem_append_right _ member
          | responder => exact List.mem_append_left _ member

/-- The latest packet of `sent` carries `msg`. -/
def Latest (sent : List PacketBuf) (msg : Bytes) : Prop :=
  ∃ buf id seq,
    sent.getLast? = some (buildPacket buf true 0 id chControl seq msg)

theorem Sends.latest
    {r : HsOut} {msg : Bytes} (sends : Sends r msg) (sent : List PacketBuf) :
    Latest (sent ++ r.out.toList) msg := by
  obtain ⟨buf, id, seq, out⟩ := sends
  exact ⟨buf, id, seq, by simp [out]⟩

theorem step_responder
    (w : HsWorld) (env : HsEnv) (buf : PacketBuf) (id : UInt64)
    (seq : UInt32) {msg : Bytes} (fits : msg.length ≤ 1476) :
    let r := feed C (responderReply C) env w.resp msg w.respSeq
    w.step C
        { party := .responder
          packet := buildPacket buf true 0 id chControl seq msg
          env := env } =
      { w with
        resp := r.sess
        respSeq := r.seq
        respSent := w.respSent ++ r.out.toList } := by
  simp only [HsWorld.step, handshakeRunAsResponder, handshakeRun_eq]
  rw [packetParse_buildPacket buf true 0 id chControl seq msg (by decide)
    fits]
  simp only [builtView_payloadBytes]

theorem step_initiator
    (w : HsWorld) (env : HsEnv) (buf : PacketBuf) (id : UInt64)
    (seq : UInt32) {msg : Bytes} (fits : msg.length ≤ 1476) :
    let r := feed C (initiatorReply C) env w.ini msg w.iniSeq
    w.step C
        { party := .initiator
          packet := buildPacket buf true 0 id chControl seq msg
          env := env } =
      { w with
        ini := r.sess
        iniSeq := r.seq
        iniSent := w.iniSent ++ r.out.toList } := by
  simp only [HsWorld.step, handshakeRunAsInitiator, handshakeRun_eq]
  rw [packetParse_buildPacket buf true 0 id chControl seq msg (by decide)
    fits]
  simp only [builtView_payloadBytes]

/-- The responder takes `msg` from the latest packet of the initiator. -/
theorem run_relay_responder
    {w : HsWorld} {msg : Bytes} (latest : Latest w.iniSent msg)
    (fits : msg.length ≤ 1476) (env : HsEnv) (rest : List HsEnv) :
    let r := feed C (responderReply C) env w.resp msg w.respSeq
    ∃ w' : HsWorld,
      w.run C (relay C .responder w (env :: rest)) =
          w'.run C (relay C .initiator w' rest) ∧
        w'.ini = w.ini ∧ w'.resp = r.sess ∧
        w'.respSent = w.respSent ++ r.out.toList := by
  obtain ⟨buf, id, seq, last⟩ := latest
  have stepped := step_responder C w env buf id seq fits
  refine ⟨w.step C
    { party := .responder
      packet := buildPacket buf true 0 id chControl seq msg
      env := env }, ?_, rfl, by rw [stepped], by rw [stepped]⟩
  simp only [relay, Party.other, HsWorld.sentBy, last]
  rfl

/-- The initiator takes `msg` from the latest packet of the responder. -/
theorem run_relay_initiator
    {w : HsWorld} {msg : Bytes} (latest : Latest w.respSent msg)
    (fits : msg.length ≤ 1476) (env : HsEnv) (rest : List HsEnv) :
    let r := feed C (initiatorReply C) env w.ini msg w.iniSeq
    ∃ w' : HsWorld,
      w.run C (relay C .initiator w (env :: rest)) =
          w'.run C (relay C .responder w' rest) ∧
        w'.resp = w.resp ∧ w'.ini = r.sess ∧
        w'.iniSent = w.iniSent ++ r.out.toList := by
  obtain ⟨buf, id, seq, last⟩ := latest
  have stepped := step_initiator C w env buf id seq fits
  refine ⟨w.step C
    { party := .initiator
      packet := buildPacket buf true 0 id chControl seq msg
      env := env }, ?_, rfl, by rw [stepped], by rw [stepped]⟩
  simp only [relay, Party.other, HsWorld.sentBy, last]
  rfl

/-! ## The whole handshake -/

/-- One successful use of the KEM: the key of the initiator, the encapsulation
of the responder, and the decapsulation that inverts it. -/
structure KemExchange
    (keyCoins encapsCoins publicKey secretKey ciphertext shared : Bytes) :
    Prop where
  keypair : C.kemKeypair keyCoins = some (publicKey, secretKey)
  encaps : C.kemEncaps publicKey encapsCoins = some (ciphertext, shared)
  decaps : C.kemDecaps secretKey ciphertext = some shared

/-- The messages up to PQ_KEM_RESPONSE. -/
def kemMessages (id : UInt64) (publicKey ciphertext : Bytes) : List Bytes :=
  [[ctrlHello], acceptPayload id, ctrlPqKemInit :: publicKey,
    ctrlPqKemResponse :: ciphertext]

/-- The calls that absorb them, one after the other. -/
def kemCalls (id : UInt64) (publicKey ciphertext : Bytes) :
    List CryptoCall :=
  [absorbCall C [] [ctrlHello],
    absorbCall C [[ctrlHello]] (acceptPayload id),
    absorbCall C [[ctrlHello], acceptPayload id] (ctrlPqKemInit :: publicKey),
    absorbCall C
      [[ctrlHello], acceptPayload id, ctrlPqKemInit :: publicKey]
      (ctrlPqKemResponse :: ciphertext)]

section

variable (shared iniKey respKey : Bytes) (before : List Bytes)

/-- The IDENTITY_PROOF after `before`. -/
def identityAfter : Bytes :=
  proofAfter C ctrlIdentityProof labelIdProof shared iniKey before

/-- The SESSION_LOCKED after `before` and the IDENTITY_PROOF. -/
def lockedAfter : Bytes :=
  proofAfter C ctrlSessionLocked labelLockProof shared respKey
    (before ++ [identityAfter C shared iniKey before])

/-- What the initiator logs for its own proof. -/
def identityCalls : List CryptoCall :=
  keyCalls C labelIdProof shared before ++
    [sealCall C labelIdProof shared iniKey before,
      absorbCall C before (identityAfter C shared iniKey before)]

/-- What the responder logs for the proof of the initiator. -/
def checkIdentityCalls : List CryptoCall :=
  checkCalls C labelIdProof shared iniKey before
    (identityAfter C shared iniKey before)

/-- What the responder logs for its own proof. -/
def lockCalls : List CryptoCall :=
  let after := before ++ [identityAfter C shared iniKey before]
  keyCalls C labelLockProof shared after ++
    [sealCall C labelLockProof shared respKey after,
      absorbCall C after (lockedAfter C shared iniKey respKey before)]

/-- What the initiator logs for a SESSION_LOCKED that it accepts. -/
def checkLockCalls (received : Bytes) : List CryptoCall :=
  checkCalls C labelLockProof shared respKey
    (before ++ [identityAfter C shared iniKey before]) received

end

/-- A side at the end of an undisturbed handshake. -/
structure HonestEnd (s : Session) (key peer : Bytes) (role : HandshakeRole)
    (secret : Bytes) (id : UInt64) (absorbed : List Bytes)
    (calls : List CryptoCall) : Prop where
  stands : Standing C s key role .locked (zeros 32) id absorbed calls
  peer : s.hs.peerIdentityKey = peer
  verified : s.hs.identityVerified = true
  complete : s.handshakeComplete = true
  material :
    s.material = sessionKeyMaterial C secret (transcriptOf C absorbed)

theorem standing_start_initiator (setup : HsSetup) :
    Standing C (setup.start C).ini setup.iniKey.bytes .initiator
      .handshakeStart (zeros 32) setup.sessionId [[ctrlHello]]
      [absorbCall C [] [ctrlHello]] where
  identity := rfl
  kemType := rfl
  role := rfl
  state := rfl
  secret := rfl
  id := rfl
  transcript := rfl
  absorbed := rfl
  calls := rfl
  chained := chained_start_initiator C setup

theorem standing_start_responder (setup : HsSetup) :
    Standing C (setup.start C).resp setup.respKey.bytes .responder
      .handshakeStart (zeros 32) setup.respSession.sessionId [] [] where
  identity := rfl
  kemType := rfl
  role := rfl
  state := rfl
  secret := rfl
  id := rfl
  transcript := rfl
  absorbed := rfl
  calls := rfl
  chained := chained_start_responder C setup

/-- The initiator has proved itself and the responder has not seen it yet. -/
structure AwaitsIdentity (w : HsWorld) (iniKey respKey shared : Bytes)
    (id : UInt64) (publicKey ciphertext : Bytes) : Prop where
  ini :
    let before := kemMessages id publicKey ciphertext
    Standing C w.ini iniKey .initiator .identityProofSent shared id
      (before ++ [identityAfter C shared iniKey before])
      (kemCalls C id publicKey ciphertext ++
        identityCalls C shared iniKey before)
  resp :
    Standing C w.resp respKey .responder .pqKemResponseSent shared id
      (kemMessages id publicKey ciphertext)
      (kemCalls C id publicKey ciphertext)
  latest :
    Latest w.iniSent
      (identityAfter C shared iniKey (kemMessages id publicKey ciphertext))

/-- The initiator waits for SESSION_LOCKED and the responder has locked and
sent it. -/
structure AwaitsLock (w : HsWorld) (iniKey respKey shared : Bytes)
    (id : UInt64) (publicKey ciphertext : Bytes) : Prop where
  ini :
    let before := kemMessages id publicKey ciphertext
    Standing C w.ini iniKey .initiator .identityProofSent shared id
      (before ++ [identityAfter C shared iniKey before])
      (kemCalls C id publicKey ciphertext ++
        identityCalls C shared iniKey before)
  resp :
    let before := kemMessages id publicKey ciphertext
    HonestEnd C w.resp respKey iniKey .responder shared id
      (before ++ [identityAfter C shared iniKey before] ++
        [lockedAfter C shared iniKey respKey before])
      (kemCalls C id publicKey ciphertext ++
        checkIdentityCalls C shared iniKey before ++
          lockCalls C shared iniKey respKey before)
  latest :
    Latest w.respSent
      (lockedAfter C shared iniKey respKey
        (kemMessages id publicKey ciphertext))

section

variable {C} {accept kemInit kemResponse identity lock : HsEnv}
  {acceptBuf kemInitBuf kemResponseBuf identityBuf lockBuf : PacketBuf}
  {publicKey secretKey ciphertext shared iniKey respKey : Bytes}
  {id : UInt64} {w : HsWorld}

/-- The first four deliveries. -/
theorem awaitsIdentity_of_four
    (setup : HsSetup) (acceptPool : accept.buf = some acceptBuf)
    (kemInitPool : kemInit.buf = some kemInitBuf)
    (kemResponsePool : kemResponse.buf = some kemResponseBuf)
    (identityPool : identity.buf = some identityBuf)
    (exchange :
      KemExchange C kemInit.coins kemResponse.coins publicKey secretKey
        ciphertext shared) (rest : List HsEnv) :
    ∃ w : HsWorld,
      (setup.start C).run C
            (relay C .responder (setup.start C)
              (accept :: kemInit :: kemResponse :: identity :: rest)) =
          w.run C (relay C .responder w rest) ∧
        AwaitsIdentity C w setup.iniKey.bytes setup.respKey.bytes shared
          accept.sessionId publicKey ciphertext := by
  have keySize := (C.length_kemKeypair _ _ _ exchange.keypair).1
  have cipherSize := (C.length_kemEncaps _ _ _ _ exchange.encaps).1
  have hello : Latest (setup.start C).iniSent [ctrlHello] :=
    ⟨_, _, _, rfl⟩
  -- The responder takes HELLO.
  obtain ⟨w1, run1, ini1, resp1, sent1⟩ := run_relay_responder C hello
    (by decide) accept (kemInit :: kemResponse :: identity :: rest)
  obtain ⟨sends1, stands1⟩ :=
    (standing_start_responder C setup).feed_hello acceptPool
      (setup.start C).respSeq
  have latest1 := sends1.latest (setup.start C).respSent
  rw [← sent1] at latest1
  rw [← resp1] at stands1
  -- The initiator takes ACCEPT.
  obtain ⟨w2, run2, resp2, ini2, sent2⟩ := run_relay_initiator C latest1
    (by simp [acceptPayload]) kemInit (kemResponse :: identity :: rest)
  have standsIni := standing_start_initiator C setup
  rw [← ini1] at standsIni
  obtain ⟨sends2, secret2, stands2⟩ :=
    standsIni.feed_accept kemInitPool exchange.keypair accept.sessionId
      w1.iniSeq
  have latest2 := sends2.latest w1.iniSent
  rw [← sent2] at latest2
  rw [← ini2] at secret2 stands2
  -- The responder takes PQ_KEM_INIT.
  obtain ⟨w3, run3, ini3, resp3, sent3⟩ := run_relay_responder C latest2
    (by simp [keySize]) kemResponse (identity :: rest)
  rw [← resp2] at stands1
  obtain ⟨sends3, stands3⟩ :=
    stands1.feed_kemInit kemResponsePool keySize exchange.encaps w2.respSeq
  have latest3 := sends3.latest w2.respSent
  rw [← sent3] at latest3
  rw [← resp3] at stands3
  -- The initiator takes PQ_KEM_RESPONSE.
  obtain ⟨w4, run4, resp4, ini4, sent4⟩ := run_relay_initiator C latest3
    (by simp [cipherSize]) identity rest
  rw [← ini3] at secret2 stands2
  have opened :
      C.kemDecaps w3.ini.hs.kemSecretKey ciphertext = some shared := by
    rw [secret2]
    exact exchange.decaps
  obtain ⟨sends4, stands4⟩ :=
    stands2.feed_kemResponse identityPool cipherSize opened w3.iniSeq
  have latest4 := sends4.latest w3.iniSent
  rw [← sent4] at latest4
  rw [← ini4] at stands4
  rw [← resp4] at stands3
  refine ⟨w4, ?_, stands4, stands3, latest4⟩
  rw [run1, run2, run3, run4]

/-- The fifth delivery locks the responder. -/
theorem AwaitsIdentity.next
    (awaits :
      AwaitsIdentity C w iniKey respKey shared id publicKey ciphertext)
    (inverts : AeadInverts C) (size : iniKey.length = 32)
    (pool : lock.buf = some lockBuf) (rest : List HsEnv) :
    ∃ w' : HsWorld,
      w.run C (relay C .responder w (lock :: rest)) =
          w'.run C (relay C .initiator w' rest) ∧
        AwaitsLock C w' iniKey respKey shared id publicKey ciphertext := by
  obtain ⟨w', run, ini, resp, sent⟩ := run_relay_responder C awaits.latest
    (length_proofAfter_le _ _ _ ⟨iniKey, size⟩ _) lock rest
  obtain ⟨sends, peer, flag, complete, material, stands⟩ :=
    awaits.resp.feed_identity inverts size rfl
      (carriesProof_proofAfter ctrlIdentityProof _ _ size _) pool w.respSeq
  refine ⟨w', run, ?_, ?_, ?_⟩
  · rw [ini]
    exact awaits.ini
  · rw [resp]
    exact ⟨stands, peer, flag, complete, material⟩
  · rw [sent]
    exact sends.latest w.respSent

/-- A SESSION_LOCKED that carries the proof of the responder locks an
initiator that waits for it. -/
theorem AwaitsLock.finish
    (awaits : AwaitsLock C w iniKey respKey shared id publicKey ciphertext)
    (inverts : AeadInverts C) (size : respKey.length = 32)
    {received : Bytes} (opcode : opcodeOf received = ctrlSessionLocked)
    (carries :
      CarriesProof C labelLockProof shared respKey
        (kemMessages id publicKey ciphertext ++
          [identityAfter C shared iniKey
            (kemMessages id publicKey ciphertext)]) received) :
    let before := kemMessages id publicKey ciphertext
    (processPayload C w.ini received).2 = .complete ∧
      HonestEnd C (processPayload C w.ini received).1 iniKey respKey
        .initiator shared id
        (before ++ [identityAfter C shared iniKey before] ++ [received])
        (kemCalls C id publicKey ciphertext ++
          identityCalls C shared iniKey before ++
            checkLockCalls C shared iniKey respKey before received) := by
  obtain ⟨result, peer, flag, complete, material, stands⟩ :=
    awaits.ini.process_locked inverts size opcode carries
  exact ⟨result, stands, peer, flag, complete, material⟩

theorem feed_complete
    {reply : HsEnv → Session → UInt8 → UInt32 → HsOut} {s : Session}
    {msg : Bytes} (complete : (processPayload C s msg).2 = .complete)
    (env : HsEnv) (seq : UInt32) :
    (feed C reply env s msg seq).sess = (processPayload C s msg).1 := by
  simp [feed, complete]

/-- Six deliveries in order lock both sides on one secret and one
transcript. -/
theorem handshake_undisturbed
    (inverts : AeadInverts C) (setup : HsSetup)
    (acceptPool : accept.buf = some acceptBuf)
    (kemInitPool : kemInit.buf = some kemInitBuf)
    (kemResponsePool : kemResponse.buf = some kemResponseBuf)
    (identityPool : identity.buf = some identityBuf)
    (lockPool : lock.buf = some lockBuf)
    (exchange :
      KemExchange C kemInit.coins kemResponse.coins publicKey secretKey
        ciphertext shared) (final : HsEnv) :
    let before := kemMessages accept.sessionId publicKey ciphertext
    let iniKey := setup.iniKey.bytes
    let respKey := setup.respKey.bytes
    let absorbed :=
      before ++ [identityAfter C shared iniKey before] ++
        [lockedAfter C shared iniKey respKey before]
    let calls := kemCalls C accept.sessionId publicKey ciphertext
    let w :=
      (setup.start C).run C
        (relay C .responder (setup.start C)
          [accept, kemInit, kemResponse, identity, lock, final])
    HonestEnd C w.ini iniKey respKey .initiator shared accept.sessionId
        absorbed
        (calls ++ identityCalls C shared iniKey before ++
          checkLockCalls C shared iniKey respKey before
            (lockedAfter C shared iniKey respKey before)) ∧
      HonestEnd C w.resp respKey iniKey .responder shared accept.sessionId
        absorbed
        (calls ++ checkIdentityCalls C shared iniKey before ++
          lockCalls C shared iniKey respKey before) := by
  intro before iniKey respKey absorbed calls w
  obtain ⟨w4, run4, provided⟩ := awaitsIdentity_of_four setup acceptPool
    kemInitPool kemResponsePool identityPool exchange [lock, final]
  obtain ⟨w5, run5, awaits⟩ := provided.next inverts
    setup.iniKey.length_bytes lockPool [final]
  obtain ⟨w6, run6, resp6, ini6, _⟩ := run_relay_initiator C awaits.latest
    (length_proofAfter_le _ _ _ setup.respKey _) final []
  have carries :
      CarriesProof C labelLockProof shared respKey
        (before ++ [identityAfter C shared iniKey before])
        (lockedAfter C shared iniKey respKey before) :=
    carriesProof_proofAfter ctrlSessionLocked _ _
      setup.respKey.length_bytes _
  obtain ⟨complete, finished⟩ := awaits.finish inverts
    setup.respKey.length_bytes rfl carries
  have ended : w = w6 := by
    simp only [w]
    rw [run4, run5, run6]
    rfl
  rw [ended, resp6, ini6, feed_complete complete]
  exact ⟨finished, awaits.resp⟩

end

/-- Both sides are locked on one session and know each other. -/
structure Agreed (ini resp : Session) : Prop where
  iniLocked : ini.state = .locked
  respLocked : resp.state = .locked
  iniComplete : ini.handshakeComplete = true
  respComplete : resp.handshakeComplete = true
  sessionId : ini.sessionId = resp.sessionId
  sessionKey : ini.keys.sessionKey = resp.keys.sessionKey
  channelKeys : ini.keys.channelKeys = resp.keys.channelKeys
  iniVerified : ini.hs.identityVerified = true
  respVerified : resp.hs.identityVerified = true
  iniPeer : ini.hs.peerIdentityKey = resp.hs.ourIdentityKey
  respPeer : resp.hs.peerIdentityKey = ini.hs.ourIdentityKey

theorem HonestEnd.agreed
    {ini resp : Session} {iniKey respKey secret : Bytes} {id : UInt64}
    {absorbed : List Bytes} {iniCalls respCalls : List CryptoCall}
    (iniEnd :
      HonestEnd C ini iniKey respKey .initiator secret id absorbed iniCalls)
    (respEnd :
      HonestEnd C resp respKey iniKey .responder secret id absorbed
        respCalls) : Agreed ini resp := by
  have material : ini.material = resp.material :=
    iniEnd.material.trans respEnd.material.symm
  exact
    { iniLocked := iniEnd.stands.state
      respLocked := respEnd.stands.state
      iniComplete := iniEnd.complete
      respComplete := respEnd.complete
      sessionId := iniEnd.stands.id.trans respEnd.stands.id.symm
      sessionKey := congrArg Prod.fst material
      channelKeys := congrArg Prod.snd material
      iniVerified := iniEnd.verified
      respVerified := respEnd.verified
      iniPeer := iniEnd.peer.trans respEnd.stands.identity.symm
      respPeer := respEnd.peer.trans iniEnd.stands.identity.symm }

/-- The six messages, delivered in order and unmodified, end the handshake,
whatever the keys, the identifier, the randomness and the counters are. -/
theorem handshake_completes
    (inverts : AeadInverts C) (setup : HsSetup)
    (accept kemInit kemResponse identity lock final : HsEnv)
    (pool :
      ∀ env ∈ [accept, kemInit, kemResponse, identity, lock],
        env.buf.isSome = true)
    (publicKey secretKey ciphertext shared : Bytes)
    (exchange :
      KemExchange C kemInit.coins kemResponse.coins publicKey secretKey
        ciphertext shared) :
    let w :=
      (setup.start C).run C
        (relay C .responder (setup.start C)
          [accept, kemInit, kemResponse, identity, lock, final])
    Agreed w.ini w.resp := by
  have taken : ∀ env ∈ [accept, kemInit, kemResponse, identity, lock],
      ∃ buf, env.buf = some buf := by
    intro env member
    exact Option.isSome_iff_exists.mp (pool env member)
  obtain ⟨acceptBuf, acceptPool⟩ := taken accept (by simp)
  obtain ⟨kemInitBuf, kemInitPool⟩ := taken kemInit (by simp)
  obtain ⟨kemResponseBuf, kemResponsePool⟩ := taken kemResponse (by simp)
  obtain ⟨identityBuf, identityPool⟩ := taken identity (by simp)
  obtain ⟨lockBuf, lockPool⟩ := taken lock (by simp)
  obtain ⟨iniEnd, respEnd⟩ := handshake_undisturbed inverts setup acceptPool
    kemInitPool kemResponsePool identityPool lockPool exchange final
  exact iniEnd.agreed C respEnd

/-! ## What an undisturbed handshake asks of the primitives -/

/-- The strings both sides hash, when the SESSION_LOCKED that were sent or
received are among `locks`. -/
def honestInputs (shared iniKey : Bytes) (id : UInt64)
    (publicKey ciphertext : Bytes) (locks : List Bytes) : List Bytes :=
  let before := kemMessages id publicKey ciphertext
  let identity := identityAfter C shared iniKey before
  let after := before ++ [identity]
  [transcriptOf C [] ++ [ctrlHello],
    transcriptOf C (before.take 1) ++ acceptPayload id,
    transcriptOf C (before.take 2) ++ ctrlPqKemInit :: publicKey,
    transcriptOf C (before.take 3) ++ ctrlPqKemResponse :: ciphertext,
    transcriptOf C before ++ identity,
    proofKeyInput labelIdProof shared (transcriptOf C before),
    labelNonce ++ keyAfter C labelIdProof shared before,
    proofKeyInput labelLockProof shared (transcriptOf C after),
    labelNonce ++ keyAfter C labelLockProof shared after] ++
    locks.map (transcriptOf C after ++ ·)

section

variable {C} {shared iniKey respKey : Bytes} {id : UInt64}
  {publicKey ciphertext received : Bytes} {locks : List Bytes}

/-- What both sides log until the responder has checked the identity. -/
def identityLog (C : CryptoSuite) (shared iniKey : Bytes) (id : UInt64)
    (publicKey ciphertext : Bytes) : List CryptoCall :=
  let before := kemMessages id publicKey ciphertext
  kemCalls C id publicKey ciphertext ++ identityCalls C shared iniKey before ++
    checkIdentityCalls C shared iniKey before

/-- What both sides log for the lock. -/
def lockLog (C : CryptoSuite) (shared iniKey respKey : Bytes) (id : UInt64)
    (publicKey ciphertext received : Bytes) : List CryptoCall :=
  let before := kemMessages id publicKey ciphertext
  lockCalls C shared iniKey respKey before ++
    checkLockCalls C shared iniKey respKey before received

/-- The two logs together are the logs of the two sides. -/
theorem mem_honestLogs (call : CryptoCall) :
    let before := kemMessages id publicKey ciphertext
    let calls := kemCalls C id publicKey ciphertext
    call ∈
        (calls ++ identityCalls C shared iniKey before ++
            checkLockCalls C shared iniKey respKey before received) ++
          (calls ++ checkIdentityCalls C shared iniKey before ++
            lockCalls C shared iniKey respKey before) ↔
      call ∈ identityLog C shared iniKey id publicKey ciphertext ∨
        call ∈
          lockLog C shared iniKey respKey id publicKey ciphertext
            received := by
  simp only [identityLog, lockLog, List.mem_append]
  tauto

theorem hash_mem_identityLog
    {input : Bytes}
    (member :
      .hash input ∈ identityLog C shared iniKey id publicKey ciphertext) :
    input ∈ honestInputs C shared iniKey id publicKey ciphertext locks := by
  simp only [identityLog, kemCalls, identityCalls, checkIdentityCalls,
    checkCalls, keyCalls, absorbCall, sealCall, unsealCall, List.mem_append,
    List.mem_cons, List.not_mem_nil, or_false, CryptoCall.hash.injEq,
    reduceCtorEq] at member
  simp only [honestInputs, List.mem_append, List.mem_cons, List.not_mem_nil,
    or_false]
  tauto

theorem hash_mem_lockLog
    (sentLock :
      lockedAfter C shared iniKey respKey
        (kemMessages id publicKey ciphertext) ∈ locks)
    (receivedLock : received ∈ locks) {input : Bytes}
    (member :
      .hash input ∈
        lockLog C shared iniKey respKey id publicKey ciphertext received) :
    input ∈ honestInputs C shared iniKey id publicKey ciphertext locks := by
  simp only [lockLog, lockCalls, checkLockCalls, checkCalls, keyCalls,
    absorbCall, sealCall, unsealCall, List.mem_append, List.mem_cons,
    List.not_mem_nil, or_false, CryptoCall.hash.injEq, reduceCtorEq] at member
  have lockMember :
      ∀ lock ∈ locks,
        input =
            transcriptOf C
                (kemMessages id publicKey ciphertext ++
                  [identityAfter C shared iniKey
                    (kemMessages id publicKey ciphertext)]) ++
              lock →
          input ∈
            locks.map
              (transcriptOf C
                  (kemMessages id publicKey ciphertext ++
                    [identityAfter C shared iniKey
                      (kemMessages id publicKey ciphertext)]) ++
                ·) :=
    fun lock lockIn equal => List.mem_map.mpr ⟨lock, lockIn, equal.symm⟩
  have sentMember := lockMember _ sentLock
  have receivedMember := lockMember _ receivedLock
  simp only [honestInputs, List.mem_append, List.mem_cons,
    List.not_mem_nil, or_false]
  tauto

/-- Every opening of the first part has its sealing. -/
theorem unseal_mem_identityLog
    {key nonce cipher tag : Bytes}
    (member :
      .unseal key nonce cipher tag ∈
        identityLog C shared iniKey id publicKey ciphertext) :
    ∃ plain,
      .seal key nonce plain cipher tag ∈
        identityLog C shared iniKey id publicKey ciphertext := by
  simp only [identityLog, kemCalls, identityCalls, checkIdentityCalls,
    checkCalls, keyCalls, absorbCall, sealCall, unsealCall, List.mem_append,
    List.mem_cons, List.not_mem_nil, or_false, reduceCtorEq, false_or,
    CryptoCall.unseal.injEq] at member
  obtain ⟨rfl, rfl, rfl, rfl⟩ := member
  refine ⟨plainAfter C iniKey (kemMessages id publicKey ciphertext), ?_⟩
  simp [identityLog, identityCalls, sealCall]

theorem unseal_mem_lockLog
    {key nonce cipher tag : Bytes}
    (member :
      .unseal key nonce cipher tag ∈
        lockLog C shared iniKey respKey id publicKey ciphertext received) :
    ∃ plain,
      .seal key nonce plain cipher tag ∈
        lockLog C shared iniKey respKey id publicKey ciphertext
          received := by
  simp only [lockLog, lockCalls, checkLockCalls, checkCalls, keyCalls,
    absorbCall, sealCall, unsealCall, List.mem_append, List.mem_cons,
    List.not_mem_nil, or_false, reduceCtorEq, false_or,
    CryptoCall.unseal.injEq] at member
  obtain ⟨rfl, rfl, rfl, rfl⟩ := member
  refine ⟨plainAfter C respKey
    (kemMessages id publicKey ciphertext ++
      [identityAfter C shared iniKey
        (kemMessages id publicKey ciphertext)]), ?_⟩
  simp [lockLog, lockCalls, sealCall]

end

end

/-! ## A handshake to compute with -/

def samplePublicKey : Bytes := fitTo kemPkSize [5]

def sampleCiphertext : Bytes := fitTo kemCtSize [5]

def sampleShared : Bytes :=
  sampleHash (samplePublicKey.take 32 ++ sampleCiphertext.take 32)

theorem sampleExchange :
    KemExchange sampleSuite [5] [5] samplePublicKey (fitTo kemSkSize [5])
      sampleCiphertext sampleShared where
  keypair := rfl
  encaps := rfl
  decaps := kemDecaps_sampleSuite [5] sampleCiphertext

/-- An environment with a fresh buffer. -/
def sampleEnv : HsEnv :=
  { buf := some default, coins := [5], sessionId := 77 }

def sampleSetup : HsSetup :=
  { iniSession := {}
    respSession := {}
    iniKey := ⟨List.replicate 32 1, rfl⟩
    respKey := ⟨List.replicate 32 2, rfl⟩
    sessionId := 9
    helloBuf := default
    iniSeq := 1
    respSeq := 1 }

/-- The undisturbed run of the sample parties. -/
def sampleRun : List Delivery :=
  relay sampleSuite .responder (sampleSetup.start sampleSuite)
    (List.replicate 6 sampleEnv)

def sampleBefore : List Bytes :=
  kemMessages 77 samplePublicKey sampleCiphertext

/-- The SESSION_LOCKED of the sample responder. -/
def sampleLock : Bytes :=
  lockedAfter sampleSuite sampleShared sampleSetup.iniKey.bytes
    sampleSetup.respKey.bytes sampleBefore

/-- The same message with one bit of its nonce field inverted. -/
def alteredLock : Bytes :=
  sampleLock.modify 1 (· ^^^ 1)

def sampleInputs : List Bytes :=
  honestInputs sampleSuite sampleShared sampleSetup.iniKey.bytes 77
    samplePublicKey sampleCiphertext [sampleLock, alteredLock]

/-- A number that tells the hashed strings apart. -/
def fingerprint (input : Bytes) : Nat :=
  leNat (sampleSuite.sha256 input) % 2 ^ 32

theorem sampleInputs_fingerprints :
    (sampleInputs.map fingerprint).Nodup ∧
      0 ∉ sampleInputs.map fingerprint := by
  decide +kernel

/-- The hash of the sample suite is injective on the sample inputs, so a log
of the sample parties is ideal once every opening has its sealing. -/
theorem idealCalls_sample
    {calls : List CryptoCall}
    (hashed : ∀ input, .hash input ∈ calls → input ∈ sampleInputs)
    (paired :
      ∀ key nonce cipher tag,
        .unseal key nonce cipher tag ∈ calls →
          ∃ plain, .seal key nonce plain cipher tag ∈ calls) :
    IdealCalls sampleSuite calls := by
  obtain ⟨nodup, nonzero⟩ := sampleInputs_fingerprints
  refine
    { noCollision := ?_
      noSeed := ?_
      unforgeable := fun key nonce cipher tag _ member _ =>
        paired key nonce cipher tag member }
  · intro left leftMember right rightMember equal
    refine List.inj_on_of_nodup_map nodup (hashed left leftMember)
      (hashed right rightMember) ?_
    rw [fingerprint, fingerprint, equal]
  · intro input member seed
    refine nonzero (List.mem_map.mpr ⟨input, hashed input member, ?_⟩)
    rw [fingerprint, seed]
    decide

def sampleIdentityLog : List CryptoCall :=
  identityLog sampleSuite sampleShared sampleSetup.iniKey.bytes 77
    samplePublicKey sampleCiphertext

def sampleLockLog (received : Bytes) : List CryptoCall :=
  lockLog sampleSuite sampleShared sampleSetup.iniKey.bytes
    sampleSetup.respKey.bytes 77 samplePublicKey sampleCiphertext received

theorem idealCalls_sample_identity
    {calls : List CryptoCall}
    (same : ∀ call, call ∈ calls ↔ call ∈ sampleIdentityLog) :
    IdealCalls sampleSuite calls := by
  apply idealCalls_sample
  · intro input member
    exact hash_mem_identityLog ((same _).mp member)
  · intro key nonce cipher tag member
    obtain ⟨plain, sealed⟩ := unseal_mem_identityLog ((same _).mp member)
    exact ⟨plain, (same _).mpr sealed⟩

theorem idealCalls_sample_lock
    {received : Bytes} (known : received ∈ [sampleLock, alteredLock])
    {calls : List CryptoCall}
    (same :
      ∀ call,
        call ∈ calls ↔
          call ∈ sampleIdentityLog ∨ call ∈ sampleLockLog received) :
    IdealCalls sampleSuite calls := by
  apply idealCalls_sample
  · intro input member
    rcases (same _).mp member with early | late
    · exact hash_mem_identityLog early
    · exact hash_mem_lockLog List.mem_cons_self known late
  · intro key nonce cipher tag member
    rcases (same _).mp member with early | late
    · obtain ⟨plain, sealed⟩ := unseal_mem_identityLog early
      exact ⟨plain, (same _).mpr (Or.inl sealed)⟩
    · obtain ⟨plain, sealed⟩ := unseal_mem_lockLog late
      exact ⟨plain, (same _).mpr (Or.inr sealed)⟩

/-- The sample run ends as every undisturbed run does. -/
theorem sampleRun_ends :
    let calls := kemCalls sampleSuite 77 samplePublicKey sampleCiphertext
    let iniKey := sampleSetup.iniKey.bytes
    let respKey := sampleSetup.respKey.bytes
    let absorbed :=
      sampleBefore ++
          [identityAfter sampleSuite sampleShared iniKey sampleBefore] ++
        [sampleLock]
    let w := (sampleSetup.start sampleSuite).run sampleSuite sampleRun
    HonestEnd sampleSuite w.ini iniKey respKey .initiator sampleShared 77
        absorbed
        (calls ++
            identityCalls sampleSuite sampleShared iniKey sampleBefore ++
          checkLockCalls sampleSuite sampleShared iniKey respKey
            sampleBefore sampleLock) ∧
      HonestEnd sampleSuite w.resp respKey iniKey .responder sampleShared 77
        absorbed
        (calls ++
            checkIdentityCalls sampleSuite sampleShared iniKey
              sampleBefore ++
          lockCalls sampleSuite sampleShared iniKey respKey sampleBefore) :=
  have pool : sampleEnv.buf = some default := rfl
  handshake_undisturbed aeadInverts_sampleSuite sampleSetup pool pool pool
    pool pool sampleExchange sampleEnv

theorem handshake_completes_sampleRun :
    Agreed ((sampleSetup.start sampleSuite).run sampleSuite sampleRun).ini
      ((sampleSetup.start sampleSuite).run sampleSuite sampleRun).resp :=
  handshake_completes sampleSuite aeadInverts_sampleSuite sampleSetup
    sampleEnv sampleEnv sampleEnv sampleEnv sampleEnv sampleEnv
    (by simp [sampleEnv]) samplePublicKey (fitTo kemSkSize [5])
    sampleCiphertext sampleShared sampleExchange

theorem sampleRun_ideal :
    IdealCalls sampleSuite
      ((sampleSetup.start sampleSuite).run sampleSuite sampleRun).calls := by
  rw [HsWorld.calls, sampleRun_ends.1.stands.calls,
    sampleRun_ends.2.stands.calls]
  exact idealCalls_sample_lock List.mem_cons_self mem_honestLogs

end PqComm
