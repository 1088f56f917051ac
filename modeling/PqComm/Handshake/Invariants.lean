import PqComm.Handshake.Runs

/-!
# Invariants of the two sides of a handshake

What holds of an initiator and of a responder after any number of deliveries,
genuine or not.  A side seals at most one proof in its life, it seals it with
its own label, the packet it emits carries that proof and nothing else of that
kind, and it locks only on a transcript that ends in the lock proof.
-/

namespace PqComm

open Lib

section

variable (C : CryptoSuite)

/-! ## Sealing a proof -/

@[simp]
theorem length_proofNonce (key : Bytes) : (proofNonce C key).length = 12 := by
  simp [proofNonce, C.length_sha256]

@[simp]
theorem opcodeOf_cons (opcode : UInt8) (rest : Bytes) :
    opcodeOf (opcode :: rest) = opcode :=
  rfl

/-- The ciphertext and the tag of the proof a session would seal. -/
def proofSealed (s : Session) (label : Bytes) : Bytes × Bytes :=
  let key := proofKey C label s.hs.kemSharedSecret s.hs.transcriptHash
  C.aeadSeal key (proofNonce C key) [] (proofPlain C s)

/-- The proof message a session would build. -/
def builtProof (s : Session) (opcode : UInt8) (label : Bytes) : Bytes :=
  let key := proofKey C label s.hs.kemSharedSecret s.hs.transcriptHash
  proofPayload opcode (proofNonce C key) (proofSealed C s label).1
    (proofSealed C s label).2

/-- The calls that building a proof adds to the log. -/
def proofCalls (s : Session) (label : Bytes) : List CryptoCall :=
  let key := proofKey C label s.hs.kemSharedSecret s.hs.transcriptHash
  [.hash (proofKeyInput label s.hs.kemSharedSecret s.hs.transcriptHash),
    .hash (labelNonce ++ key),
    .seal key (proofNonce C key) (proofPlain C s) (proofSealed C s label).1
      (proofSealed C s label).2]

theorem length_proofPlain {s : Session} (chained : Chained C s) :
    (proofPlain C s).length = 64 := by
  simp [proofPlain, chained.identity, C.length_hmacSha256]

theorem length_proofSealed
    {s : Session} (chained : Chained C s) (label : Bytes) :
    (proofSealed C s label).1.length = 64 ∧
      (proofSealed C s label).2.length = 16 := by
  have lengths := C.length_aeadSeal
    (proofKey C label s.hs.kemSharedSecret s.hs.transcriptHash)
    (proofNonce C
      (proofKey C label s.hs.kemSharedSecret s.hs.transcriptHash)) []
    (proofPlain C s)
  rw [length_proofPlain C chained] at lengths
  exact lengths

theorem length_proofPayload
    {nonce cipher tag : Bytes} (opcode : UInt8)
    (nonceLength : nonce.length = 12) (cipherLength : cipher.length = 64)
    (tagLength : tag.length = 16) :
    (proofPayload opcode nonce cipher tag).length = 93 := by
  simp [proofPayload, nonceLength, cipherLength, tagLength]

/-- With an identity key of 32 bytes a proof is always sealed. -/
theorem handshakeBuildProof_eq
    {s : Session} (chained : Chained C s) (opcode : UInt8) (label : Bytes)
    (buf : PacketBuf) (seq : UInt32) :
    handshakeBuildProof C s opcode label buf seq =
      { sess :=
          updateTranscript C (s.log (proofCalls C s label))
            (builtProof C s opcode label)
        seq := seq + 1
        out :=
          some
            (buildPacket buf true 0 s.sessionId chControl seq
              (builtProof C s opcode label)) } := by
  have room : ¬ (proofPlain C s).length + aeadTagSize > maxPacketSize := by
    rw [length_proofPlain C chained]
    decide
  simp only [handshakeBuildProof, deriveIdProofKey, aeadEncrypt, room,
    if_false]
  rfl

/-- The keys of a session, without the epoch. -/
def Session.material (s : Session) : Bytes × List Bytes :=
  (s.keys.sessionKey, s.keys.channelKeys)

/-- The session `lockSession` leaves. -/
def lockedSession (s : Session) : Session :=
  s.lockWith
    (sessionKeyMaterial C s.hs.kemSharedSecret s.hs.transcriptHash)

/-- With a secret of 32 bytes a session always locks. -/
theorem lockSession_eq {s : Session} (chained : Chained C s) :
    lockSession C s = some (lockedSession C s) := by
  have secret : s.hs.kemSharedSecret.length ≠ 0 := by
    rw [chained.secret]
    decide
  have transcript : s.hs.transcriptHash.length ≠ 0 := by
    rw [chained.transcript, length_transcriptOf]
    decide
  rw [lockSession, deriveSessionKeys_eq C secret transcript]
  rfl

theorem chained_lockedSession {s : Session} (chained : Chained C s) :
    Chained C (lockedSession C s) where
  secret := length_zeros 32
  identity := chained.identity
  transcript := chained.transcript
  logged := chained.logged

/-! ## What the log of a side holds -/

/-- A proof sealed with `label`: its key was hashed, and the message that
carries it was sent. -/
def SealedProof (label : Bytes) (opcode : UInt8) (calls : List CryptoCall)
    (sent : List Bytes) (call : CryptoCall) : Prop :=
  ∃ secret transcript plain cipher tag,
    secret.length = 32 ∧ transcript.length = 32 ∧
      cipher.length = 64 ∧ tag.length = 16 ∧
      call =
        .seal (proofKey C label secret transcript)
          (proofNonce C (proofKey C label secret transcript)) plain cipher
          tag ∧
      .hash (proofKeyInput label secret transcript) ∈ calls ∧
      proofPayload opcode
          (proofNonce C (proofKey C label secret transcript)) cipher tag ∈
        sent

/-- The log and the sent messages of a side that proves itself with `label`
in messages of kind `opcode`. -/
structure PartyLog (label : Bytes) (opcode : UInt8) (s : Session)
    (sent : List Bytes) : Prop where
  chained : Chained C s
  sealed :
    ∀ call ∈ s.seals,
      SealedProof C label opcode s.history.calls sent call
  once : s.seals.length ≤ 1
  proofs :
    ∀ msg ∈ sent, opcodeOf msg = opcode →
      ∃ key nonce plain cipher tag,
        .seal key nonce plain cipher tag ∈ s.seals ∧
          msg = proofPayload opcode nonce cipher tag

/-- A step that seals nothing and sends no proof keeps the log. -/
theorem PartyLog.extend
    {label : Bytes} {opcode : UInt8} {s s' : Session}
    {sent new : List Bytes} (log : PartyLog C label opcode s sent)
    (chained : Chained C s') (logs : LogsWithoutSeal s s')
    (noProof : ∀ msg ∈ new, opcodeOf msg ≠ opcode) :
    PartyLog C label opcode s' (sent ++ new) where
  chained := chained
  sealed := by
    intro call member
    rw [logs.seals] at member
    obtain ⟨secret, transcript, plain, cipher, tag, secretSize,
      transcriptSize, cipherSize, tagSize, equal, hashed, wasSent⟩ :=
      log.sealed call member
    exact ⟨secret, transcript, plain, cipher, tag, secretSize,
      transcriptSize, cipherSize, tagSize, equal, logs.keeps hashed,
      List.mem_append_left new wasSent⟩
  once := by
    rw [logs.seals]
    exact log.once
  proofs := by
    intro msg member opcodeEq
    rw [logs.seals]
    rcases List.mem_append.mp member with old | added
    · exact log.proofs msg old opcodeEq
    · exact absurd opcodeEq (noProof msg added)

/-- The session after a proof was built, before it changes state. -/
def afterProof (s : Session) (opcode : UInt8) (label : Bytes) : Session :=
  updateTranscript C (s.log (proofCalls C s label))
    (builtProof C s opcode label)

theorem chained_afterProof
    {s : Session} (chained : Chained C s) (opcode : UInt8) (label : Bytes) :
    Chained C (afterProof C s opcode label) := by
  apply Chained.updateTranscript
  exact
    { secret := chained.secret
      identity := chained.identity
      transcript := chained.transcript
      logged := fun input member =>
        List.mem_append_left _ (chained.logged input member) }

theorem seals_afterProof
    {s : Session} (opcode : UInt8) (label : Bytes) (none : s.seals = []) :
    (afterProof C s opcode label).seals =
      [.seal (proofKey C label s.hs.kemSharedSecret s.hs.transcriptHash)
        (proofNonce C
          (proofKey C label s.hs.kemSharedSecret s.hs.transcriptHash))
        (proofPlain C s) (proofSealed C s label).1
        (proofSealed C s label).2] := by
  have old : s.history.calls.filter CryptoCall.isSeal = [] := none
  rw [afterProof, seals_updateTranscript, Session.seals]
  simp [Session.log, proofCalls, old, CryptoCall.isSeal]

/-- A side that has sealed nothing yet seals and sends its proof. -/
theorem PartyLog.prove
    {label : Bytes} {opcode : UInt8} {s : Session} {sent : List Bytes}
    (log : PartyLog C label opcode s sent) (none : s.seals = []) :
    PartyLog C label opcode (afterProof C s opcode label)
      (sent ++ [builtProof C s opcode label]) where
  chained := chained_afterProof C log.chained opcode label
  sealed := by
    intro call member
    rw [seals_afterProof C opcode label none] at member
    have sizes := length_proofSealed C log.chained label
    refine ⟨s.hs.kemSharedSecret, s.hs.transcriptHash, proofPlain C s, _, _,
      log.chained.secret, ?_, sizes.1, sizes.2, List.mem_singleton.mp member,
      ?_, List.mem_append_right sent (List.mem_singleton.mpr rfl)⟩
    · rw [log.chained.transcript, length_transcriptOf]
    · simp [afterProof, updateTranscript, Session.log, proofCalls]
  once := by
    rw [seals_afterProof C opcode label none]
    exact Nat.le_refl 1
  proofs := by
    intro msg member opcodeEq
    rw [seals_afterProof C opcode label none]
    rcases List.mem_append.mp member with old | added
    · obtain ⟨_, _, _, _, _, sealed, _⟩ := log.proofs msg old opcodeEq
      rw [none] at sealed
      cases sealed
    · exact ⟨_, _, _, _, _, List.mem_singleton.mpr rfl,
        List.mem_singleton.mp added⟩

/-! ## The session identifier -/

/-- The identifier of the last complete ACCEPT among the messages. -/
def acceptedId (msgs : List Bytes) : Option UInt64 :=
  msgs.foldl
    (fun known msg =>
      if opcodeOf msg = ctrlAccept ∧ 9 ≤ msg.length then
        some (UInt64.ofNat (leNat ((msg.drop 1).take 8)))
      else
        known) none

theorem acceptedId_concat (msgs : List Bytes) (msg : Bytes) :
    acceptedId (msgs ++ [msg]) =
      if opcodeOf msg = ctrlAccept ∧ 9 ≤ msg.length then
        some (UInt64.ofNat (leNat ((msg.drop 1).take 8)))
      else
        acceptedId msgs := by
  simp [acceptedId]

theorem acceptedId_skip
    (msgs : List Bytes) {msg : Bytes} (other : opcodeOf msg ≠ ctrlAccept) :
    acceptedId (msgs ++ [msg]) = acceptedId msgs := by
  rw [acceptedId_concat, if_neg (fun both => other both.1)]

theorem acceptedId_acceptPayload (msgs : List Bytes) (id : UInt64) :
    acceptedId (msgs ++ [acceptPayload id]) = some id := by
  have long : 9 ≤ (acceptPayload id).length := by
    simp [acceptPayload]
  have bytes : ((acceptPayload id).drop 1).take 8 = leBytes 8 id.toNat := by
    exact List.take_of_length_le (Nat.le_of_eq (length_leBytes 8 _))
  rw [acceptedId_concat, if_pos ⟨rfl, long⟩, bytes,
    uint64_leNat_leBytes]

/-- If a complete ACCEPT is among the messages, some identifier is known. -/
theorem acceptedId_isSome
    {msgs : List Bytes} {msg : Bytes} (member : msg ∈ msgs)
    (opcode : opcodeOf msg = ctrlAccept) (long : 9 ≤ msg.length) :
    ∃ id, acceptedId msgs = some id := by
  induction msgs using List.reverseRecOn with
  | nil =>
      cases member
  | append_singleton msgs last inductionHypothesis =>
      rw [acceptedId_concat]
      split
      · exact ⟨_, rfl⟩
      · rename_i notAccept
        rcases List.mem_append.mp member with old | new
        · exact inductionHypothesis old
        · rw [List.mem_singleton.mp new] at opcode long
          exact absurd ⟨opcode, long⟩ notAccept

/-! ## Phases -/

/-- The key of the lock proof over the transcript of `before`. -/
def lockKey (secret : Bytes) (before : List Bytes) : Bytes :=
  proofKey C labelLockProof secret (transcriptOf C before)

/-- A session that locked when `msg` followed `before`, on secret `secret`. -/
structure LockedAfter (s : Session) (secret : Bytes) (before : List Bytes)
    (msg : Bytes) : Prop where
  size : secret.length = 32
  absorbed : s.history.absorbed = before ++ [msg]
  hashed :
    .hash (proofKeyInput labelLockProof secret (transcriptOf C before)) ∈
      s.history.calls
  material : s.material = sessionKeyMaterial C secret s.hs.transcriptHash

/-- An initiator that locked on the SESSION_LOCKED `msg`: it had seen an
ACCEPT, and it opened the proof that `msg` carries. -/
structure InitiatorLocked (s : Session) (secret : Bytes)
    (before : List Bytes) (msg : Bytes) : Prop where
  accepted : ∃ old ∈ s.history.absorbed, opcodeOf old = ctrlAccept
  after : LockedAfter C s secret before msg
  opcode : opcodeOf msg = ctrlSessionLocked
  long : 93 ≤ msg.length
  unsealed :
    .unseal (lockKey C secret before)
        (proofNonce C (lockKey C secret before))
        ((msg.drop 13).take 64) ((msg.drop 77).take 16) ∈
      s.history.calls
  opened :
    ∃ plain,
      aeadDecrypt C (lockKey C secret before)
        (proofNonce C (lockKey C secret before)) []
        ((msg.drop 13).take 64) ((msg.drop 77).take 16) = some plain

/-- Where an initiator can be. -/
inductive InitiatorPhase (s : Session) : Prop where
  | start
      (role : s.role = .initiator) (state : s.state = .handshakeStart)
      (fresh : s.seals = [])
  | kemSent
      (role : s.role = .initiator) (state : s.state = .pqKemInitSent)
      (fresh : s.seals = [])
      (accepted : ∃ msg ∈ s.history.absorbed, opcodeOf msg = ctrlAccept)
  | proved
      (role : s.role = .initiator) (state : s.state = .identityProofSent)
      (accepted : ∃ msg ∈ s.history.absorbed, opcodeOf msg = ctrlAccept)
  | locked
      (role : s.role = .initiator) (state : s.state = .locked)
      (secret : Bytes) (before : List Bytes) (msg : Bytes)
      (held : InitiatorLocked C s secret before msg)
  | reset
      (role : s.role = .unassigned) (state : s.state = .idle)

/-- Where a responder can be. -/
inductive ResponderPhase (s : Session) : Prop where
  | start
      (role : s.role = .responder) (state : s.state = .handshakeStart)
      (fresh : s.seals = [])
  | kemSent
      (role : s.role = .responder) (state : s.state = .pqKemResponseSent)
      (fresh : s.seals = [])
  | locked
      (role : s.role = .responder) (state : s.state = .locked)
      (secret : Bytes) (before : List Bytes) (plain cipher tag : Bytes)
      (after :
        LockedAfter C s secret before
          (proofPayload ctrlSessionLocked
            (proofNonce C (lockKey C secret before)) cipher tag))
      (only :
        s.seals =
          [.seal (lockKey C secret before)
            (proofNonce C (lockKey C secret before)) plain cipher tag])
  | reset
      (role : s.role = .unassigned) (state : s.state = .idle)

structure InitiatorInv (s : Session) (sent : List Bytes) : Prop where
  log : PartyLog C labelIdProof ctrlIdentityProof s sent
  opcodes :
    ∀ msg ∈ sent, opcodeOf msg ∈ [ctrlHello, ctrlPqKemInit, ctrlIdentityProof]
  adopted :
    ∀ id, acceptedId s.history.absorbed = some id → s.sessionId = id
  phase : InitiatorPhase C s

structure ResponderInv (s : Session) (sent : List Bytes) : Prop where
  log : PartyLog C labelLockProof ctrlSessionLocked s sent
  opcodes :
    ∀ msg ∈ sent,
      opcodeOf msg ∈ [ctrlAccept, ctrlPqKemResponse, ctrlSessionLocked]
  accepts : ∀ msg ∈ sent, opcodeOf msg = ctrlAccept → msg.length = 9
  adopted :
    ∀ id, acceptedId s.history.absorbed = some id → s.sessionId = id
  phase : ResponderPhase C s

/-! ## Where the two sides start -/

theorem chained_start_initiator (setup : HsSetup) :
    Chained C (setup.start C).ini := by
  have initial :
      Chained C
        { handshakeInitInitiator setup.iniSession setup.iniKey
            setup.sessionId with history := {} } :=
    { secret := length_zeros 32
      identity := setup.iniKey.length_bytes
      transcript := rfl
      logged := fun input member => by cases member }
  exact initial.updateTranscript C [ctrlHello]

theorem chained_start_responder (setup : HsSetup) :
    Chained C (setup.start C).resp where
  secret := length_zeros 32
  identity := setup.respKey.length_bytes
  transcript := rfl
  logged := fun input member => by cases member

/-! ## Ideal primitives -/

/-- The calls of both sides. -/
def HsWorld.calls (w : HsWorld) : List CryptoCall :=
  w.ini.history.calls ++ w.resp.history.calls

/-- The primitives behaved ideally in `calls`: no two hashed strings collide,
none of them hashes to the zero seed of the transcript, and what was opened
was sealed under the same key and nonce. -/
structure IdealCalls (calls : List CryptoCall) : Prop where
  noCollision : Set.InjOn C.sha256 { input | .hash input ∈ calls }
  noSeed : ∀ input, .hash input ∈ calls → C.sha256 input ≠ zeros 32
  unforgeable :
    ∀ key nonce cipher tag plain,
      .unseal key nonce cipher tag ∈ calls →
        aeadDecrypt C key nonce [] cipher tag = some plain →
          ∃ original, .seal key nonce original cipher tag ∈ calls

end

end PqComm
