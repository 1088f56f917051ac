import PqComm.Handshake.Agreement

/-!
# What binds a proof message

A proof that verifies carries a ciphertext and a tag that the peer sealed.
The other fields are not authenticated: the receiver derives the nonce again
instead of reading it, and takes any length from 93 bytes on.  So the accepted
message is the one the peer built exactly when these two are as the builder
leaves them, and only then do the two transcripts stay together.
-/

namespace PqComm

open Lib

section

variable (C : CryptoSuite)

/-- `msg` has the length of a proof message, and its nonce field is the nonce
that `derive_id_proof_key` makes from the secret and the transcript of `s`. -/
def NonceBound (s : Session) (label msg : Bytes) : Prop :=
  msg.length = proofLength ∧
    (msg.drop 1).take 12 =
      proofNonce C
        (proofKey C label s.hs.kemSharedSecret s.hs.transcriptHash)

instance (s : Session) (label msg : Bytes) :
    Decidable (NonceBound C s label msg) :=
  inferInstanceAs (Decidable (_ ∧ _))

/-- A proof that `receiver` opened, with the calls it had made by then. -/
structure OpenedProof (receiver : Session) (label msg : Bytes)
    (calls : List CryptoCall) : Prop where
  hashed :
    .hash (proofKeyInput label receiver.hs.kemSharedSecret
        receiver.hs.transcriptHash) ∈ calls
  unsealed :
    .unseal
        (proofKey C label receiver.hs.kemSharedSecret
          receiver.hs.transcriptHash)
        (proofNonce C
          (proofKey C label receiver.hs.kemSharedSecret
            receiver.hs.transcriptHash))
        ((msg.drop 13).take 64) ((msg.drop 77).take 16) ∈ calls
  opened :
    ∃ plain,
      aeadDecrypt C
        (proofKey C label receiver.hs.kemSharedSecret
          receiver.hs.transcriptHash)
        (proofNonce C
          (proofKey C label receiver.hs.kemSharedSecret
            receiver.hs.transcriptHash)) []
        ((msg.drop 13).take 64) ((msg.drop 77).take 16) = some plain

theorem openedProof_of_verified
    {s : Session} {label msg : Bytes}
    (verified :
      (verifyProof C (updateTranscript C s msg) label s.hs.transcriptHash
        msg).2 = true) :
    OpenedProof C s label msg
      (verifyProof C (updateTranscript C s msg) label s.hs.transcriptHash
        msg).1.history.calls := by
  have checked := verifyProof_checked C (updateTranscript C s msg) label
    s.hs.transcriptHash msg
  have opened := verifyProof_opened C verified
  refine ⟨?_, ?_, opened⟩
  · rw [checked.calls]
    exact List.mem_append_right _ List.mem_cons_self
  · rw [checked.calls]
    exact List.mem_append_right _ (List.mem_cons_of_mem _
      (List.mem_cons_of_mem _ List.mem_cons_self))

/-- A message of 93 bytes is put together from its fields. -/
theorem proofPayload_of_slices
    {msg : Bytes} (length : msg.length = 93) :
    proofPayload (opcodeOf msg) ((msg.drop 1).take 12)
        ((msg.drop 13).take 64) ((msg.drop 77).take 16) = msg := by
  have front : opcodeOf msg :: msg.drop 1 = msg := by
    cases msg with
    | nil => simp at length
    | cons head rest => rfl
  have nonce : msg.drop 1 = (msg.drop 1).take 12 ++ msg.drop 13 := by
    conv_lhs => rw [← List.take_append_drop 12 (msg.drop 1)]
    rw [List.drop_drop]
  have cipher : msg.drop 13 = (msg.drop 13).take 64 ++ msg.drop 77 := by
    conv_lhs => rw [← List.take_append_drop 64 (msg.drop 13)]
    rw [List.drop_drop]
  have tag : (msg.drop 77).take 16 = msg.drop 77 :=
    List.take_of_length_le (by simp [length])
  rw [proofPayload, tag, List.cons_append, ← cipher, ← nonce, front]

/-- If the receiver seals with another label only, the proof it opened was
sent by the peer, up to the fields that are not authenticated. -/
theorem opened_was_sent
    {sender receiver after : Session} {label other msg : Bytes}
    {opcode : UInt8} {sent : List Bytes}
    (own : PartyLog C other opcode receiver sent)
    (logs : LogsWithoutSeal receiver after)
    (labels :
      ∀ secret transcript secret' transcript',
        proofKeyInput label secret transcript ≠
          proofKeyInput other secret' transcript')
    (opening : OpenedProof C receiver label msg after.history.calls)
    (ideal :
      IdealCalls C (sender.history.calls ++ after.history.calls)) :
    ∃ plain,
      .seal
          (proofKey C label receiver.hs.kemSharedSecret
            receiver.hs.transcriptHash)
          (proofNonce C
            (proofKey C label receiver.hs.kemSharedSecret
              receiver.hs.transcriptHash)) plain
          ((msg.drop 13).take 64) ((msg.drop 77).take 16) ∈
        sender.seals := by
  obtain ⟨plain, opened⟩ := opening.opened
  obtain ⟨original, sealed⟩ := ideal.unforgeable _ _ _ _ _
    (List.mem_append_right _ opening.unsealed) opened
  rcases List.mem_append.mp sealed with bySender | byReceiver
  · exact ⟨original, mem_seals.mpr bySender⟩
  · rw [← mem_seals, logs.seals] at byReceiver
    obtain ⟨_, _, _, _, _, _, _, _, _, equal, hashed, _⟩ :=
      own.sealed _ byReceiver
    injection equal with sameKey
    have inputs := ideal.noCollision
      (List.mem_append_right _ opening.hashed)
      (List.mem_append_right _ (logs.keeps hashed)) sameKey
    exact absurd inputs (labels _ _ _ _)

/-- The opened message is one the peer sent exactly when its unauthenticated
fields are as they should be. -/
theorem mem_sent_iff_nonceBound
    {sender receiver : Session} {label msg plain : Bytes} {opcode : UInt8}
    {sent : List Bytes} (log : PartyLog C label opcode sender sent)
    (kind : opcodeOf msg = opcode)
    (sealed :
      .seal
          (proofKey C label receiver.hs.kemSharedSecret
            receiver.hs.transcriptHash)
          (proofNonce C
            (proofKey C label receiver.hs.kemSharedSecret
              receiver.hs.transcriptHash)) plain
          ((msg.drop 13).take 64) ((msg.drop 77).take 16) ∈
        sender.seals) :
    msg ∈ sent ↔ NonceBound C receiver label msg := by
  obtain ⟨_, _, _, _, _, _, _, cipherLength, tagLength, equal, _, carried⟩ :=
    log.sealed _ sealed
  injection equal with sameKey sameNonce _ sameCipher sameTag
  rw [← sameNonce, ← sameCipher, ← sameTag] at carried
  rw [← sameCipher] at cipherLength
  rw [← sameTag] at tagLength
  constructor
  · intro member
    obtain ⟨_, _, _, _, _, own, built⟩ := log.proofs msg member kind
    obtain ⟨only, seals⟩ : ∃ call, sender.seals = [call] :=
      List.length_eq_one_iff.mp
        (Nat.le_antisymm log.once (List.length_pos_of_mem sealed))
    rw [seals, List.mem_singleton] at own sealed
    rw [← sealed] at own
    injection own with _ ownNonce _ ownCipher ownTag
    rw [ownNonce, ownCipher, ownTag] at built
    have length := length_proofPayload opcode
      (length_proofNonce C
        (proofKey C label receiver.hs.kemSharedSecret
          receiver.hs.transcriptHash)) cipherLength tagLength
    refine ⟨by rw [built]; exact length, ?_⟩
    rw [built, proofPayload, List.cons_append, List.drop_one,
      List.tail_cons, List.take_left' (length_proofNonce C _)]
  · rintro ⟨length, nonce⟩
    have whole := proofPayload_of_slices length
    rw [nonce, kind] at whole
    rw [← whole]
    exact carried

/-! ## Reachable pairs -/

/-- A responder that accepts a message still has its role, and is not in the
state that only an initiator reaches. -/
theorem ResponderPhase.of_accepted
    {s : Session} {msg : Bytes} (phase : ResponderPhase C s)
    (accepted : (processPayload C s msg).2 ≠ .error) :
    s.role = .responder ∧ s.state ≠ .identityProofSent := by
  cases phase with
  | start role state _ =>
      exact ⟨role, by simp [state]⟩
  | kemSent role state _ =>
      exact ⟨role, by simp [state]⟩
  | locked role state _ _ _ _ _ _ _ =>
      exact ⟨role, by simp [state]⟩
  | reset role state =>
      exact absurd (processPayload_unassigned C role state msg) accepted

/-- An IDENTITY_PROOF that the responder accepts. -/
theorem identity_mem_sent_iff
    {w : HsWorld} (inv : WorldInv C w) {msg : Bytes}
    (opcode : opcodeOf msg = ctrlIdentityProof)
    (accepted : (processPayload C w.resp msg).2 ≠ .error)
    (ideal :
      IdealCalls C
        (w.ini.history.calls ++
          (processPayload C w.resp msg).1.history.calls)) :
    msg ∈ payloadsOf w.iniSent ↔ NonceBound C w.resp labelIdProof msg := by
  obtain ⟨role, other⟩ := inv.resp.phase.of_accepted C accepted
  have logs := logsWithoutSeal_processPayload C w.resp msg
  have accepts := processPayload_responder C role accepted
  generalize processPayload C w.resp msg = result at accepts logs ideal
  cases accepts with
  | hello kind _ =>
      exact absurd (opcode.symm.trans kind) (by decide)
  | kemInit kind _ =>
      exact absurd (opcode.symm.trans kind) (by decide)
  | locked state =>
      exact absurd state other
  | identity _ _ long verified =>
      obtain ⟨plain, sealed⟩ := opened_was_sent C inv.resp.log logs
        proofKeyInput_labels_ne (openedProof_of_verified C verified) ideal
      exact mem_sent_iff_nonceBound C inv.ini.log opcode sealed

/-- A SESSION_LOCKED that the initiator accepts. -/
theorem locked_mem_sent_iff
    {w : HsWorld} (inv : WorldInv C w) {msg : Bytes}
    (opcode : opcodeOf msg = ctrlSessionLocked)
    (accepted : (processPayload C w.ini msg).2 ≠ .error)
    (ideal :
      IdealCalls C
        (w.resp.history.calls ++
          (processPayload C w.ini msg).1.history.calls)) :
    msg ∈ payloadsOf w.respSent ↔ NonceBound C w.ini labelLockProof msg := by
  obtain ⟨role, other⟩ := inv.ini.phase.of_accepted C accepted
  have logs := logsWithoutSeal_processPayload C w.ini msg
  have accepts := processPayload_initiator C role accepted
  generalize processPayload C w.ini msg = result at accepts logs ideal
  cases accepts with
  | accept kind _ _ _ _ =>
      exact absurd (opcode.symm.trans kind) (by decide)
  | kemResponse kind _ _ _ =>
      exact absurd (opcode.symm.trans kind) (by decide)
  | identity state =>
      exact absurd state other
  | locked _ _ long verified s' derived =>
      have opening := openedProof_of_verified C verified
      obtain ⟨material, _, rfl⟩ := Option.map_eq_some_iff.mp derived
      obtain ⟨plain, sealed⟩ := opened_was_sent C inv.ini.log logs
        (fun _ _ _ _ => (proofKeyInput_labels_ne _ _ _ _).symm) opening ideal
      exact mem_sent_iff_nonceBound C inv.resp.log opcode sealed

/-! ## Runs -/

/-- Every SESSION_LOCKED that the initiator accepts in the run has its
unauthenticated fields as they should be. -/
def LocksBound (w : HsWorld) : List Delivery → Prop
  | [] => True
  | d :: rest =>
      (d.party = .initiator →
          ∀ v ∈ packetParse d.packet,
            opcodeOf v.payloadBytes = ctrlSessionLocked →
              (handshakeProcessMessage C w.ini v).2 ≠ .error →
                NonceBound C w.ini labelLockProof v.payloadBytes) ∧
        LocksBound (w.step C d) rest

instance decidableLocksBound (w : HsWorld) :
    (ds : List Delivery) → Decidable (LocksBound C w ds)
  | [] => inferInstanceAs (Decidable True)
  | d :: rest =>
      have := decidableLocksBound (w.step C d) rest
      inferInstanceAs (Decidable (_ ∧ _))

/-- If the initiator is locked, its lock message had its fields in order. -/
def BoundLock (s : Session) : Prop :=
  s.state = .locked →
    ∃ secret before msg,
      InitiatorLocked C s secret before msg ∧ msg.length = proofLength ∧
        (msg.drop 1).take 12 = proofNonce C (lockKey C secret before)

theorem initiatorReply_not_locked
    {s : Session} (unlocked : s.state ≠ .locked) (env : HsEnv)
    (opcode : UInt8) (seq : UInt32) :
    (initiatorReply C env s opcode seq).sess.state ≠ .locked := by
  unfold initiatorReply
  cases env.buf with
  | none =>
      exact unlocked
  | some buf =>
      dsimp only
      split
      · unfold handshakeBuildKemInit
        split
        · exact unlocked
        · cases C.kemKeypair env.coins with
          | none => exact unlocked
          | some pair => simp
      · split
        · unfold handshakeBuildIdentity handshakeBuildProof
          dsimp only
          cases aeadEncrypt C _ _ [] (proofPlain C s) with
          | none => exact unlocked
          | some sealed => simp [handshakeEmit]
        · exact unlocked

theorem BoundLock.feed
    {s : Session} {sent : List Bytes} {msg : Bytes}
    (inv : InitiatorInv C s sent)
    (bound :
      opcodeOf msg = ctrlSessionLocked →
        (processPayload C s msg).2 ≠ .error →
          NonceBound C s labelLockProof msg)
    (env : HsEnv) (seq : UInt32) :
    BoundLock C (feed C (initiatorReply C) env s msg seq).sess := by
  intro locked
  by_cases failed : (processPayload C s msg).2 = .error
  · simp [PqComm.feed, failed] at locked
  obtain ⟨role, other⟩ := inv.phase.of_accepted C failed
  have accepts := processPayload_initiator C role failed
  unfold PqComm.feed at locked ⊢
  dsimp only at locked ⊢
  have kept := bound
  generalize processPayload C s msg = result at accepts locked ⊢
  cases accepts with
  | accept _ state _ _ _ =>
      refine absurd locked (initiatorReply_not_locked C ?_ env _ seq)
      simp [updateTranscript, state]
  | kemResponse _ state _ _ =>
      refine absurd locked (initiatorReply_not_locked C ?_ env _ seq)
      simp [updateTranscript, state]
  | identity state =>
      exact absurd state other
  | locked opcode state long verified s' derived =>
      have accepted := inv.accepted C role state
      obtain ⟨length, nonce⟩ := kept opcode failed
      refine ⟨_, _, msg, initiatorLocked_of_verified C inv accepted opcode
        long verified derived, length, ?_⟩
      rw [nonce, lockKey, inv.log.chained.transcript]

theorem BoundLock.run
    {w : HsWorld} (inv : WorldInv C w) (bound : BoundLock C w.ini)
    (ds : List Delivery) (locks : LocksBound C w ds) :
    BoundLock C (w.run C ds).ini := by
  induction ds generalizing w with
  | nil =>
      exact bound
  | cons d rest inductionHypothesis =>
      refine inductionHypothesis (inv.step C d) ?_ locks.2
      have first := locks.1
      unfold HsWorld.step
      cases party : d.party with
      | responder =>
          exact bound
      | initiator =>
          simp only [handshakeRunAsInitiator, handshakeRun_eq]
          cases parsed : packetParse d.packet with
          | none =>
              exact bound
          | some v =>
              refine BoundLock.feed C inv.ini ?_ d.env w.iniSeq
              intro opcode accepted
              rw [← handshakeProcessMessage_eq] at accepted
              exact first party v parsed opcode accepted

/-- An accepted proof message is one the peer built exactly when its length
and its nonce field are as `derive_id_proof_key` makes them, in every
reachable pair of sessions.  In runs where every accepted SESSION_LOCKED is
so, sides that are both locked hold the same keys. -/
theorem proofMessages_bound_iff (setup : HsSetup) (ds : List Delivery) :
    let w := (setup.start C).run C ds
    (∀ v : PacketView,
        opcodeOf v.payloadBytes = ctrlIdentityProof →
        (handshakeProcessMessage C w.resp v).2 ≠ .error →
        IdealCalls C
            (w.ini.history.calls ++
              (handshakeProcessMessage C w.resp v).1.history.calls) →
          (v.payloadBytes ∈ payloadsOf w.iniSent ↔
            NonceBound C w.resp labelIdProof v.payloadBytes)) ∧
      (∀ v : PacketView,
        opcodeOf v.payloadBytes = ctrlSessionLocked →
        (handshakeProcessMessage C w.ini v).2 ≠ .error →
        IdealCalls C
            (w.resp.history.calls ++
              (handshakeProcessMessage C w.ini v).1.history.calls) →
          (v.payloadBytes ∈ payloadsOf w.respSent ↔
            NonceBound C w.ini labelLockProof v.payloadBytes)) ∧
      (LocksBound C (setup.start C) ds → IdealCalls C w.calls →
        w.ini.state = .locked → w.resp.state = .locked →
          w.ini.keys.sessionKey = w.resp.keys.sessionKey ∧
            w.ini.keys.channelKeys = w.resp.keys.channelKeys) := by
  have start := worldInv_start C setup
  have inv := start.run C ds
  intro w
  refine ⟨?_, ?_, ?_⟩
  · intro v opcode accepted ideal
    rw [handshakeProcessMessage_eq] at accepted ideal
    exact identity_mem_sent_iff C inv opcode accepted ideal
  · intro v opcode accepted ideal
    rw [handshakeProcessMessage_eq] at accepted ideal
    exact locked_mem_sent_iff C inv opcode accepted ideal
  · intro locks ideal iniLocked respLocked
    have initially : BoundLock C (setup.start C).ini := by
      intro locked
      cases locked
    obtain ⟨secret, before, msg, held, length, nonce⟩ :=
      initially.run C start ds locks iniLocked
    obtain ⟨respBefore, cipher, tag, agreement⟩ :=
      lockAgreement C inv ideal held respLocked
    have key : lockKey C secret before = lockKey C secret respBefore := by
      rw [lockKey, agreement.transcript, lockKey]
    have sameMessage :
        msg =
          proofPayload ctrlSessionLocked
            (proofNonce C (lockKey C secret respBefore)) cipher tag := by
      rw [← proofPayload_of_slices length, held.opcode, nonce, key,
        agreement.sameCipher, agreement.sameTag]
    obtain ⟨_, keys⟩ := agreement.same C inv sameMessage
    exact ⟨congrArg Prod.fst keys, congrArg Prod.snd keys⟩

end

/-! ## The sample parties -/

/-- The sample parties before IDENTITY_PROOF arrives. -/
def sampleProving : HsWorld :=
  (sampleSetup.start sampleSuite).run sampleSuite
    (relay sampleSuite .responder (sampleSetup.start sampleSuite)
      (List.replicate 4 sampleEnv))

/-- The sample parties before SESSION_LOCKED arrives. -/
def sampleAwaiting : HsWorld :=
  (sampleSetup.start sampleSuite).run sampleSuite
    (relay sampleSuite .responder (sampleSetup.start sampleSuite)
      (List.replicate 5 sampleEnv))

theorem sampleProving_awaits :
    AwaitsIdentity sampleSuite sampleProving sampleSetup.iniKey.bytes
      sampleSetup.respKey.bytes sampleShared 77 samplePublicKey
      sampleCiphertext := by
  have pool : sampleEnv.buf = some default := rfl
  obtain ⟨w, run, awaits⟩ := awaitsIdentity_of_four sampleSetup pool pool
    pool pool sampleExchange []
  have same : sampleProving = w := run
  rw [same]
  exact awaits

theorem sampleAwaiting_awaits :
    AwaitsLock sampleSuite sampleAwaiting sampleSetup.iniKey.bytes
      sampleSetup.respKey.bytes sampleShared 77 samplePublicKey
      sampleCiphertext := by
  have pool : sampleEnv.buf = some default := rfl
  obtain ⟨w4, run4, proving⟩ := awaitsIdentity_of_four sampleSetup pool pool
    pool pool sampleExchange [sampleEnv]
  obtain ⟨w, run, awaits⟩ := proving.next aeadInverts_sampleSuite
    sampleSetup.iniKey.length_bytes pool []
  have same : sampleAwaiting = w := run4.trans run
  rw [same]
  exact awaits

def sampleIdentity : Bytes :=
  identityAfter sampleSuite sampleShared sampleSetup.iniKey.bytes
    sampleBefore

/-- What the sample responder does with the IDENTITY_PROOF. -/
theorem sampleIdentity_accepted :
    (processPayload sampleSuite sampleProving.resp sampleIdentity).2 =
        .needMore ∧
      IdealCalls sampleSuite
        (sampleProving.ini.history.calls ++
          (processPayload sampleSuite sampleProving.resp
            sampleIdentity).1.history.calls) := by
  have awaits := sampleProving_awaits
  have carries :
      CarriesProof sampleSuite labelIdProof sampleShared
        sampleSetup.iniKey.bytes sampleBefore sampleIdentity :=
    carriesProof_proofAfter ctrlIdentityProof _ _
      sampleSetup.iniKey.length_bytes _
  have opcode : opcodeOf sampleIdentity = ctrlIdentityProof := rfl
  obtain ⟨result, _, _, stands⟩ := awaits.resp.process_identity
    aeadInverts_sampleSuite sampleSetup.iniKey.length_bytes opcode carries
  refine ⟨result, idealCalls_sample_identity ?_⟩
  intro call
  have logged :
      (processPayload sampleSuite sampleProving.resp
          sampleIdentity).1.history.calls =
        kemCalls sampleSuite 77 samplePublicKey sampleCiphertext ++
          checkIdentityCalls sampleSuite sampleShared
            sampleSetup.iniKey.bytes
            (kemMessages 77 samplePublicKey sampleCiphertext) := by
    rw [stands.calls, checkIdentityCalls, sampleIdentity, sampleBefore]
  rw [logged, awaits.ini.calls, sampleIdentityLog, identityLog]
  simp only [List.mem_append]
  constructor
  · rintro ((kem | own) | (kem | checked))
    · exact Or.inl (Or.inl kem)
    · exact Or.inl (Or.inr own)
    · exact Or.inl (Or.inl kem)
    · exact Or.inr checked
  · rintro ((kem | own) | checked)
    · exact Or.inl (Or.inl kem)
    · exact Or.inl (Or.inr own)
    · exact Or.inr (Or.inr checked)

theorem sampleLock_accepted :
    (processPayload sampleSuite sampleAwaiting.ini sampleLock).2 =
        .complete ∧
      IdealCalls sampleSuite
        (sampleAwaiting.resp.history.calls ++
          (processPayload sampleSuite sampleAwaiting.ini
            sampleLock).1.history.calls) := by
  have awaits := sampleAwaiting_awaits
  have carries :
      CarriesProof sampleSuite labelLockProof sampleShared
        sampleSetup.respKey.bytes (sampleBefore ++ [sampleIdentity])
        sampleLock :=
    carriesProof_proofAfter ctrlSessionLocked _ _
      sampleSetup.respKey.length_bytes _
  obtain ⟨complete, finished⟩ := awaits.finish aeadInverts_sampleSuite
    sampleSetup.respKey.length_bytes rfl carries
  refine ⟨complete, idealCalls_sample_lock List.mem_cons_self ?_⟩
  intro call
  rw [finished.stands.calls, awaits.resp.stands.calls, List.mem_append,
    or_comm, ← List.mem_append]
  exact mem_honestLogs call

theorem proofMessages_bound_sample :
    (sampleIdentity ∈ payloadsOf sampleProving.iniSent ↔
        NonceBound sampleSuite sampleProving.resp labelIdProof
          sampleIdentity) ∧
      (sampleLock ∈ payloadsOf sampleAwaiting.respSent ↔
        NonceBound sampleSuite sampleAwaiting.ini labelLockProof
          sampleLock) ∧
      let w := (sampleSetup.start sampleSuite).run sampleSuite sampleRun
      w.ini.keys.sessionKey = w.resp.keys.sessionKey ∧
        w.ini.keys.channelKeys = w.resp.keys.channelKeys := by
  have payload (msg : Bytes) :
      (builtView default true 0 77 chControl 3 msg).payloadBytes = msg :=
    builtView_payloadBytes _ _ _ _ _ _ _
  refine ⟨?_, ?_, ?_⟩
  · obtain ⟨accepted, ideal⟩ := sampleIdentity_accepted
    unfold sampleProving at accepted ideal ⊢
    have bound := (proofMessages_bound_iff sampleSuite sampleSetup
      (relay sampleSuite .responder (sampleSetup.start sampleSuite)
        (List.replicate 4 sampleEnv))).1
      (builtView default true 0 77 chControl 3 sampleIdentity)
    rw [handshakeProcessMessage_eq, payload] at bound
    refine bound rfl ?_ ideal
    intro failed
    exact absurd (failed.symm.trans accepted) (by decide)
  · obtain ⟨complete, ideal⟩ := sampleLock_accepted
    unfold sampleAwaiting at complete ideal ⊢
    have bound := (proofMessages_bound_iff sampleSuite sampleSetup
      (relay sampleSuite .responder (sampleSetup.start sampleSuite)
        (List.replicate 5 sampleEnv))).2.1
      (builtView default true 0 77 chControl 3 sampleLock)
    rw [handshakeProcessMessage_eq, payload] at bound
    refine bound rfl ?_ ideal
    intro failed
    exact absurd (failed.symm.trans complete) (by decide)
  · exact (proofMessages_bound_iff sampleSuite sampleSetup sampleRun).2.2
      (by decide +kernel) sampleRun_ideal sampleRun_ends.1.stands.state
      sampleRun_ends.2.stands.state

/-! ## A nonce altered in transit -/

/-- The sample parties, when the attacker inverts one bit of the nonce field
of SESSION_LOCKED. -/
def alteredRun : List Delivery :=
  relay sampleSuite .responder (sampleSetup.start sampleSuite)
      (List.replicate 5 sampleEnv) ++
    [{ party := .initiator
       packet := buildPacket default true 0 77 chControl 3 alteredLock
       env := sampleEnv }]

theorem alteredLock_carries :
    CarriesProof sampleSuite labelLockProof sampleShared
      sampleSetup.respKey.bytes (sampleBefore ++ [sampleIdentity])
      alteredLock := by
  have intact :
      CarriesProof sampleSuite labelLockProof sampleShared
        sampleSetup.respKey.bytes (sampleBefore ++ [sampleIdentity])
        sampleLock :=
    carriesProof_proofAfter ctrlSessionLocked _ _
      sampleSetup.respKey.length_bytes _
  refine ⟨?_, ?_, ?_⟩
  · rw [alteredLock, List.length_modify]
    exact intact.long
  · rw [alteredLock, List.drop_modify_of_lt _ _ _ _ (by decide)]
    exact intact.cipher
  · rw [alteredLock, List.drop_modify_of_lt _ _ _ _ (by decide)]
    exact intact.tag

/-- The altered nonce is not the one of the lock proof. -/
theorem alteredLock_nonce :
    (alteredLock.drop 1).take 12 ≠
      proofNonce sampleSuite
        (keyAfter sampleSuite labelLockProof sampleShared
          (sampleBefore ++ [sampleIdentity])) := by
  decide +kernel

theorem alteredLock_opcode : opcodeOf alteredLock = ctrlSessionLocked := by
  decide +kernel

theorem alteredRun_eq :
    let w := (sampleSetup.start sampleSuite).run sampleSuite alteredRun
    w.resp = sampleAwaiting.resp ∧
      w.ini =
        (feed sampleSuite (initiatorReply sampleSuite) sampleEnv
          sampleAwaiting.ini alteredLock sampleAwaiting.iniSeq).sess := by
  have fits : alteredLock.length ≤ 1476 := by
    rw [alteredLock, List.length_modify]
    exact length_proofAfter_le _ _ _ sampleSetup.respKey _
  have stepped := step_initiator sampleSuite sampleAwaiting sampleEnv default
    77 3 fits
  intro w
  have split :
      w =
        sampleAwaiting.step sampleSuite
          { party := .initiator
            packet := buildPacket default true 0 77 chControl 3 alteredLock
            env := sampleEnv } := by
    simp only [w, alteredRun]
    rw [HsWorld.run, List.foldl_append]
    rfl
  exact ⟨by rw [split, stepped], by rw [split, stepped]⟩

/-- Nobody sent the altered message. -/
theorem alteredLock_not_sent :
    alteredLock ∉ payloadsOf sampleAwaiting.respSent := by
  intro member
  have inv : WorldInv sampleSuite sampleAwaiting :=
    (worldInv_start sampleSuite sampleSetup).run sampleSuite _
  obtain ⟨_, nonce, _, cipher, tag, sealed, built⟩ :=
    inv.resp.log.proofs alteredLock member alteredLock_opcode
  have logged := mem_seals.mp sealed
  rw [sampleAwaiting_awaits.resp.stands.calls] at logged
  simp only [kemCalls, checkIdentityCalls, checkCalls, lockCalls, keyCalls,
    absorbCall, sealCall, unsealCall, List.mem_append, List.mem_cons,
    List.not_mem_nil, or_false, reduceCtorEq, false_or,
    CryptoCall.seal.injEq] at logged
  have field : (alteredLock.drop 1).take 12 = nonce := by
    have length : nonce.length = 12 := by
      rw [logged.2.1]
      exact length_proofNonce _ _
    rw [built, proofPayload, List.cons_append, List.drop_one,
      List.tail_cons, List.take_left' length]
  exact alteredLock_nonce (field.trans logged.2.1)

/-- The initiator accepts the altered message, which nobody sent, and the
sides lock on different keys, although the primitives behaved ideally. -/
theorem alteredRun_splits_keys :
    let v := builtView default true 0 77 chControl 3 alteredLock
    let w := (sampleSetup.start sampleSuite).run sampleSuite alteredRun
    IdealCalls sampleSuite w.calls ∧
      (handshakeProcessMessage sampleSuite sampleAwaiting.ini v).2 ≠
        .error ∧
      v.payloadBytes ∉ payloadsOf sampleAwaiting.respSent ∧
      w.ini.state = .locked ∧ w.resp.state = .locked ∧
      w.ini.keys.sessionKey ≠ w.resp.keys.sessionKey := by
  have awaits := sampleAwaiting_awaits
  obtain ⟨complete, finished⟩ := awaits.finish aeadInverts_sampleSuite
    sampleSetup.respKey.length_bytes alteredLock_opcode alteredLock_carries
  obtain ⟨resp, ini⟩ := alteredRun_eq
  rw [feed_complete complete] at ini
  intro v w
  refine ⟨?_, ?_, ?_, ?_, ?_, ?_⟩
  · rw [HsWorld.calls, ini, resp, finished.stands.calls,
      awaits.resp.stands.calls]
    exact idealCalls_sample_lock
      (List.mem_cons_of_mem _ List.mem_cons_self) mem_honestLogs
  · rw [handshakeProcessMessage_eq, builtView_payloadBytes, complete]
    decide
  · rw [builtView_payloadBytes]
    exact alteredLock_not_sent
  · rw [ini]
    exact finished.stands.state
  · rw [resp]
    exact awaits.resp.stands.state
  · rw [ini, resp]
    have iniKeys := congrArg Prod.fst finished.material
    have respKeys := congrArg Prod.fst awaits.resp.material
    simp only [Session.material] at iniKeys respKeys
    rw [iniKeys, respKeys]
    decide +kernel

end PqComm
