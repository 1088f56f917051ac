import PqComm.Handshake.Invariants

/-!
# The initiator

One delivery to `handshake_run_as_initiator` keeps the invariant of the
initiator, whatever bytes are delivered.
-/

namespace PqComm

open Lib

section

variable (C : CryptoSuite)

/-- An error resets the session. -/
theorem InitiatorInv.error
    {s : Session} {sent : List Bytes} (inv : InitiatorInv C s sent)
    (msg : Bytes) :
    InitiatorInv C (sessionReset (processPayload C s msg).1) (sent ++ []) where
  log :=
    inv.log.extend C (Chained.reset C)
      ((logsWithoutSeal_processPayload C s msg).trans
        (LogsWithoutSeal.of_calls rfl))
      (fun _ member => absurd member (List.not_mem_nil))
  opcodes := by
    simpa using inv.opcodes
  adopted := by
    intro id known
    cases known
  phase := InitiatorPhase.reset rfl rfl

/-- A message that the initiator absorbs without an answer. -/
theorem InitiatorInv.absorb
    {s s' : Session} {sent : List Bytes} {msg : Bytes}
    (inv : InitiatorInv C s sent)
    (chained : Chained C s') (logs : LogsWithoutSeal s s')
    (absorbed : s'.history.absorbed = s.history.absorbed ++ [msg])
    (adopted :
      ∀ id, acceptedId (s.history.absorbed ++ [msg]) = some id →
        s'.sessionId = id)
    (phase : InitiatorPhase C s') : InitiatorInv C s' sent where
  log := by
    have log := inv.log.extend C chained logs
      (fun _ member => absurd member (List.not_mem_nil))
    simpa using log
  opcodes := inv.opcodes
  adopted := by
    rw [absorbed]
    exact adopted
  phase := phase

/-- The initiator sends a message that is not a proof. -/
theorem InitiatorInv.send
    {s s' : Session} {sent : List Bytes} {msg : Bytes}
    (inv : InitiatorInv C s sent)
    (chained : Chained C s') (logs : LogsWithoutSeal s s')
    (absorbed : s'.history.absorbed = s.history.absorbed ++ [msg])
    (opcode : opcodeOf msg = ctrlHello ∨ opcodeOf msg = ctrlPqKemInit)
    (sameId : s'.sessionId = s.sessionId)
    (phase : InitiatorPhase C s') : InitiatorInv C s' (sent ++ [msg]) where
  log := by
    apply inv.log.extend C chained logs
    intro new member
    rw [List.mem_singleton.mp member]
    rcases opcode with hello | init
    · rw [hello]
      decide
    · rw [init]
      decide
  opcodes := by
    intro new member
    rcases List.mem_append.mp member with old | added
    · exact inv.opcodes new old
    · rw [List.mem_singleton.mp added]
      rcases opcode with hello | init
      · simp [hello]
      · simp [init]
  adopted := by
    intro id known
    rw [sameId]
    apply inv.adopted id
    rwa [absorbed, acceptedId_skip] at known
    rcases opcode with hello | init
    · rw [hello]
      decide
    · rw [init]
      decide
  phase := phase

/-- ACCEPT is absorbed and its identifier adopted. -/
theorem InitiatorInv.accept
    {s : Session} {sent : List Bytes} {msg : Bytes} {id : UInt64}
    (inv : InitiatorInv C s sent) (role : s.role = .initiator)
    (state : s.state = .handshakeStart) (fresh : s.seals = [])
    (opcode : opcodeOf msg = ctrlAccept)
    (adopted :
      9 ≤ msg.length → id = UInt64.ofNat (leNat ((msg.drop 1).take 8)))
    (kept : ¬ 9 ≤ msg.length → id = s.sessionId) :
    InitiatorInv C { updateTranscript C s msg with sessionId := id } sent := by
  have chained := inv.log.chained.updateTranscript C msg
  refine inv.absorb C ?_ ?_ rfl ?_ ?_
  · exact
      ⟨chained.secret, chained.identity, chained.transcript, chained.logged⟩
  · exact logsWithoutSeal_updateTranscript C s msg
  · intro known equal
    rw [acceptedId_concat] at equal
    by_cases long : 9 ≤ msg.length
    · rw [if_pos ⟨opcode, long⟩] at equal
      exact (adopted long).trans (Option.some.inj equal)
    · rw [if_neg (fun both => long both.2)] at equal
      exact (kept long).trans (inv.adopted known equal)
  · exact InitiatorPhase.start role state
      ((seals_updateTranscript C s msg).trans fresh)

/-- The answer to ACCEPT. -/
theorem InitiatorInv.buildKemInit
    {s : Session} {sent : List Bytes} (inv : InitiatorInv C s sent)
    (role : s.role = .initiator) (state : s.state = .handshakeStart)
    (fresh : s.seals = [])
    (accepted : ∃ msg ∈ s.history.absorbed, opcodeOf msg = ctrlAccept)
    (coins : Bytes) (buf : PacketBuf) (seq : UInt32) :
    InitiatorInv C (handshakeBuildKemInit C s coins buf seq).sess
      (sent ++
        payloadsOf
          (handshakeBuildKemInit C s coins buf seq).out.toList) := by
  unfold handshakeBuildKemInit
  split
  · simpa [payloadsOf] using inv
  · cases made : C.kemKeypair coins with
    | none =>
        have log := inv.log
        simp only [Option.toList_none, payloadsOf, List.filterMap_nil,
          List.append_nil]
        exact
          { log :=
              { chained :=
                  ⟨log.chained.secret, log.chained.identity,
                    log.chained.transcript, log.chained.logged⟩
                sealed := log.sealed
                once := log.once
                proofs := log.proofs }
            opcodes := inv.opcodes
            adopted := inv.adopted
            phase := InitiatorPhase.start role state fresh }
    | some pair =>
        obtain ⟨publicKey, secretKey⟩ := pair
        have size := (C.length_kemKeypair coins publicKey secretKey made).1
        have fits : (ctrlPqKemInit :: publicKey).length ≤ 1476 := by
          simp [size]
        simp only [handshakeEmit, Option.toList_some]
        rw [payloadsOf_buildPacket _ _ _ fits]
        have keyed : Chained C
            { s with
              hs :=
                { s.hs with
                  kemPublicKey := publicKey
                  kemSecretKey := secretKey } } :=
          ⟨inv.log.chained.secret, inv.log.chained.identity,
            inv.log.chained.transcript, inv.log.chained.logged⟩
        have chained := keyed.updateTranscript C
          (ctrlPqKemInit :: publicKey)
        obtain ⟨msg, member, opcode⟩ := accepted
        refine inv.send C ?_ ?_ rfl (Or.inr rfl) rfl ?_
        · exact ⟨chained.secret, chained.identity, chained.transcript,
            chained.logged⟩
        · exact logsWithoutSeal_updateTranscript C s
            (ctrlPqKemInit :: publicKey)
        · exact InitiatorPhase.kemSent role rfl
            ((seals_updateTranscript C s _).trans fresh)
            ⟨msg, List.mem_append_left _ member, opcode⟩

/-- PQ_KEM_RESPONSE is absorbed and its secret kept. -/
theorem InitiatorInv.kemResponse
    {s : Session} {sent : List Bytes} {msg secret : Bytes}
    (inv : InitiatorInv C s sent) (role : s.role = .initiator)
    (state : s.state = .pqKemInitSent) (fresh : s.seals = [])
    (accepted : ∃ msg ∈ s.history.absorbed, opcodeOf msg = ctrlAccept)
    (opcode : opcodeOf msg = ctrlPqKemResponse)
    (size : secret.length = 32) :
    InitiatorInv C
      { updateTranscript C s msg with
        hs :=
          { (updateTranscript C s msg).hs with kemSharedSecret := secret } }
      sent := by
  have chained := inv.log.chained.updateTranscript C msg
  refine inv.absorb C ?_ ?_ rfl ?_ ?_
  · exact ⟨size, chained.identity, chained.transcript, chained.logged⟩
  · exact logsWithoutSeal_updateTranscript C s msg
  · intro id known
    rw [acceptedId_skip _ (by rw [opcode]; decide)] at known
    exact inv.adopted id known
  · obtain ⟨old, member, isAccept⟩ := accepted
    exact InitiatorPhase.kemSent role state
      ((seals_updateTranscript C s msg).trans fresh)
      ⟨old, List.mem_append_left _ member, isAccept⟩

/-- The answer to PQ_KEM_RESPONSE. -/
theorem InitiatorInv.buildIdentity
    {s : Session} {sent : List Bytes} (inv : InitiatorInv C s sent)
    (role : s.role = .initiator) (fresh : s.seals = [])
    (accepted : ∃ msg ∈ s.history.absorbed, opcodeOf msg = ctrlAccept)
    (buf : PacketBuf) (seq : UInt32) :
    InitiatorInv C (handshakeBuildIdentity C s buf seq).sess
      (sent ++
        payloadsOf (handshakeBuildIdentity C s buf seq).out.toList) := by
  have chained := inv.log.chained
  have sizes := length_proofSealed C chained labelIdProof
  have fits :
      (builtProof C s ctrlIdentityProof labelIdProof).length ≤ 1476 := by
    rw [builtProof, length_proofPayload _ (length_proofNonce C _) sizes.1
      sizes.2]
    decide
  rw [handshakeBuildIdentity, handshakeBuildProof_eq C chained]
  simp only [Option.toList_some]
  rw [payloadsOf_buildPacket _ _ _ fits]
  have log := inv.log.prove C fresh
  refine
    { log :=
        { chained :=
            ⟨log.chained.secret, log.chained.identity,
              log.chained.transcript, log.chained.logged⟩
          sealed := log.sealed
          once := log.once
          proofs := log.proofs }
      opcodes := ?_
      adopted := ?_
      phase := ?_ }
  · intro msg member
    rcases List.mem_append.mp member with old | added
    · exact inv.opcodes msg old
    · rw [List.mem_singleton.mp added]
      simp [builtProof, proofPayload]
  · intro id known
    have other :
        opcodeOf (builtProof C s ctrlIdentityProof labelIdProof) ≠
          ctrlAccept := by
      change ctrlIdentityProof ≠ ctrlAccept
      decide
    exact inv.adopted id
      ((acceptedId_skip s.history.absorbed other).symm.trans known)
  · obtain ⟨old, member, isAccept⟩ := accepted
    exact InitiatorPhase.proved role rfl
      ⟨old, List.mem_append_left _ member, isAccept⟩

/-- An initiator that sent its proof has absorbed an ACCEPT. -/
theorem InitiatorInv.accepted
    {s : Session} {sent : List Bytes} (inv : InitiatorInv C s sent)
    (role : s.role = .initiator) (state : s.state = .identityProofSent) :
    ∃ msg ∈ s.history.absorbed, opcodeOf msg = ctrlAccept := by
  cases inv.phase with
  | start _ other _ => simp [state] at other
  | kemSent _ other _ _ => simp [state] at other
  | proved _ _ accepted => exact accepted
  | locked _ other _ _ _ _ => simp [state] at other
  | reset other _ => simp [role] at other

/-- What the initiator holds after a SESSION_LOCKED that verified. -/
theorem initiatorLocked_of_verified
    {s s' : Session} {sent : List Bytes} {msg : Bytes}
    (inv : InitiatorInv C s sent)
    (accepted : ∃ msg ∈ s.history.absorbed, opcodeOf msg = ctrlAccept)
    (opcode : opcodeOf msg = ctrlSessionLocked) (long : 93 ≤ msg.length)
    (verified :
      (verifyProof C (updateTranscript C s msg) labelLockProof
        s.hs.transcriptHash msg).2 = true)
    (derived :
      lockSession C
          (verifyProof C (updateTranscript C s msg) labelLockProof
            s.hs.transcriptHash msg).1 = some s') :
    InitiatorLocked C s' s.hs.kemSharedSecret s.history.absorbed msg := by
  have checked := verifyProof_checked C (updateTranscript C s msg)
    labelLockProof s.hs.transcriptHash msg
  have opened := verifyProof_opened C verified
  have chained :=
    (inv.log.chained.updateTranscript C msg).proofChecked C checked
  generalize
    (verifyProof C (updateTranscript C s msg) labelLockProof
      s.hs.transcriptHash msg).1 = t at checked chained derived
  rw [lockSession_eq C chained, Option.some.injEq] at derived
  subst derived
  have absorbed : t.history.absorbed = s.history.absorbed ++ [msg] :=
    checked.absorbed
  have secret : t.hs.kemSharedSecret = s.hs.kemSharedSecret :=
    checked.secret
  have key :
      lockKey C s.hs.kemSharedSecret s.history.absorbed =
        proofKey C labelLockProof s.hs.kemSharedSecret
          s.hs.transcriptHash := by
    rw [lockKey, inv.log.chained.transcript]
  obtain ⟨old, member, isAccept⟩ := accepted
  refine ⟨⟨old, ?_, isAccept⟩, ?_, opcode, long, ?_, ?_⟩
  · change old ∈ t.history.absorbed
    rw [absorbed]
    exact List.mem_append_left _ member
  · refine ⟨inv.log.chained.secret, absorbed, ?_, ?_⟩
    · change _ ∈ t.history.calls
      rw [checked.calls, ← inv.log.chained.transcript]
      refine List.mem_append_right _ ?_
      exact List.mem_cons_self
    · change sessionKeyMaterial C t.hs.kemSharedSecret
        t.hs.transcriptHash = _
      rw [secret]
      rfl
  · change _ ∈ t.history.calls
    rw [checked.calls, key]
    refine List.mem_append_right _ ?_
    exact List.mem_cons_of_mem _ (List.mem_cons_of_mem _
      List.mem_cons_self)
  · rw [key]
    exact opened

/-- SESSION_LOCKED verifies and the initiator locks. -/
theorem InitiatorInv.lock
    {s s' : Session} {sent : List Bytes} {msg : Bytes}
    (inv : InitiatorInv C s sent) (role : s.role = .initiator)
    (accepted : ∃ msg ∈ s.history.absorbed, opcodeOf msg = ctrlAccept)
    (opcode : opcodeOf msg = ctrlSessionLocked) (long : 93 ≤ msg.length)
    (verified :
      (verifyProof C (updateTranscript C s msg) labelLockProof
        s.hs.transcriptHash msg).2 = true)
    (derived :
      lockSession C
          (verifyProof C (updateTranscript C s msg) labelLockProof
            s.hs.transcriptHash msg).1 = some s') :
    InitiatorInv C s' sent := by
  have held := initiatorLocked_of_verified C inv accepted opcode long verified
    derived
  have checked := verifyProof_checked C (updateTranscript C s msg)
    labelLockProof s.hs.transcriptHash msg
  have chained :=
    (inv.log.chained.updateTranscript C msg).proofChecked C checked
  have logs := logsWithoutSeal_verifyProof C
    (logsWithoutSeal_updateTranscript C s msg) labelLockProof
    s.hs.transcriptHash msg
  rw [lockSession_eq C chained, Option.some.injEq] at derived
  subst derived
  generalize (verifyProof C (updateTranscript C s msg) labelLockProof
    s.hs.transcriptHash msg).1 = t at held checked chained logs ⊢
  refine inv.absorb C (chained_lockedSession C chained) logs
    held.after.absorbed ?_ ?_
  · intro id known
    rw [acceptedId_skip _ (by rw [opcode]; decide)] at known
    exact checked.core.sessionId.trans (inv.adopted id known)
  · exact InitiatorPhase.locked (checked.core.role.trans role) rfl _ _ _ held

theorem InitiatorInv.role_of_accepted
    {s : Session} {sent : List Bytes} (inv : InitiatorInv C s sent)
    {msg : Bytes} (accepted : (processPayload C s msg).2 ≠ .error) :
    s.role = .initiator := by
  cases inv.phase with
  | start role _ _ => exact role
  | kemSent role _ _ _ => exact role
  | proved role _ _ => exact role
  | locked role _ _ _ _ _ => exact role
  | reset role state =>
      exact absurd (processPayload_unassigned C role state msg) accepted

/-- Whatever is delivered, the invariant of the initiator is kept. -/
theorem InitiatorInv.feed
    {s : Session} {sent : List Bytes} (inv : InitiatorInv C s sent)
    (env : HsEnv) (msg : Bytes) (seq : UInt32) :
    InitiatorInv C (feed C (initiatorReply C) env s msg seq).sess
      (sent ++
        payloadsOf (feed C (initiatorReply C) env s msg seq).out.toList) := by
  by_cases failed : (processPayload C s msg).2 = .error
  · simp only [PqComm.feed, failed]
    exact inv.error C msg
  have role := inv.role_of_accepted C failed
  have accepts := processPayload_initiator C role failed
  unfold PqComm.feed
  dsimp only
  generalize processPayload C s msg = result at accepts ⊢
  cases accepts with
  | accept opcode state id adopted kept =>
      have fresh : s.seals = [] := by
        cases inv.phase with
        | start _ _ fresh => exact fresh
        | kemSent _ _ fresh _ => exact fresh
        | proved _ other _ => simp [state] at other
        | locked _ other _ _ _ _ => simp [state] at other
        | reset other _ => simp [role] at other
      have next := inv.accept C role state fresh opcode adopted kept
      dsimp only [initiatorReply]
      cases env.buf with
      | none =>
          simpa [payloadsOf] using next
      | some buf =>
          rw [opcode]
          exact next.buildKemInit C role state
            ((seals_updateTranscript C s msg).trans fresh)
            ⟨msg, List.mem_append_right _ (List.mem_singleton.mpr rfl),
              opcode⟩ env.coins buf seq
  | kemResponse opcode state secret size =>
      have earlier :
          s.seals = [] ∧
            ∃ msg ∈ s.history.absorbed, opcodeOf msg = ctrlAccept := by
        cases inv.phase with
        | start _ other _ => simp [state] at other
        | kemSent _ _ fresh accepted => exact ⟨fresh, accepted⟩
        | proved _ other _ => simp [state] at other
        | locked _ other _ _ _ _ => simp [state] at other
        | reset other _ => simp [role] at other
      obtain ⟨fresh, old, member, isAccept⟩ := earlier
      have next := inv.kemResponse C role state fresh
        ⟨old, member, isAccept⟩ opcode size
      dsimp only [initiatorReply]
      cases env.buf with
      | none =>
          simpa [payloadsOf] using next
      | some buf =>
          rw [opcode]
          exact next.buildIdentity C role
            ((seals_updateTranscript C s msg).trans fresh)
            ⟨old, List.mem_append_left _ member, isAccept⟩ buf seq
  | identity state =>
      cases inv.phase with
      | start _ other _ => simp [state] at other
      | kemSent _ other _ _ => simp [state] at other
      | proved _ other _ => simp [state] at other
      | locked _ other _ _ _ _ => simp [state] at other
      | reset other _ => simp [role] at other
  | locked opcode state long verified s' derived =>
      have accepted := inv.accepted C role state
      have next := inv.lock C role accepted opcode long verified derived
      simpa [payloadsOf] using next

end

end PqComm
