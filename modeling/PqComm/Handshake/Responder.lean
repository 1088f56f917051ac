import PqComm.Handshake.Invariants

/-!
# The responder

One delivery to `handshake_run_as_responder` keeps the invariant of the
responder, whatever bytes are delivered.
-/

namespace PqComm

open Lib

section

variable (C : CryptoSuite)

/-- An error resets the session. -/
theorem ResponderInv.error
    {s : Session} {sent : List Bytes} (inv : ResponderInv C s sent)
    (msg : Bytes) :
    ResponderInv C (sessionReset (processPayload C s msg).1) (sent ++ []) where
  log :=
    inv.log.extend C (Chained.reset C)
      ((logsWithoutSeal_processPayload C s msg).trans
        (LogsWithoutSeal.of_calls rfl))
      (fun _ member => absurd member (List.not_mem_nil))
  opcodes := by
    simpa using inv.opcodes
  accepts := by
    simpa using inv.accepts
  adopted := by
    intro id known
    cases known
  phase := ResponderPhase.reset rfl rfl

/-- A message that the responder absorbs without an answer. -/
theorem ResponderInv.absorb
    {s s' : Session} {sent : List Bytes} {msg : Bytes}
    (inv : ResponderInv C s sent)
    (chained : Chained C s') (logs : LogsWithoutSeal s s')
    (absorbed : s'.history.absorbed = s.history.absorbed ++ [msg])
    (other : opcodeOf msg ≠ ctrlAccept)
    (sameId : s'.sessionId = s.sessionId)
    (phase : ResponderPhase C s') : ResponderInv C s' sent where
  log := by
    have log := inv.log.extend C chained logs
      (fun _ member => absurd member (List.not_mem_nil))
    simpa using log
  opcodes := inv.opcodes
  accepts := inv.accepts
  adopted := by
    intro id known
    rw [absorbed, acceptedId_skip _ other] at known
    exact sameId.trans (inv.adopted id known)
  phase := phase

/-- The responder sends a message that is not a proof. -/
theorem ResponderInv.send
    {s s' : Session} {sent : List Bytes} {msg : Bytes}
    (inv : ResponderInv C s sent)
    (chained : Chained C s') (logs : LogsWithoutSeal s s')
    (opcode : opcodeOf msg = ctrlAccept ∨ opcodeOf msg = ctrlPqKemResponse)
    (accepts : opcodeOf msg = ctrlAccept → msg.length = 9)
    (adopted :
      ∀ id, acceptedId s'.history.absorbed = some id → s'.sessionId = id)
    (phase : ResponderPhase C s') : ResponderInv C s' (sent ++ [msg]) where
  log := by
    apply inv.log.extend C chained logs
    intro new member
    rw [List.mem_singleton.mp member]
    rcases opcode with accept | response
    · rw [accept]
      decide
    · rw [response]
      decide
  opcodes := by
    intro new member
    rcases List.mem_append.mp member with old | added
    · exact inv.opcodes new old
    · rw [List.mem_singleton.mp added]
      rcases opcode with accept | response
      · simp [accept]
      · simp [response]
  accepts := by
    intro new member isAccept
    rcases List.mem_append.mp member with old | added
    · exact inv.accepts new old isAccept
    · rw [List.mem_singleton.mp added] at isAccept ⊢
      exact accepts isAccept
  adopted := adopted
  phase := phase

/-- The answer to HELLO: the session takes the identifier it announces. -/
theorem ResponderInv.buildAccept
    {s : Session} {sent : List Bytes} (inv : ResponderInv C s sent)
    (role : s.role = .responder) (state : s.state = .handshakeStart)
    (fresh : s.seals = []) (id : UInt64) (buf : PacketBuf) (seq : UInt32) :
    ResponderInv C (handshakeBuildAccept C s id buf seq).sess
      (sent ++ payloadsOf (handshakeBuildAccept C s id buf seq).out.toList) := by
  have fits : (acceptPayload id).length ≤ 1476 := by
    simp [acceptPayload]
  simp only [handshakeBuildAccept, handshakeEmit, Option.toList_some]
  rw [payloadsOf_buildPacket _ _ _ fits]
  have chained := inv.log.chained.updateTranscript C (acceptPayload id)
  refine inv.send C ?_ ?_ (Or.inl rfl) ?_ ?_ ?_
  · exact
      ⟨chained.secret, chained.identity, chained.transcript, chained.logged⟩
  · exact logsWithoutSeal_updateTranscript C s (acceptPayload id)
  · intro _
    simp [acceptPayload]
  · intro known equal
    have last := acceptedId_acceptPayload s.history.absorbed id
    exact Option.some.inj (last.symm.trans equal)
  · exact ResponderPhase.start role state
      ((seals_updateTranscript C s _).trans fresh)

/-- The answer to PQ_KEM_INIT. -/
theorem ResponderInv.buildKemResponse
    {s : Session} {sent : List Bytes} (inv : ResponderInv C s sent)
    (role : s.role = .responder) (fresh : s.seals = []) (coins : Bytes)
    (buf : PacketBuf) (seq : UInt32) :
    ResponderInv C (handshakeBuildKemResponse C s coins buf seq).sess
      (sent ++
        payloadsOf
          (handshakeBuildKemResponse C s coins buf seq).out.toList) := by
  unfold handshakeBuildKemResponse
  split
  · simpa [payloadsOf] using inv
  · cases made : C.kemEncaps s.hs.peerPublicKey coins with
    | none =>
        simpa [payloadsOf] using inv
    | some pair =>
        obtain ⟨ciphertext, secret⟩ := pair
        have sizes := C.length_kemEncaps _ _ _ _ made
        dsimp only
        cases deriveSessionKeys C secret s.hs.transcriptHash with
        | none =>
            simpa [payloadsOf] using inv
        | some material =>
            have fits : (ctrlPqKemResponse :: ciphertext).length ≤ 1476 := by
              simp [sizes.1]
            simp only [handshakeEmit, Option.toList_some]
            rw [payloadsOf_buildPacket _ _ _ fits]
            have chained := inv.log.chained.updateTranscript C
              (ctrlPqKemResponse :: ciphertext)
            refine inv.send C ?_ ?_ (Or.inr rfl) ?_ ?_ ?_
            · exact ⟨sizes.2, chained.identity, chained.transcript,
                chained.logged⟩
            · exact logsWithoutSeal_updateTranscript C s
                (ctrlPqKemResponse :: ciphertext)
            · intro isAccept
              change ctrlPqKemResponse = ctrlAccept at isAccept
              exact absurd isAccept (by decide)
            · intro id known
              have other :
                  opcodeOf (ctrlPqKemResponse :: ciphertext) ≠
                    ctrlAccept := by
                change ctrlPqKemResponse ≠ ctrlAccept
                decide
              exact inv.adopted id
                ((acceptedId_skip s.history.absorbed other).symm.trans known)
            · exact ResponderPhase.kemSent role rfl
                ((seals_updateTranscript C s _).trans fresh)

/-- The answer to IDENTITY_PROOF: the responder proves itself and locks. -/
theorem ResponderInv.buildLocked
    {s : Session} {sent : List Bytes} (inv : ResponderInv C s sent)
    (role : s.role = .responder) (fresh : s.seals = [])
    (buf : PacketBuf) (seq : UInt32) :
    ResponderInv C (handshakeBuildLocked C s buf seq).sess
      (sent ++ payloadsOf (handshakeBuildLocked C s buf seq).out.toList) := by
  have chained := inv.log.chained
  have sizes := length_proofSealed C chained labelLockProof
  have fits :
      (builtProof C s ctrlSessionLocked labelLockProof).length ≤ 1476 := by
    rw [builtProof, length_proofPayload _ (length_proofNonce C _) sizes.1
      sizes.2]
    decide
  have proved := chained_afterProof C chained ctrlSessionLocked
    labelLockProof
  have derived := lockSession_eq C proved
  rw [afterProof] at derived
  simp only [handshakeBuildLocked, handshakeBuildProof_eq C chained, derived,
    Option.toList_some]
  rw [payloadsOf_buildPacket _ _ _ fits]
  have log := inv.log.prove C fresh
  have key :
      lockKey C s.hs.kemSharedSecret s.history.absorbed =
        proofKey C labelLockProof s.hs.kemSharedSecret
          s.hs.transcriptHash := by
    rw [lockKey, chained.transcript]
  refine
    { log :=
        { chained := chained_lockedSession C log.chained
          sealed := log.sealed
          once := log.once
          proofs := log.proofs }
      opcodes := ?_
      accepts := ?_
      adopted := ?_
      phase := ?_ }
  · intro msg member
    rcases List.mem_append.mp member with old | added
    · exact inv.opcodes msg old
    · rw [List.mem_singleton.mp added]
      simp [builtProof, proofPayload]
  · intro msg member isAccept
    rcases List.mem_append.mp member with old | added
    · exact inv.accepts msg old isAccept
    · rw [List.mem_singleton.mp added] at isAccept
      change ctrlSessionLocked = ctrlAccept at isAccept
      exact absurd isAccept (by decide)
  · intro id known
    have other :
        opcodeOf (builtProof C s ctrlSessionLocked labelLockProof) ≠
          ctrlAccept := by
      change ctrlSessionLocked ≠ ctrlAccept
      decide
    exact inv.adopted id
      ((acceptedId_skip s.history.absorbed other).symm.trans known)
  · refine ResponderPhase.locked role rfl s.hs.kemSharedSecret
      s.history.absorbed (proofPlain C s)
      (proofSealed C s labelLockProof).1
      (proofSealed C s labelLockProof).2 ?_ ?_
    · refine ⟨chained.secret, ?_, ?_, rfl⟩
      · rw [key]
        rfl
      · change _ ∈ (afterProof C s ctrlSessionLocked
          labelLockProof).history.calls
        rw [← chained.transcript]
        simp [afterProof, updateTranscript, Session.log, proofCalls]
    · rw [key]
      exact seals_afterProof C ctrlSessionLocked labelLockProof fresh

/-- A session without a role accepts no message. -/
theorem ResponderInv.role_of_accepted
    {s : Session} {sent : List Bytes} (inv : ResponderInv C s sent)
    {msg : Bytes} (accepted : (processPayload C s msg).2 ≠ .error) :
    s.role = .responder := by
  cases inv.phase with
  | start role _ _ => exact role
  | kemSent role _ _ => exact role
  | locked role _ _ _ _ _ _ _ _ => exact role
  | reset role state =>
      exact absurd (processPayload_unassigned C role state msg) accepted

/-- The responder seals a proof only when it locks, and then it accepts no
further message. -/
theorem ResponderInv.seals_of_accepted
    {s : Session} {sent : List Bytes} (inv : ResponderInv C s sent)
    {msg : Bytes} (accepted : (processPayload C s msg).2 ≠ .error) :
    s.seals = [] := by
  cases inv.phase with
  | start _ _ fresh => exact fresh
  | kemSent _ _ fresh => exact fresh
  | locked _ state _ _ _ _ _ _ _ =>
      exact absurd (processPayload_locked C state msg) accepted
  | reset role state =>
      exact absurd (processPayload_unassigned C role state msg) accepted

/-- Whatever is delivered, the invariant of the responder is kept. -/
theorem ResponderInv.feed
    {s : Session} {sent : List Bytes} (inv : ResponderInv C s sent)
    (env : HsEnv) (msg : Bytes) (seq : UInt32) :
    ResponderInv C (feed C (responderReply C) env s msg seq).sess
      (sent ++
        payloadsOf (feed C (responderReply C) env s msg seq).out.toList) := by
  by_cases failed : (processPayload C s msg).2 = .error
  · simp only [PqComm.feed, failed]
    exact inv.error C msg
  have role := inv.role_of_accepted C failed
  have fresh := inv.seals_of_accepted C failed
  have accepts := processPayload_responder C role failed
  have chained := inv.log.chained.updateTranscript C msg
  have sealsKept := (seals_updateTranscript C s msg).trans fresh
  unfold PqComm.feed
  dsimp only
  generalize processPayload C s msg = result at accepts ⊢
  cases accepts with
  | hello opcode state =>
      have start : s.state = .handshakeStart := by
        cases inv.phase with
        | start _ state _ => exact state
        | kemSent _ other _ => simp [other] at state
        | locked _ other _ _ _ _ _ _ _ => simp [other] at state
        | reset other _ => simp [role] at other
      have next : ResponderInv C (updateTranscript C s msg) sent :=
        inv.absorb C chained (logsWithoutSeal_updateTranscript C s msg) rfl
          (by rw [opcode]; decide) rfl
          (ResponderPhase.start role start sealsKept)
      dsimp only [responderReply]
      cases env.buf with
      | none =>
          simpa [payloadsOf] using next
      | some buf =>
          rw [opcode]
          exact next.buildAccept C role start sealsKept env.sessionId buf seq
  | kemInit opcode state =>
      have next :
          ResponderInv C
            { updateTranscript C s msg with
              hs :=
                { (updateTranscript C s msg).hs with
                  peerPublicKey := (msg.drop 1).take kemPkSize } } sent := by
        refine inv.absorb C ?_ ?_ rfl (by rw [opcode]; decide) rfl ?_
        · exact ⟨chained.secret, chained.identity, chained.transcript,
            chained.logged⟩
        · exact logsWithoutSeal_updateTranscript C s msg
        · exact ResponderPhase.start role state sealsKept
      dsimp only [responderReply]
      cases env.buf with
      | none =>
          simpa [payloadsOf] using next
      | some buf =>
          rw [opcode]
          exact next.buildKemResponse C role sealsKept env.coins buf seq
  | identity opcode state long verified =>
      have checked := verifyProof_checked C (updateTranscript C s msg)
        labelIdProof s.hs.transcriptHash msg
      have logs := logsWithoutSeal_verifyProof C
        (logsWithoutSeal_updateTranscript C s msg) labelIdProof
        s.hs.transcriptHash msg
      have verifiedSeals := logs.seals.trans fresh
      have verifiedRole := checked.core.role.trans role
      have next := inv.absorb C (chained.proofChecked C checked) logs
        checked.absorbed (by rw [opcode]; decide) checked.core.sessionId
        (ResponderPhase.kemSent verifiedRole
          (checked.core.state.trans state) verifiedSeals)
      dsimp only [responderReply]
      cases env.buf with
      | none =>
          simpa [payloadsOf] using next
      | some buf =>
          rw [opcode]
          exact next.buildLocked C verifiedRole verifiedSeals buf seq
  | locked state =>
      cases inv.phase with
      | start _ other _ => simp [state] at other
      | kemSent _ other _ => simp [state] at other
      | locked _ other _ _ _ _ _ _ _ => simp [state] at other
      | reset other _ => simp [role] at other

end

end PqComm
