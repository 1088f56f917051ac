import PqComm.Handshake.Protocol

/-!
# What one handshake message can do

The runners look at a packet only through the payload bytes of its view, so
the analysis is about byte strings: `processPayload` is
`handshake_process_message` on a payload.  For each role there is one lemma
that lists what an accepted message can be and what it leaves behind, and
everything about runs is derived from these lists.
-/

namespace PqComm

open Lib

section

variable (C : CryptoSuite)

/-- The opcode of a payload. -/
def opcodeOf (msg : Bytes) : UInt8 :=
  msg.getD 0 0

/-- `handshake_process_message` as a function of the payload bytes. -/
def processPayload (s : Session) (msg : Bytes) : Session × HsResult :=
  if msg.length < 1 then
    (s.setError hsErrStateViolation, .error)
  else
    let opcode := opcodeOf msg
    if s.state = .locked ∧
        (opcode = ctrlPqKemInit ∨ opcode = ctrlPqKemResponse) then
      (s.setError hsErrStateViolation, .error)
    else if !verifyStateTransition s opcode then
      (s.setError hsErrStateViolation, .error)
    else
      processOpcode C (updateTranscript C s msg) s.hs.transcriptHash opcode
        msg

theorem handshakeProcessMessage_eq (s : Session) (v : PacketView) :
    handshakeProcessMessage C s v = processPayload C s v.payloadBytes := by
  unfold handshakeProcessMessage processPayload
  have length : v.payloadBytes.length = v.length := by
    simp [PacketView.payloadBytes]
  rw [length]
  by_cases empty : v.length < 1
  · simp only [empty, if_true]
  · have opcode : opcodeOf v.payloadBytes = v.payloadAt 0 := by
      rw [opcodeOf, PacketView.payloadBytes, getD_memSlice (by omega)]
      rfl
    rw [opcode]

/-- A runner on the payload bytes. -/
def feed
    (reply : HsEnv → Session → UInt8 → UInt32 → HsOut)
    (env : HsEnv) (s : Session) (msg : Bytes) (seq : UInt32) : HsOut :=
  let processed := processPayload C s msg
  match processed.2 with
  | .error => { sess := sessionReset processed.1, seq := seq }
  | .complete => { sess := processed.1, seq := seq }
  | .needMore => reply env processed.1 (opcodeOf msg) seq

theorem handshakeRun_eq
    (reply : HsEnv → Session → UInt8 → UInt32 → HsOut)
    (env : HsEnv) (s : Session) (p : PacketBuf) (seq : UInt32) :
    handshakeRun C reply env s p seq =
      match packetParse p with
      | none => { sess := s, seq := seq }
      | some v => feed C reply env s v.payloadBytes seq := by
  unfold handshakeRun
  cases packetParse p with
  | none =>
      rfl
  | some v =>
      dsimp only [feed]
      rw [handshakeProcessMessage_eq]
      by_cases empty : v.payloadBytes.length < 1
      · simp [processPayload, empty]
      · have opcode : opcodeOf v.payloadBytes = v.payloadAt 0 := by
          rw [PacketView.payloadBytes, length_memSlice] at empty
          rw [opcodeOf, PacketView.payloadBytes, getD_memSlice (by omega)]
          rfl
        cases (processPayload C s v.payloadBytes).2 <;> simp [opcode]

/-! ## Locked and reset sessions accept nothing -/

/-- No opcode is expected in a locked session. -/
theorem verifyStateTransition_locked
    {s : Session} (locked : s.state = .locked) (opcode : UInt8) :
    verifyStateTransition s opcode = false := by
  unfold verifyStateTransition
  simp [locked]

theorem processPayload_locked
    {s : Session} (locked : s.state = .locked) (msg : Bytes) :
    (processPayload C s msg).2 = .error := by
  unfold processPayload
  split
  · rfl
  · dsimp only
    split
    · rfl
    · rw [verifyStateTransition_locked locked]
      rfl

/-- A session that was reset has no role and answers every message with an
error. -/
theorem processPayload_unassigned
    {s : Session} (role : s.role = .unassigned) (idle : s.state = .idle)
    (msg : Bytes) :
    (processPayload C s msg).2 = .error := by
  unfold processPayload
  split
  · rfl
  · dsimp only
    split
    · rfl
    · split
      · rfl
      · rename_i expected
        generalize opcodeOf msg = opcode at expected ⊢
        simp only [verifyStateTransition, role, idle] at expected
        by_cases hello : opcode = ctrlHello
        · simp [processOpcode, updateTranscript, role, hello]
        · simp [hello] at expected

/-! ## Accepted messages -/

/-- The session of `processPayload` after an accepted message is the one
`processOpcode` leaves, and the opcode was expected. -/
theorem processPayload_accepted
    {s : Session} {msg : Bytes}
    (accepted : (processPayload C s msg).2 ≠ .error) :
    1 ≤ msg.length ∧ verifyStateTransition s (opcodeOf msg) = true ∧
      processPayload C s msg =
        processOpcode C (updateTranscript C s msg) s.hs.transcriptHash
          (opcodeOf msg) msg := by
  unfold processPayload at accepted ⊢
  split
  · rename_i empty
    simp [empty] at accepted
  · rename_i nonempty
    rw [if_neg nonempty] at accepted
    dsimp only at accepted ⊢
    split
    · rename_i pq
      rw [if_pos pq] at accepted
      exact absurd rfl accepted
    · rename_i notPq
      rw [if_neg notPq] at accepted
      cases expected : verifyStateTransition s (opcodeOf msg) with
      | false =>
          simp [expected] at accepted
      | true =>
          exact ⟨by omega, rfl, by simp⟩

/-- What `processOpcode` can do to the session: it writes fields of the
handshake other than the identity key, checks a proof, or checks one and
locks. -/
theorem processOpcode_session
    (s : Session) (pre : Bytes) (opcode : UInt8) (msg : Bytes) :
    ((processOpcode C s pre opcode msg).1.history = s.history ∧
        (processOpcode C s pre opcode msg).1.hs.ourIdentityKey =
          s.hs.ourIdentityKey) ∨
      ∃ label,
        (processOpcode C s pre opcode msg).1 =
            (verifyProof C s label pre msg).1 ∨
          lockSession C (verifyProof C s label pre msg).1 =
            some (processOpcode C s pre opcode msg).1 := by
  unfold processOpcode
  by_cases hello : opcode = ctrlHello
  · rw [if_pos hello]
    split <;> exact Or.inl ⟨rfl, rfl⟩
  rw [if_neg hello]
  by_cases accept : opcode = ctrlAccept
  · rw [if_pos accept]
    split <;> exact Or.inl ⟨rfl, rfl⟩
  rw [if_neg accept]
  by_cases init : opcode = ctrlPqKemInit
  · rw [if_pos init]
    split <;> exact Or.inl ⟨rfl, rfl⟩
  rw [if_neg init]
  by_cases response : opcode = ctrlPqKemResponse
  · rw [if_pos response]
    split
    · exact Or.inl ⟨rfl, rfl⟩
    · split <;> exact Or.inl ⟨rfl, rfl⟩
  rw [if_neg response]
  by_cases identity : opcode = ctrlIdentityProof
  · rw [if_pos identity]
    split
    · exact Or.inl ⟨rfl, rfl⟩
    · exact Or.inr ⟨labelIdProof, Or.inl rfl⟩
  rw [if_neg identity]
  by_cases lock : opcode = ctrlSessionLocked
  · rw [if_pos lock]
    split
    · exact Or.inl ⟨rfl, rfl⟩
    · dsimp only
      split
      · exact Or.inr ⟨labelLockProof, Or.inl rfl⟩
      · split
        · exact Or.inr ⟨labelLockProof, Or.inl rfl⟩
        · rename_i derived
          exact Or.inr ⟨labelLockProof, Or.inr derived⟩
  rw [if_neg lock]
  exact Or.inl ⟨rfl, rfl⟩

/-- What the verification of a proof leaves alone, and what it records. -/
structure ProofChecked (s : Session) (label pre msg : Bytes) (s' : Session) :
    Prop where
  core : SameCore s s'
  secret : s'.hs.kemSharedSecret = s.hs.kemSharedSecret
  identity : s'.hs.ourIdentityKey = s.hs.ourIdentityKey
  kemType : s'.hs.kemType = s.hs.kemType
  transcript : s'.hs.transcriptHash = s.hs.transcriptHash
  absorbed : s'.history.absorbed = s.history.absorbed
  calls :
    s'.history.calls =
      s.history.calls ++
        [.hash (proofKeyInput label s.hs.kemSharedSecret pre),
          .hash
            (labelNonce ++ proofKey C label s.hs.kemSharedSecret pre),
          .unseal (proofKey C label s.hs.kemSharedSecret pre)
            (proofNonce C (proofKey C label s.hs.kemSharedSecret pre))
            ((msg.drop 13).take 64) ((msg.drop 77).take 16)]

theorem verifyProof_checked (s : Session) (label pre msg : Bytes) :
    ProofChecked C s label pre msg (verifyProof C s label pre msg).1 := by
  unfold verifyProof
  dsimp only [deriveIdProofKey]
  split
  · exact ⟨⟨rfl, rfl, rfl, rfl⟩, rfl, rfl, rfl, rfl, rfl, rfl⟩
  · split
    · exact ⟨⟨rfl, rfl, rfl, rfl⟩, rfl, rfl, rfl, rfl, rfl, rfl⟩
    · exact ⟨⟨rfl, rfl, rfl, rfl⟩, rfl, rfl, rfl, rfl, rfl, rfl⟩

/-- A proof that verifies was opened. -/
theorem verifyProof_opened
    {s : Session} {label pre msg : Bytes}
    (verified : (verifyProof C s label pre msg).2 = true) :
    ∃ plain,
      aeadDecrypt C (proofKey C label s.hs.kemSharedSecret pre)
        (proofNonce C (proofKey C label s.hs.kemSharedSecret pre)) []
        ((msg.drop 13).take 64) ((msg.drop 77).take 16) = some plain := by
  unfold verifyProof at verified
  dsimp only [deriveIdProofKey] at verified
  split at verified
  · cases verified
  · rename_i plain opened
    exact ⟨plain, opened⟩

/-- The messages an initiator accepts. -/
inductive InitiatorAccepts (s : Session) (msg : Bytes) :
    Session × HsResult → Prop where
  | accept
      (opcode : opcodeOf msg = ctrlAccept) (state : s.state = .handshakeStart)
      (id : UInt64)
      (adopted :
        9 ≤ msg.length → id = UInt64.ofNat (leNat ((msg.drop 1).take 8)))
      (kept : ¬ 9 ≤ msg.length → id = s.sessionId) :
      InitiatorAccepts s msg
        ({ updateTranscript C s msg with sessionId := id }, .needMore)
  | kemResponse
      (opcode : opcodeOf msg = ctrlPqKemResponse)
      (state : s.state = .pqKemInitSent) (secret : Bytes)
      (size : secret.length = 32) :
      InitiatorAccepts s msg
        ({ updateTranscript C s msg with
            hs :=
              { (updateTranscript C s msg).hs with
                kemSharedSecret := secret } }, .needMore)
  | identity
      (state : s.state = .pqKemResponseSent) (result : Session × HsResult) :
      InitiatorAccepts s msg result
  | locked
      (opcode : opcodeOf msg = ctrlSessionLocked)
      (state : s.state = .identityProofSent) (long : 93 ≤ msg.length)
      (verified :
        (verifyProof C (updateTranscript C s msg) labelLockProof
          s.hs.transcriptHash msg).2 = true)
      (s' : Session)
      (derived :
        lockSession C
            (verifyProof C (updateTranscript C s msg) labelLockProof
              s.hs.transcriptHash msg).1 = some s') :
      InitiatorAccepts s msg (s', .complete)

theorem processPayload_initiator
    {s : Session} {msg : Bytes} (role : s.role = .initiator)
    (accepted : (processPayload C s msg).2 ≠ .error) :
    InitiatorAccepts C s msg (processPayload C s msg) := by
  obtain ⟨_, expected, result⟩ := processPayload_accepted C accepted
  rw [result] at accepted ⊢
  generalize opcode : opcodeOf msg = op at expected accepted ⊢
  simp only [verifyStateTransition, role, if_true] at expected
  by_cases accept : op = ctrlAccept
  · subst accept
    have state : s.state = .handshakeStart := by
      simpa using expected
    have notHello : ctrlAccept ≠ ctrlHello := by
      decide
    simp only [processOpcode, if_neg notHello, if_true]
    split
    · rename_i long
      exact InitiatorAccepts.accept opcode state _ (fun _ => rfl)
        (fun short => absurd long short)
    · rename_i short
      exact InitiatorAccepts.accept opcode state s.sessionId
        (fun long => absurd long short) (fun _ => rfl)
  rw [if_neg accept] at expected
  by_cases response : op = ctrlPqKemResponse
  · subst response
    have state : s.state = .pqKemInitSent := by
      simpa using expected
    simp only [processOpcode, (by decide : ctrlPqKemResponse ≠ ctrlHello),
      (by decide : ctrlPqKemResponse ≠ ctrlPqKemInit), accept, if_false,
      if_true] at accepted ⊢
    split
    · rename_i short
      simp [short] at accepted
    · rename_i long
      rw [if_neg long] at accepted
      cases opened :
          C.kemDecaps (updateTranscript C s msg).hs.kemSecretKey
            ((msg.drop 1).take kemCtSize) with
      | none =>
          rw [opened] at accepted
          exact absurd rfl accepted
      | some secret =>
          exact InitiatorAccepts.kemResponse opcode state secret
            (C.length_kemDecaps _ _ _ opened)
  rw [if_neg response] at expected
  by_cases identity : op = ctrlIdentityProof
  · subst identity
    exact InitiatorAccepts.identity (by simpa using expected) _
  rw [if_neg identity] at expected
  by_cases locked : op = ctrlSessionLocked
  · subst locked
    have state : s.state = .identityProofSent := by
      simpa using expected
    simp only [processOpcode, (by decide : ctrlSessionLocked ≠ ctrlHello),
      (by decide : ctrlSessionLocked ≠ ctrlPqKemInit), accept, response,
      identity, if_false, if_true] at accepted ⊢
    split
    · rename_i short
      simp [short] at accepted
    · rename_i long
      rw [if_neg long] at accepted
      cases verified :
          (verifyProof C (updateTranscript C s msg) labelLockProof
            s.hs.transcriptHash msg).2 with
      | false =>
          simp [verified] at accepted
      | true =>
          cases derived :
              lockSession C
                (verifyProof C (updateTranscript C s msg) labelLockProof
                  s.hs.transcriptHash msg).1 with
          | none =>
              simp [verified, derived] at accepted
          | some s' =>
              exact InitiatorAccepts.locked opcode state
                (by simpa [proofLength] using long) verified s' derived
  · simp [locked] at expected

/-- The messages a responder accepts. -/
inductive ResponderAccepts (s : Session) (msg : Bytes) :
    Session × HsResult → Prop where
  | hello
      (opcode : opcodeOf msg = ctrlHello)
      (state : s.state = .idle ∨ s.state = .handshakeStart) :
      ResponderAccepts s msg (updateTranscript C s msg, .needMore)
  | kemInit
      (opcode : opcodeOf msg = ctrlPqKemInit)
      (state : s.state = .handshakeStart) :
      ResponderAccepts s msg
        ({ updateTranscript C s msg with
            hs :=
              { (updateTranscript C s msg).hs with
                peerPublicKey := (msg.drop 1).take kemPkSize } }, .needMore)
  | identity
      (opcode : opcodeOf msg = ctrlIdentityProof)
      (state : s.state = .pqKemResponseSent) (long : 93 ≤ msg.length)
      (verified :
        (verifyProof C (updateTranscript C s msg) labelIdProof
          s.hs.transcriptHash msg).2 = true) :
      ResponderAccepts s msg
        ((verifyProof C (updateTranscript C s msg) labelIdProof
          s.hs.transcriptHash msg).1, .needMore)
  | locked
      (state : s.state = .identityProofSent) (result : Session × HsResult) :
      ResponderAccepts s msg result

theorem processPayload_responder
    {s : Session} {msg : Bytes} (role : s.role = .responder)
    (accepted : (processPayload C s msg).2 ≠ .error) :
    ResponderAccepts C s msg (processPayload C s msg) := by
  obtain ⟨_, expected, result⟩ := processPayload_accepted C accepted
  rw [result] at accepted ⊢
  generalize opcode : opcodeOf msg = op at expected accepted ⊢
  simp only [verifyStateTransition, role, reduceCtorEq, if_false] at expected
  by_cases hello : op = ctrlHello
  · subst hello
    have state : s.state = .idle ∨ s.state = .handshakeStart := by
      simpa using expected
    have keeps : (updateTranscript C s msg).role = .responder := role
    simp only [processOpcode, keeps, if_true]
    exact ResponderAccepts.hello opcode state
  rw [if_neg hello] at expected
  by_cases init : op = ctrlPqKemInit
  · subst init
    have state : s.state = .handshakeStart := by
      simpa using expected
    simp only [processOpcode, (by decide : ctrlPqKemInit ≠ ctrlAccept),
      hello, if_false, if_true] at accepted ⊢
    split
    · rename_i short
      simp [short] at accepted
    · exact ResponderAccepts.kemInit opcode state
  rw [if_neg init] at expected
  by_cases identity : op = ctrlIdentityProof
  · subst identity
    have state : s.state = .pqKemResponseSent := by
      simpa using expected
    simp only [processOpcode, (by decide : ctrlIdentityProof ≠ ctrlAccept),
      (by decide : ctrlIdentityProof ≠ ctrlPqKemResponse), hello, init,
      if_false, if_true] at accepted ⊢
    split
    · rename_i short
      simp [short] at accepted
    · rename_i long
      rw [if_neg long] at accepted
      cases verified :
          (verifyProof C (updateTranscript C s msg) labelIdProof
            s.hs.transcriptHash msg).2 with
      | false =>
          simp [verified] at accepted
      | true =>
          exact ResponderAccepts.identity opcode state
            (by simpa [proofLength] using long) verified
  rw [if_neg identity] at expected
  by_cases locked : op = ctrlSessionLocked
  · subst locked
    exact ResponderAccepts.locked (by simpa using expected) _
  · simp [locked] at expected

end

end PqComm
