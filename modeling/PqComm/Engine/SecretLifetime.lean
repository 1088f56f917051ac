import PqComm.Engine.Emission
import PqComm.Engine.SessionMoves

/-!
# How long secrets live

A session holds three kinds of secrets: the session and channel keys, the KEM
secret key and the KEM shared secret.  Each belongs to some states only.  The
table below says which, and in every run of the engine, whatever is called and
whatever arrives, no slot of the pool holds a secret outside of it.  A session
that was reset, given up or disconnected, or that no peer has answered yet,
holds none.
-/

namespace PqComm

open Lib

/-! ## The table -/

/-- The states in which `keys` is filled. -/
def SessionState.holdsKeys : SessionState → Bool
  | .pqKemResponseSent | .locked => true
  | _ => false

/-- The states in which `hs.kem_secret_key` is filled; on a locked session it
is that of a rekey. -/
def SessionState.holdsSecretKey : SessionState → Bool
  | .pqKemInitSent | .identityProofSent | .locked => true
  | _ => false

/-- The states in which `hs.kem_shared_secret` is filled. -/
def SessionState.holdsSharedSecret : SessionState → Bool
  | .pqKemInitSent | .pqKemResponseSent | .identityProofSent => true
  | _ => false

/-- The session holds the secrets of its state only. -/
structure SecretsDue (s : Session) : Prop where
  keys : s.state.holdsKeys = false → s.keys = {}
  secretKey :
    s.state.holdsSecretKey = false → s.hs.kemSecretKey = zeros kemSkSize
  sharedSecret :
    s.state.holdsSharedSecret = false →
      s.hs.kemSharedSecret = zeros kemSsSize

/-- The state and the secrets of `s'` are those of `s`. -/
structure SameSecrets (s s' : Session) : Prop where
  state : s'.state = s.state
  keys : s'.keys = s.keys
  secretKey : s'.hs.kemSecretKey = s.hs.kemSecretKey
  sharedSecret : s'.hs.kemSharedSecret = s.hs.kemSharedSecret

theorem SecretsDue.congr
    {s s' : Session} (due : SecretsDue s) (same : SameSecrets s s') :
    SecretsDue s' where
  keys outside := by
    rw [same.state] at outside
    rw [same.keys]
    exact due.keys outside
  secretKey outside := by
    rw [same.state] at outside
    rw [same.secretKey]
    exact due.secretKey outside
  sharedSecret outside := by
    rw [same.state] at outside
    rw [same.sharedSecret]
    exact due.sharedSecret outside

theorem Untouched.sameSecrets
    {s s' : Session} (same : Untouched s s') : SameSecrets s s' where
  state := same.state
  keys := same.keys
  secretKey := by rw [same.hs]
  sharedSecret := by rw [same.hs]

/-- A session without secrets is fine in every state. -/
theorem secretsDue_of_empty
    {s : Session} (keys : s.keys = {})
    (secretKey : s.hs.kemSecretKey = zeros kemSkSize)
    (sharedSecret : s.hs.kemSharedSecret = zeros kemSsSize) :
    SecretsDue s :=
  ⟨fun _ => keys, fun _ => secretKey, fun _ => sharedSecret⟩

theorem secretsDue_sessionReset (s : Session) : SecretsDue (sessionReset s) :=
  secretsDue_of_empty rfl rfl rfl

/-! ## The handshake -/

section

variable (C : CryptoSuite) {s : Session}

theorem sameSecrets_updateTranscript (msg : Bytes) :
    SameSecrets s (updateTranscript C s msg) :=
  ⟨rfl, rfl, rfl, rfl⟩

theorem SameSecrets.trans
    {s' s'' : Session} (first : SameSecrets s s')
    (second : SameSecrets s' s'') : SameSecrets s s'' where
  state := second.state.trans first.state
  keys := second.keys.trans first.keys
  secretKey := second.secretKey.trans first.secretKey
  sharedSecret := second.sharedSecret.trans first.sharedSecret

theorem sameSecrets_verifyProof (label pre msg : Bytes) :
    SameSecrets s (verifyProof C s label pre msg).1 := by
  unfold verifyProof
  dsimp only [deriveIdProofKey]
  split
  · exact ⟨rfl, rfl, rfl, rfl⟩
  · split
    · exact ⟨rfl, rfl, rfl, rfl⟩
    · exact ⟨rfl, rfl, rfl, rfl⟩

theorem secretsDue_lockSession
    {s' : Session} (derived : lockSession C s = some s') : SecretsDue s' := by
  obtain ⟨material, -, rfl⟩ := Option.map_eq_some_iff.mp derived
  exact ⟨nofun, nofun, fun _ => rfl⟩

/-- An opcode that `verify_state_transition` lets through comes in the state
before it. -/
theorem state_of_verifyStateTransition
    {opcode : UInt8} (expected : verifyStateTransition s opcode = true) :
    (opcode = ctrlAccept → s.state = .handshakeStart) ∧
      (opcode = ctrlPqKemInit → s.state = .handshakeStart) ∧
      (opcode = ctrlPqKemResponse → s.state = .pqKemInitSent) := by
  unfold verifyStateTransition at expected
  refine ⟨?_, ?_, ?_⟩
  · rintro rfl
    split at expected
    · simpa [ctrlAccept] using expected
    · exact absurd expected Bool.false_ne_true
  · rintro rfl
    split at expected
    · exact absurd expected Bool.false_ne_true
    · simpa [ctrlPqKemInit, ctrlHello] using expected
  · rintro rfl
    split at expected
    · simpa [ctrlPqKemResponse, ctrlAccept] using expected
    · exact absurd expected Bool.false_ne_true

/-- Of a message that is not refused: the session it leaves has its secrets
due, and one that waits for an answer is in the state before it. -/
theorem secretsDue_processOpcode
    (due : SecretsDue s) (pre msg : Bytes) {opcode : UInt8}
    (expected : verifyStateTransition s opcode = true)
    (taken : (processOpcode C s pre opcode msg).2 ≠ .error) :
    SecretsDue (processOpcode C s pre opcode msg).1 ∧
      ((processOpcode C s pre opcode msg).2 = .needMore →
        (processOpcode C s pre opcode msg).1.state = s.state) := by
  unfold processOpcode at taken ⊢
  by_cases hello : opcode = ctrlHello
  · simp only [hello, if_true] at taken ⊢
    split at taken
    · rename_i role
      simp only [role, if_true]
      exact ⟨due, fun _ => trivial⟩
    · exact absurd rfl taken
  simp only [hello, if_false] at taken ⊢
  by_cases accept : opcode = ctrlAccept
  · simp only [accept, if_true]
    split
    · exact ⟨due.congr ⟨rfl, rfl, rfl, rfl⟩, fun _ => rfl⟩
    · exact ⟨due, fun _ => rfl⟩
  simp only [accept, if_false] at taken ⊢
  by_cases kemInit : opcode = ctrlPqKemInit
  · simp only [kemInit, if_true]
    split
    · exact ⟨due, fun _ => rfl⟩
    · exact ⟨due.congr ⟨rfl, rfl, rfl, rfl⟩, fun _ => rfl⟩
  simp only [kemInit, if_false] at taken ⊢
  by_cases kemResponse : opcode = ctrlPqKemResponse
  · have state := (state_of_verifyStateTransition expected).2.2 kemResponse
    simp only [kemResponse, if_true]
    split
    · exact ⟨due, fun _ => rfl⟩
    · split
      · exact ⟨due, fun _ => rfl⟩
      · refine ⟨⟨due.keys, due.secretKey, ?_⟩, fun _ => rfl⟩
        intro outside
        -- The initiator keeps the shared secret until its own proof is sent.
        rw [show ({ s with hs := _ } : Session).state = s.state from rfl,
          state] at outside
        cases outside
  simp only [kemResponse, if_false] at taken ⊢
  by_cases identity : opcode = ctrlIdentityProof
  · simp only [identity, if_true]
    split
    · exact ⟨due, fun _ => rfl⟩
    · have same := sameSecrets_verifyProof C (s := s) labelIdProof pre msg
      exact ⟨due.congr same, fun _ => same.state⟩
  simp only [identity, if_false] at taken ⊢
  by_cases locked : opcode = ctrlSessionLocked
  · simp only [locked, if_true] at taken ⊢
    split at taken
    · exact absurd rfl taken
    · rename_i long
      simp only [long, if_false]
      split at taken
      · exact absurd rfl taken
      · rename_i verified
        simp only [verified]
        cases derived :
            lockSession C (verifyProof C s labelLockProof pre msg).1 with
        | none =>
            simp only [derived] at taken
            exact absurd rfl taken
        | some s' =>
            exact ⟨secretsDue_lockSession C derived, fun more => by cases more⟩
  simp only [locked, if_false] at taken
  exact absurd rfl taken

/-! ## Answers -/

theorem secretsDue_handshakeBuildKemInit
    (due : SecretsDue s) (state : s.state = .handshakeStart)
    (coins : Bytes) (buf : PacketBuf) (seq : UInt32) :
    SecretsDue (handshakeBuildKemInit C s coins buf seq).sess := by
  have empty : s.keys = {} := due.keys (by rw [state]; rfl)
  unfold handshakeBuildKemInit
  split
  · exact due
  · cases C.kemKeypair coins with
    | none =>
        exact ⟨due.keys, fun _ => rfl, due.sharedSecret⟩
    | some pair =>
        exact ⟨fun _ => empty, nofun, nofun⟩

theorem secretsDue_handshakeBuildKemResponse
    (due : SecretsDue s) (state : s.state = .handshakeStart)
    (coins : Bytes) (buf : PacketBuf) (seq : UInt32) :
    SecretsDue (handshakeBuildKemResponse C s coins buf seq).sess := by
  have empty : s.hs.kemSecretKey = zeros kemSkSize :=
    due.secretKey (by rw [state]; rfl)
  unfold handshakeBuildKemResponse
  split
  · exact due
  · cases C.kemEncaps s.hs.peerPublicKey coins with
    | none =>
        exact due
    | some pair =>
        obtain ⟨ciphertext, secret⟩ := pair
        dsimp only
        cases deriveSessionKeys C secret s.hs.transcriptHash with
        | none =>
            exact due
        | some material =>
            exact ⟨nofun, fun _ => empty, nofun⟩

theorem sameSecrets_handshakeBuildProof
    (opcode : UInt8) (label : Bytes) (buf : PacketBuf) (seq : UInt32) :
    SameSecrets s (handshakeBuildProof C s opcode label buf seq).sess := by
  unfold handshakeBuildProof
  dsimp only [deriveIdProofKey]
  split
  · exact ⟨rfl, rfl, rfl, rfl⟩
  · exact ⟨rfl, rfl, rfl, rfl⟩

theorem secretsDue_handshakeBuildIdentity
    (due : SecretsDue s) (state : s.state = .pqKemInitSent)
    (buf : PacketBuf) (seq : UInt32) :
    SecretsDue (handshakeBuildIdentity C s buf seq).sess := by
  have same :=
    sameSecrets_handshakeBuildProof C (s := s) ctrlIdentityProof labelIdProof
      buf seq
  have empty : s.keys = {} := due.keys (by rw [state]; rfl)
  unfold handshakeBuildIdentity
  dsimp only
  split
  · exact due.congr same
  · exact ⟨fun _ => same.keys.trans empty, nofun, nofun⟩

theorem secretsDue_handshakeBuildLocked
    (due : SecretsDue s) (buf : PacketBuf) (seq : UInt32) :
    SecretsDue (handshakeBuildLocked C s buf seq).sess := by
  have same :=
    sameSecrets_handshakeBuildProof C (s := s) ctrlSessionLocked
      labelLockProof buf seq
  unfold handshakeBuildLocked
  dsimp only
  split
  · exact due.congr same
  · cases derived :
        lockSession C
          (handshakeBuildProof C s ctrlSessionLocked labelLockProof buf
            seq).sess with
    | none =>
        exact due.congr same
    | some s' =>
        exact secretsDue_lockSession C derived

theorem secretsDue_initiatorReply
    (due : SecretsDue s) {opcode : UInt8}
    (accept : opcode = ctrlAccept → s.state = .handshakeStart)
    (kemResponse : opcode = ctrlPqKemResponse → s.state = .pqKemInitSent)
    (env : HsEnv) (seq : UInt32) :
    SecretsDue (initiatorReply C env s opcode seq).sess := by
  unfold initiatorReply
  split
  · exact due
  · split
    · rename_i known
      exact secretsDue_handshakeBuildKemInit C due (accept known) _ _ _
    · split
      · rename_i known
        exact secretsDue_handshakeBuildIdentity C due (kemResponse known) _ _
      · exact due

theorem secretsDue_responderReply
    (due : SecretsDue s) {opcode : UInt8}
    (kemInit : opcode = ctrlPqKemInit → s.state = .handshakeStart)
    (env : HsEnv) (seq : UInt32) :
    SecretsDue (responderReply C env s opcode seq).sess := by
  unfold responderReply
  split
  · exact due
  · split
    · exact due.congr ⟨rfl, rfl, rfl, rfl⟩
    · split
      · rename_i known
        exact secretsDue_handshakeBuildKemResponse C due (kemInit known) _ _ _
      · split
        · exact secretsDue_handshakeBuildLocked C due _ _
        · exact due

/-- A message that is not refused was expected, and its opcode decides. -/
theorem handshakeProcessMessage_taken
    {v : PacketView} (taken : (handshakeProcessMessage C s v).2 ≠ .error) :
    verifyStateTransition s (v.payloadAt 0) = true ∧
      handshakeProcessMessage C s v =
        processOpcode C (updateTranscript C s v.payloadBytes)
          s.hs.transcriptHash (v.payloadAt 0) v.payloadBytes := by
  unfold handshakeProcessMessage at taken ⊢
  dsimp only at taken ⊢
  split at taken
  · exact absurd rfl taken
  rename_i long
  split at taken
  · exact absurd rfl taken
  rename_i unlocked
  split at taken
  · exact absurd rfl taken
  rename_i expected
  rw [if_neg long, if_neg unlocked, if_neg expected]
  refine ⟨?_, rfl⟩
  cases allowed : verifyStateTransition s (v.payloadAt 0) with
  | false =>
      rw [allowed] at expected
      exact absurd rfl expected
  | true =>
      rfl

theorem secretsDue_handshakeProcessMessage
    (due : SecretsDue s) {v : PacketView}
    (taken : (handshakeProcessMessage C s v).2 ≠ .error) :
    SecretsDue (handshakeProcessMessage C s v).1 ∧
      ((handshakeProcessMessage C s v).2 = .needMore →
        (handshakeProcessMessage C s v).1.state = s.state) := by
  obtain ⟨expected, step⟩ := handshakeProcessMessage_taken C taken
  have same := sameSecrets_updateTranscript C (s := s) v.payloadBytes
  rw [step] at taken ⊢
  exact secretsDue_processOpcode C (due.congr same) _ _ expected taken

/-- Either runner, on a session of either role. -/
theorem secretsDue_handshakeRun
    (reply : HsEnv → Session → UInt8 → UInt32 → HsOut)
    (replies :
      ∀ (t : Session) (opcode : UInt8), SecretsDue t →
        (opcode = ctrlAccept → t.state = .handshakeStart) →
        (opcode = ctrlPqKemInit → t.state = .handshakeStart) →
        (opcode = ctrlPqKemResponse → t.state = .pqKemInitSent) →
        ∀ env seq, SecretsDue (reply env t opcode seq).sess)
    (due : SecretsDue s) (env : HsEnv) (p : PacketBuf) (seq : UInt32) :
    SecretsDue (handshakeRun C reply env s p seq).sess := by
  unfold handshakeRun
  cases packetParse p with
  | none =>
      exact due
  | some v =>
      dsimp only
      cases verdict : (handshakeProcessMessage C s v).2 with
      | error =>
          exact secretsDue_sessionReset _
      | complete =>
          exact
            (secretsDue_handshakeProcessMessage C due
              (by rw [verdict]; exact nofun)).1
      | needMore =>
          have taken : (handshakeProcessMessage C s v).2 ≠ .error := by
            rw [verdict]
            exact nofun
          obtain ⟨due', state⟩ :=
            secretsDue_handshakeProcessMessage C due taken
          have before :=
            state_of_verifyStateTransition
              (handshakeProcessMessage_taken C taken).1
          rw [← state verdict] at before
          exact replies _ _ due' before.1 before.2.1 before.2.2 env seq

/-! ## A locked session -/

theorem secretsDue_rekeyHandle
    (due : SecretsDue s) (env : RekeyEnv) (p : PacketBuf) (seq : UInt32) :
    SecretsDue (rekeyHandle C env p s seq).sess := by
  have done := rekeyHandle_cases C env p s seq
  generalize rekeyHandle C env p s seq = result at done
  cases done with
  | ignored ret idle =>
      exact due
  | switched locked opcode epoch ciphertext secret made ret out answer =>
      have state : (s.switched C secret).state = .locked := locked
      refine ⟨?_, ?_, ?_⟩
      · rw [state]
        exact nofun
      · rw [state]
        exact nofun
      · intro _
        exact due.sharedSecret (by rw [locked]; rfl)
  | confirmed locked opcode epoch secret opened =>
      refine ⟨?_, fun _ => rfl, fun outside => due.sharedSecret outside⟩
      intro outside
      rw [show ({ s.switched C secret with hs := _ } : Session).state =
        s.state from rfl, locked] at outside
      cases outside

theorem secretsDue_lockedControl
    (due : SecretsDue s) (env : HandlerEnv) (p : PacketBuf) (seq : UInt32) :
    SecretsDue (lockedControl C env p s seq).sess := by
  have heard :
      SecretsDue (heartbeatHandle p s env.heartbeatBuf seq env.now).sess :=
    due.congr (untouched_heartbeatHandle p s _ seq _).sameSecrets
  unfold lockedControl
  refine CtlOut.orElse_cases (P := fun r => SecretsDue r.sess) _ _
    (fun _ => heard) fun _ => ?_
  generalize (heartbeatHandle p s env.heartbeatBuf seq env.now).sess = t
    at heard ⊢
  generalize (heartbeatHandle p s env.heartbeatBuf seq env.now).seq = seq
  have reached :
      SecretsDue (reconnectHandle p t env.reconnectBuf seq env.now).sess :=
    heard.congr (untouched_reconnectHandle p t _ seq _).sameSecrets
  refine CtlOut.orElse_cases (P := fun r => SecretsDue r.sess) _ _
    (fun _ => reached) fun _ => ?_
  generalize (reconnectHandle p t env.reconnectBuf seq env.now).sess = t
    at reached ⊢
  generalize (reconnectHandle p _ env.reconnectBuf seq env.now).seq = seq
  have hopped : SecretsDue (portHopStep env p t seq).sess :=
    reached.congr (untouched_portHopStep seq).sameSecrets
  refine CtlOut.orElse_cases (P := fun r => SecretsDue r.sess) _ _
    (fun _ => hopped) fun _ => ?_
  generalize (portHopStep env p t seq).sess = t at hopped ⊢
  generalize (portHopStep env p _ seq).seq = seq
  have rekeyed := secretsDue_rekeyHandle C hopped env.rekey p seq
  refine CtlOut.orElse_cases (P := fun r => SecretsDue r.sess) _ _
    (fun _ => rekeyed) fun _ => ?_
  unfold lockedInline
  split
  · exact rekeyed
  · split
    · exact rekeyed
    · split
      · exact rekeyed
      · exact rekeyed

/-- A session that is given up has forgotten its secrets. -/
theorem secretsDue_reconnectTick
    (due : SecretsDue s) (buf : Option PacketBuf) (seq : UInt32)
    (now : UInt64) : SecretsDue (reconnectTick s buf seq now).sess := by
  have asked (t : Session) (due : SecretsDue t) :
      SecretsDue (reconnectSendRequest t buf seq).sess := by
    cases buf with
    | none => exact due
    | some buf => exact due.congr ⟨rfl, rfl, rfl, rfl⟩
  unfold reconnectTick
  split
  · exact due
  · split
    · exact due
    · split
      · exact secretsDue_of_empty rfl rfl rfl
      · split
        · exact asked _ (due.congr ⟨rfl, rfl, rfl, rfl⟩)
        · split
          · exact asked _ due
          · exact due

/-! ## Every run -/

theorem sameSecrets_setupPaths
    (e : Engine) (s : Session) (peerAddr : Bytes) (port : UInt16) :
    SameSecrets s (e.setupPaths s peerAddr port) := by
  have registered (addr : Bytes) :
      SameSecrets s (sessionRegisterPath s 1 addr) :=
    (untouched_registerPath s 1 addr).sameSecrets
  unfold Engine.setupPaths
  split
  · have same := registered (setSinPort peerAddr (htons (port + 2)))
    exact ⟨same.state, same.keys, same.secretKey, same.sharedSecret⟩
  · exact ⟨rfl, rfl, rfl, rfl⟩

theorem secretsDue_move
    (s s' : Session) (move : SessionMove C s s') (due : SecretsDue s) :
    SecretsDue s' := by
  cases move with
  | allocated _ addr =>
      exact secretsDue_of_empty rfl rfl rfl
  | ported _ localPort =>
      exact due.congr ⟨rfl, rfl, rfl, rfl⟩
  | opened e _ peerAddr port role state =>
      exact due.congr (sameSecrets_setupPaths e s peerAddr port)
  | dialled _ key sessionId =>
      exact secretsDue_of_empty rfl rfl rfl
  | greeted _ buf seq =>
      cases buf with
      | none => exact due
      | some buf => exact due.congr ⟨rfl, rfl, rfl, rfl⟩
  | reset _ =>
      exact secretsDue_sessionReset s
  | handshake initiator env _ p seq =>
      cases initiator with
      | true =>
          exact secretsDue_handshakeRun C (initiatorReply C)
            (fun t opcode due accept _ kemResponse env seq =>
              secretsDue_initiatorReply C due accept kemResponse env seq)
            due env p seq
      | false =>
          exact secretsDue_handshakeRun C (responderReply C)
            (fun t opcode due _ kemInit _ env seq =>
              secretsDue_responderReply C due kemInit env seq)
            due env p seq
  | control env p _ seq locked =>
      exact secretsDue_lockedControl C due env p seq
  | gated moved =>
      exact due.congr moved.untouched.sameSecrets
  | checked v _ =>
      have core := sessionEncCheck_core C v s
      refine due.congr ⟨core.state, core.keys, ?_, ?_⟩
      · unfold sessionEncCheck
        split
        · rfl
        · split
          · rfl
          · split <;> rfl
      · unfold sessionEncCheck
        split
        · rfl
        · split
          · rfl
          · split <;> rfl
  | beaten _ buf seq now =>
      exact due.congr (untouched_heartbeatTick s buf seq now).sameSecrets
  | retried _ buf seq now =>
      exact secretsDue_reconnectTick due buf seq now
  | hopped _ buf seq peerAddr newPort =>
      cases buf with
      | none => exact due
      | some buf => exact due.congr ⟨rfl, rfl, rfl, rfl⟩
  | measured _ r same =>
      exact due.congr ⟨rfl, rfl, rfl, rfl⟩

/-- Whatever is called, whatever arrives and whichever thread runs, no slot of
the pool ever holds a secret that its state has no use for. -/
theorem engine_secrets_due
    (config : EngineConfig) (audio video : Bool) (acts : List EngineAct)
    (i : Nat) :
    SecretsDue
      (((transportEngineInit config audio video).run C acts).pool i) :=
  Engine.run_invariant (C := C) (P := SecretsDue)
    (secretsDue_of_empty rfl rfl rfl) (secretsDue_move C) config audio video
    acts i

end

end PqComm
