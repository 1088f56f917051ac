import PqComm.Engine.LockStability
import PqComm.Engine.Poll

/-!
# What the engine puts on its transmit rings

Every packet of a transmit ring was made by one of four kinds of builder: a
message on the control channel, a data packet that went through
`session_enc_apply`, the parity of a group, or a decoy.  `Built` says which,
with the sequence number and the session the builder was given.

`Emits e e'` says that `e'` has sent what `e` had sent and nothing but built
packets since.  It holds of every function of the engine, and by induction of
every run.
-/

namespace PqComm

open Lib

/-! ## Packets up to their address -/

/-- Two buffers hold the same datagram. -/
structure SameWire (p q : PacketBuf) : Prop where
  len : p.len = q.len
  data : p.data = q.data

theorem SameWire.refl (p : PacketBuf) : SameWire p p :=
  ⟨rfl, rfl⟩

theorem sameWire_setAddr (p : PacketBuf) (addr : Bytes) (addrLen : Nat) :
    SameWire (p.setAddr addr addrLen) p :=
  ⟨rfl, rfl⟩

theorem sameWire_sendTo (p : PacketBuf) (addr : Bytes) :
    SameWire (p.sendTo addr) p :=
  ⟨rfl, rfl⟩

theorem SameWire.trans
    {p q r : PacketBuf} (first : SameWire p q) (second : SameWire q r) :
    SameWire p r :=
  ⟨first.len.trans second.len, first.data.trans second.data⟩

/-- The address of a packet is not looked at before the session gate. -/
theorem SameWire.packetParse
    {p q : PacketBuf} (same : SameWire p q) :
    packetParse p = (packetParse q).map fun v => { v with buf := p } := by
  unfold PqComm.packetParse
  rw [same.len, same.data]
  dsimp only
  split
  · rfl
  · split
    · rfl
    · split
      · rfl
      · split
        · split
          · rfl
          · rfl
        · rfl

/-- The packet is a message on the control channel with number `seq`. -/
def ControlMessage (seq : UInt32) (p : PacketBuf) : Prop :=
  ∃ buf clear sessionId payload,
    SameWire p (buildPacket buf clear 0 sessionId chControl seq payload) ∧
      1 ≤ payload.length ∧ payload.length ≤ 1400

/-- What a control function pushes, if anything, is such a message. -/
def Speaks (seq : UInt32) (out : Option PacketBuf) : Prop :=
  ∀ p, out = some p → ControlMessage seq p

theorem speaks_none (seq : UInt32) : Speaks seq none := by
  intro p pushed
  cases pushed

theorem controlMessage_setAddr
    (buf : PacketBuf) (clear : Bool) (sessionId : UInt64) (seq : UInt32)
    {payload : Bytes} (addr : Bytes) (addrLen : Nat)
    (nonempty : 1 ≤ payload.length) (fits : payload.length ≤ 1400) :
    ControlMessage seq
      ((controlPacket buf clear sessionId seq payload).setAddr addr
        addrLen) :=
  ⟨buf, clear, sessionId, payload, sameWire_setAddr _ _ _, nonempty, fits⟩

theorem speaks_setAddr
    (buf : PacketBuf) (clear : Bool) (sessionId : UInt64) (seq : UInt32)
    {payload : Bytes} (addr : Bytes) (addrLen : Nat)
    (nonempty : 1 ≤ payload.length) (fits : payload.length ≤ 1400) :
    Speaks seq
      (some
        ((controlPacket buf clear sessionId seq payload).setAddr addr
          addrLen)) := by
  intro p pushed
  cases pushed
  exact controlMessage_setAddr buf clear sessionId seq addr addrLen nonempty
    fits

theorem speaks_heartbeatHandle
    (p : PacketBuf) (s : Session) (buf : Option PacketBuf) (seq : UInt32)
    (now : UInt64) :
    Speaks seq (heartbeatHandle p s buf seq now).out := by
  unfold heartbeatHandle
  split
  · exact speaks_none seq
  · split
    · split
      · exact speaks_none seq
      · cases buf with
        | none =>
            exact speaks_none seq
        | some buf =>
            exact speaks_setAddr buf true _ seq _ _ (by simp)
              (by simp [sessionIdBytes])
    · split
      · exact speaks_none seq
      · exact speaks_none seq

theorem speaks_heartbeatTick
    (s : Session) (buf : Option PacketBuf) (seq : UInt32) (now : UInt64) :
    Speaks seq (heartbeatTick s buf seq now).out := by
  unfold heartbeatTick
  split
  · exact speaks_none seq
  · split
    · unfold heartbeatSend
      split
      · exact speaks_none seq
      · cases buf with
        | none =>
            exact speaks_none seq
        | some buf =>
            exact speaks_setAddr buf true _ seq _ _ (by simp)
              (by simp [sessionIdBytes])
    · exact speaks_none seq

theorem speaks_reconnectSendRequest
    (s : Session) (buf : Option PacketBuf) (seq : UInt32) :
    Speaks seq (reconnectSendRequest s buf seq).out := by
  cases buf with
  | none =>
      exact speaks_none seq
  | some buf =>
      exact speaks_setAddr buf true _ seq _ _ (by simp)
        (by simp [sessionIdBytes])

theorem speaks_reconnectTick
    (s : Session) (buf : Option PacketBuf) (seq : UInt32) (now : UInt64) :
    Speaks seq (reconnectTick s buf seq now).out := by
  unfold reconnectTick
  split
  · exact speaks_none seq
  · split
    · exact speaks_none seq
    · split
      · exact speaks_none seq
      · split
        · exact speaks_reconnectSendRequest _ buf seq
        · split
          · exact speaks_reconnectSendRequest s buf seq
          · exact speaks_none seq

theorem speaks_reconnectHandle
    (p : PacketBuf) (s : Session) (buf : Option PacketBuf) (seq : UInt32)
    (now : UInt64) :
    Speaks seq (reconnectHandle p s buf seq now).out := by
  unfold reconnectHandle
  split
  · exact speaks_none seq
  · split
    · split
      · exact speaks_none seq
      · cases buf with
        | none =>
            exact speaks_none seq
        | some buf =>
            exact speaks_setAddr buf true _ seq _ _ (by simp)
              (by simp [sessionIdBytes])
    · split
      · split
        · exact speaks_none seq
        · exact speaks_none seq
      · exact speaks_none seq

theorem speaks_portHopStep
    (env : HandlerEnv) (p : PacketBuf) (s : Session) (seq : UInt32) :
    Speaks seq (portHopStep env p s seq).out := by
  unfold portHopStep
  dsimp only
  split
  · unfold portHopSendAck
    cases env.hopBuf with
    | none =>
        exact speaks_none seq
    | some buf =>
        exact speaks_setAddr buf true _ seq _ _ (by simp)
          (by simp [sessionIdBytes])
  · exact speaks_none seq

theorem speaks_portHopSendRequest
    (s : Session) (buf : Option PacketBuf) (seq : UInt32) (peerAddr : Bytes)
    (newPort : UInt16) :
    Speaks seq (portHopSendRequest s buf seq peerAddr newPort).out := by
  cases buf with
  | none =>
      exact speaks_none seq
  | some buf =>
      exact speaks_setAddr buf true _ seq _ _ (by simp)
        (by simp [sessionIdBytes, htons])

theorem speaks_rekeyHandle
    (C : CryptoSuite) (env : RekeyEnv) (p : PacketBuf) (s : Session)
    (seq : UInt32) :
    Speaks seq (rekeyHandle C env p s seq).out := by
  have done := rekeyHandle_cases C env p s seq
  generalize rekeyHandle C env p s seq = result at done
  cases done with
  | ignored ret idle =>
      exact speaks_none seq
  | switched _ _ _ ciphertext secret made ret out answer =>
      rcases answer with ⟨buf, -, -, rfl⟩ | ⟨-, -, rfl⟩
      · have size := (C.length_kemEncaps _ _ _ _ made).1
        exact speaks_setAddr buf false _ seq _ _ (by simp [rekeyPayload])
          (by simp [rekeyPayload, size])
      · exact speaks_none seq
  | confirmed _ _ _ secret opened =>
      exact speaks_none seq

theorem speaks_connRequestBuild
    (s : Session) (buf : Option PacketBuf) (seq : UInt32)
    (username displayName : Bytes) :
    Speaks seq (connRequestBuild s buf seq username displayName).out := by
  unfold connRequestBuild
  split
  · exact speaks_none seq
  · rename_i short
    cases buf with
    | none =>
        exact speaks_none seq
    | some buf =>
        refine speaks_setAddr buf false _ seq _ _ (by simp) ?_
        simp only [List.length_cons, List.length_append]
        omega

theorem speaks_connRequestReply
    (s : Session) (buf : Option PacketBuf) (seq : UInt32)
    (peerAddr : Bytes) {payload : Bytes} (nonempty : 1 ≤ payload.length)
    (fits : payload.length ≤ 1400) :
    Speaks seq (connRequestReply s buf seq peerAddr payload).out := by
  cases buf with
  | none =>
      exact speaks_none seq
  | some buf =>
      exact speaks_setAddr buf false _ seq _ _ nonempty fits

/-! ## Identity keys

The size of a proof message depends on the identity key of the session, so
the 32 bytes of that key belong to the invariant. -/

/-- The identity key of the session has its size. -/
def Sized (s : Session) : Prop :=
  s.hs.ourIdentityKey.length = 32

theorem Untouched.sized
    {s s' : Session} (same : Untouched s s') (sized : Sized s) : Sized s' := by
  rw [Sized, same.hs]
  exact sized

theorem sized_reset (s : Session) : Sized (sessionReset s) :=
  length_zeros 32

section

variable (C : CryptoSuite) {s : Session}

theorem sized_rekeyHandle
    (env : RekeyEnv) (p : PacketBuf) (seq : UInt32) (sized : Sized s) :
    Sized (rekeyHandle C env p s seq).sess := by
  have done := rekeyHandle_cases C env p s seq
  generalize rekeyHandle C env p s seq = result at done
  cases done with
  | ignored ret idle =>
      exact sized
  | switched _ _ _ ciphertext secret made ret out answer =>
      exact sized
  | confirmed _ _ _ secret opened =>
      exact sized

theorem sized_verifyProof (label pre msg : Bytes) (sized : Sized s) :
    Sized (verifyProof C s label pre msg).1 := by
  rw [Sized, (verifyProof_checked C s label pre msg).identity]
  exact sized

theorem sized_lockSession
    {s' : Session} (sized : Sized s) (derived : lockSession C s = some s') :
    Sized s' := by
  obtain ⟨material, _, rfl⟩ := Option.map_eq_some_iff.mp derived
  exact sized

theorem sized_processOpcode
    (pre : Bytes) (opcode : UInt8) (msg : Bytes) (sized : Sized s) :
    Sized (processOpcode C s pre opcode msg).1 := by
  rcases processOpcode_session C s pre opcode msg with
    ⟨_, key⟩ | ⟨label, checked | derived⟩
  · rw [Sized, key]
    exact sized
  · rw [checked]
    exact sized_verifyProof C label pre msg sized
  · exact sized_lockSession C (sized_verifyProof C label pre msg sized)
      derived

theorem sized_handshakeProcessMessage (v : PacketView) (sized : Sized s) :
    Sized (handshakeProcessMessage C s v).1 := by
  unfold handshakeProcessMessage
  split
  · exact sized
  · dsimp only
    split
    · exact sized
    · split
      · exact sized
      · exact sized_processOpcode C _ _ _ sized

/-! ## The handshake -/

/-- What a handshake function leaves: a session with its key, and a message
if anything. -/
structure Behaves (seq : UInt32) (r : HsOut) : Prop where
  sized : Sized r.sess
  speaks : Speaks seq r.out

theorem behaves_silent (seq : UInt32) (seq' : UInt32) (sized : Sized s) :
    Behaves seq { sess := s, seq := seq' } :=
  ⟨sized, speaks_none seq⟩

theorem speaks_buildPacket
    (buf : PacketBuf) (clear : Bool) (headerId : UInt64) (seq : UInt32)
    {payload : Bytes} (nonempty : 1 ≤ payload.length)
    (fits : payload.length ≤ 1400) :
    Speaks seq
      (some (buildPacket buf clear 0 headerId chControl seq payload)) := by
  intro p pushed
  cases pushed
  exact ⟨buf, clear, headerId, payload, SameWire.refl _, nonempty, fits⟩

theorem behaves_handshakeBuildHello
    (buf : Option PacketBuf) (seq : UInt32) (sized : Sized s) :
    Behaves seq (handshakeBuildHello C s buf seq) := by
  cases buf with
  | none =>
      exact behaves_silent seq seq sized
  | some buf =>
      exact ⟨sized, speaks_buildPacket buf true 0 seq (by simp) (by simp)⟩

theorem behaves_handshakeBuildKemInit
    (coins : Bytes) (buf : PacketBuf) (seq : UInt32) (sized : Sized s) :
    Behaves seq (handshakeBuildKemInit C s coins buf seq) := by
  unfold handshakeBuildKemInit
  split
  · exact behaves_silent seq seq sized
  · cases made : C.kemKeypair coins with
    | none =>
        exact ⟨sized, speaks_none seq⟩
    | some pair =>
        obtain ⟨publicKey, secretKey⟩ := pair
        have size := (C.length_kemKeypair _ _ _ made).1
        exact
          ⟨sized,
            speaks_buildPacket buf true _ seq (by simp) (by simp [size])⟩

theorem behaves_handshakeBuildKemResponse
    (coins : Bytes) (buf : PacketBuf) (seq : UInt32) (sized : Sized s) :
    Behaves seq (handshakeBuildKemResponse C s coins buf seq) := by
  unfold handshakeBuildKemResponse
  split
  · exact behaves_silent seq seq sized
  · cases made : C.kemEncaps s.hs.peerPublicKey coins with
    | none =>
        exact behaves_silent seq seq sized
    | some pair =>
        obtain ⟨ciphertext, secret⟩ := pair
        have size := (C.length_kemEncaps _ _ _ _ made).1
        dsimp only
        cases deriveSessionKeys C secret s.hs.transcriptHash with
        | none =>
            exact behaves_silent seq seq sized
        | some material =>
            exact
              ⟨sized,
                speaks_buildPacket buf true _ seq (by simp) (by simp [size])⟩

theorem behaves_handshakeBuildProof
    (opcode : UInt8) (label : Bytes) (buf : PacketBuf) (seq : UInt32)
    (sized : Sized s) :
    Behaves seq (handshakeBuildProof C s opcode label buf seq) := by
  have plain : (proofPlain C s).length = 64 := by
    rw [proofPlain, List.length_append, C.length_hmacSha256, sized]
  unfold handshakeBuildProof
  dsimp only [deriveIdProofKey]
  generalize key :
    proofKey C label s.hs.kemSharedSecret s.hs.transcriptHash = proof
  cases sealed :
      aeadEncrypt C proof (proofNonce C proof) [] (proofPlain C s) with
  | none =>
      exact ⟨sized, speaks_none seq⟩
  | some pair =>
      obtain ⟨cipher, tag⟩ := pair
      have lengths := length_of_aeadEncrypt C sealed
      refine ⟨sized, speaks_buildPacket buf true _ seq ?_ ?_⟩
      · simp [proofPayload]
      · simp [proofPayload, proofNonce, C.length_sha256, lengths.1, plain,
          lengths.2]

theorem behaves_handshakeBuildIdentity
    (buf : PacketBuf) (seq : UInt32) (sized : Sized s) :
    Behaves seq (handshakeBuildIdentity C s buf seq) := by
  have sent := behaves_handshakeBuildProof C ctrlIdentityProof labelIdProof
    buf seq sized
  unfold handshakeBuildIdentity
  dsimp only
  split
  · exact sent
  · exact ⟨sent.sized, sent.speaks⟩

theorem behaves_handshakeBuildLocked
    (buf : PacketBuf) (seq : UInt32) (sized : Sized s) :
    Behaves seq (handshakeBuildLocked C s buf seq) := by
  have sent := behaves_handshakeBuildProof C ctrlSessionLocked labelLockProof
    buf seq sized
  unfold handshakeBuildLocked
  dsimp only
  split
  · exact sent
  · split
    · exact ⟨sent.sized, speaks_none seq⟩
    · rename_i derived
      exact ⟨sized_lockSession C sent.sized derived, sent.speaks⟩

theorem behaves_initiatorReply
    (env : HsEnv) (opcode : UInt8) (seq : UInt32) (sized : Sized s) :
    Behaves seq (initiatorReply C env s opcode seq) := by
  unfold initiatorReply
  cases env.buf with
  | none =>
      exact behaves_silent seq seq sized
  | some buf =>
      dsimp only
      split
      · exact behaves_handshakeBuildKemInit C env.coins buf seq sized
      · split
        · exact behaves_handshakeBuildIdentity C buf seq sized
        · exact behaves_silent seq seq sized

theorem behaves_responderReply
    (env : HsEnv) (opcode : UInt8) (seq : UInt32) (sized : Sized s) :
    Behaves seq (responderReply C env s opcode seq) := by
  unfold responderReply
  cases env.buf with
  | none =>
      exact behaves_silent seq seq sized
  | some buf =>
      dsimp only
      split
      · exact
          ⟨sized,
            speaks_buildPacket buf true _ seq (by simp [acceptPayload])
              (by simp [acceptPayload])⟩
      · split
        · exact behaves_handshakeBuildKemResponse C env.coins buf seq sized
        · split
          · exact behaves_handshakeBuildLocked C buf seq sized
          · exact behaves_silent seq seq sized

theorem behaves_handshakeRun
    {reply : HsEnv → Session → UInt8 → UInt32 → HsOut} (env : HsEnv)
    (p : PacketBuf) (seq : UInt32)
    (replies :
      ∀ {t : Session} (opcode : UInt8), Sized t →
        Behaves seq (reply env t opcode seq))
    (sized : Sized s) :
    Behaves seq (handshakeRun C reply env s p seq) := by
  unfold handshakeRun
  cases packetParse p with
  | none =>
      exact behaves_silent seq seq sized
  | some v =>
      have processed := sized_handshakeProcessMessage C v sized
      dsimp only
      split
      · exact behaves_silent seq seq (sized_reset _)
      · exact behaves_silent seq seq processed
      · exact replies _ processed

end

/-! ## The handlers of a locked session -/

section

variable {p : PacketBuf} {s : Session} {seq : UInt32} {now : UInt64}
  {buf : Option PacketBuf}

theorem heartbeatHandle_seq
    (passed : ¬ (heartbeatHandle p s buf seq now).ret > 0) :
    (heartbeatHandle p s buf seq now).seq = seq := by
  unfold heartbeatHandle at passed ⊢
  split
  · rfl
  · rename_i long
    rw [if_neg long] at passed
    split
    · rename_i request
      rw [if_pos request] at passed
      split
      · rfl
      · rename_i whole
        rw [if_neg whole] at passed
        cases buf with
        | none =>
            rfl
        | some buf =>
            exact absurd Int.one_pos passed
    · split
      · rfl
      · rfl

theorem reconnectHandle_seq
    (passed : ¬ (reconnectHandle p s buf seq now).ret > 0) :
    (reconnectHandle p s buf seq now).seq = seq := by
  unfold reconnectHandle at passed ⊢
  split
  · rfl
  · rename_i long
    rw [if_neg long] at passed
    split
    · rename_i request
      rw [if_pos request] at passed
      split
      · rfl
      · rename_i known
        rw [if_neg known] at passed
        exact absurd Int.one_pos passed
    · split
      · split
        · rfl
        · rfl
      · rfl

theorem portHopStep_seq
    {env : HandlerEnv} (passed : ¬ (portHopStep env p s seq).ret > 0) :
    (portHopStep env p s seq).seq = seq := by
  unfold portHopStep at passed ⊢
  dsimp only at passed ⊢
  split
  · rename_i hopped
    rw [if_pos hopped] at passed
    exact absurd (by rw [hopped]; exact Int.one_pos) passed
  · rfl

end

section

variable (C : CryptoSuite)

/-- `Behaves` for the handlers of a locked session. -/
structure LockedBehaves (seq : UInt32) (r : LockedOut) : Prop where
  sized : Sized r.sess
  speaks : Speaks seq r.out

/-- A packet that the first handlers pass on has not moved the counter, so
whatever is sent carries the number the engine is at. -/
theorem lockedBehaves_lockedControl
    (env : HandlerEnv) (p : PacketBuf) {s : Session} (seq : UInt32)
    (sized : Sized s) :
    LockedBehaves seq (lockedControl C env p s seq) := by
  have heard := untouched_heartbeatHandle p s env.heartbeatBuf seq env.now
  unfold lockedControl
  refine CtlOut.orElse_cases _ _
    (fun _ =>
      ⟨heard.sized sized, speaks_heartbeatHandle p s _ seq _⟩)
    fun passed => ?_
  rw [heartbeatHandle_seq passed]
  have sized := heard.sized sized
  generalize (heartbeatHandle p s env.heartbeatBuf seq env.now).sess = t
    at sized
  have reached := untouched_reconnectHandle p t env.reconnectBuf seq env.now
  refine CtlOut.orElse_cases _ _
    (fun _ =>
      ⟨reached.sized sized, speaks_reconnectHandle p t _ seq _⟩)
    fun passed => ?_
  rw [reconnectHandle_seq passed]
  have sized := reached.sized sized
  generalize (reconnectHandle p t env.reconnectBuf seq env.now).sess = t
    at sized
  have hopped := @untouched_portHopStep env t p seq
  refine CtlOut.orElse_cases _ _
    (fun _ => ⟨hopped.sized sized, speaks_portHopStep env p t seq⟩)
    fun passed => ?_
  rw [portHopStep_seq passed]
  have sized := hopped.sized sized
  generalize (portHopStep env p t seq).sess = t at sized
  have rekeyed := sized_rekeyHandle C env.rekey p seq sized
  refine CtlOut.orElse_cases _ _
    (fun _ => ⟨rekeyed, speaks_rekeyHandle C env.rekey p t seq⟩)
    fun _ => ?_
  unfold lockedInline
  split
  · exact ⟨rekeyed, speaks_none seq⟩
  · split
    · exact ⟨rekeyed, speaks_none seq⟩
    · split
      · exact ⟨rekeyed, speaks_none seq⟩
      · exact ⟨rekeyed, speaks_none seq⟩

end

end PqComm
