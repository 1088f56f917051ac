import PqComm.Handshake.Completeness

/-!
# What a locked session has been through

A session is locked by `handshake_build_locked` on one side and by
`handshake_process_message` on the other.  Whatever packets a runner is fed,
a locked session is complete, has verified its peer and keeps no KEM secret,
and an error leaves a session that no packet can lock.
-/

namespace PqComm

open Lib

/-- The session is complete and clean. -/
structure LockedClean (s : Session) : Prop where
  complete : s.handshakeComplete = true
  verified : s.hs.identityVerified = true
  sharedSecret : s.hs.kemSharedSecret = zeros kemSsSize
  secretKey : s.hs.kemSecretKey = zeros kemSkSize

/-- The session is as a reset leaves it. -/
structure Wiped (s : Session) : Prop where
  state : s.state = .idle
  role : s.role = .unassigned
  keys : s.keys = {}
  sharedSecret : s.hs.kemSharedSecret = zeros kemSsSize
  secretKey : s.hs.kemSecretKey = zeros kemSkSize

theorem wiped_sessionReset (s : Session) : Wiped (sessionReset s) :=
  ⟨rfl, rfl, rfl, rfl, rfl⟩

/-- Where an initiator can be. -/
inductive InitiatorPlace (s : Session) : Prop where
  | wiped (wiped : Wiped s)
  | handshaking (role : s.role = .initiator)
      (kemType : s.hs.kemType = kemTypeMlkem768)
      (state :
        s.state = .handshakeStart ∨ s.state = .pqKemInitSent ∨
          s.state = .identityProofSent)
  | locked (state : s.state = .locked) (clean : LockedClean s)

/-- Where a responder can be. -/
inductive ResponderPlace (s : Session) : Prop where
  | wiped (wiped : Wiped s)
  | handshaking (role : s.role = .responder)
      (kemType : s.hs.kemType = kemTypeMlkem768)
      (state : s.state = .handshakeStart ∨ s.state = .pqKemResponseSent)
  | locked (state : s.state = .locked) (clean : LockedClean s)

section

variable {C : CryptoSuite} {s : Session}

/-! ## Locking -/

theorem verifyProof_verified
    {label pre msg : Bytes}
    (verified : (verifyProof C s label pre msg).2 = true) :
    (verifyProof C s label pre msg).1.hs.identityVerified = true := by
  unfold verifyProof at verified ⊢
  dsimp only at verified ⊢
  split
  · rename_i closed
    rw [closed] at verified
    cases verified
  · rename_i plain opened
    rw [opened] at verified
    dsimp only at verified ⊢
    split
    · rename_i foreign
      rw [if_pos foreign] at verified
      cases verified
    · rfl

theorem lockedClean_of_lockSession
    {s' : Session} (kemType : s.hs.kemType = kemTypeMlkem768)
    (verified : s.hs.identityVerified = true)
    (derived : lockSession C s = some s') :
    s'.state = .locked ∧ LockedClean s' := by
  obtain ⟨material, _, rfl⟩ := Option.map_eq_some_iff.mp derived
  refine ⟨rfl, rfl, verified, rfl, ?_⟩
  exact if_pos kemType

/-- What building a proof leaves alone. -/
theorem handshakeBuildProof_keeps
    (opcode : UInt8) (label : Bytes) (buf : PacketBuf) (seq : UInt32) :
    let r := handshakeBuildProof C s opcode label buf seq
    r.sess.role = s.role ∧ r.sess.state = s.state ∧
      r.sess.hs.kemType = s.hs.kemType ∧
      r.sess.hs.identityVerified = s.hs.identityVerified := by
  unfold handshakeBuildProof
  dsimp only
  split
  · exact ⟨rfl, rfl, rfl, rfl⟩
  · exact ⟨rfl, rfl, rfl, rfl⟩

/-- An error resets the session. -/
theorem wiped_feed_of_error
    {reply : HsEnv → Session → UInt8 → UInt32 → HsOut} {msg : Bytes}
    (error : (processPayload C s msg).2 = .error) (env : HsEnv)
    (seq : UInt32) : Wiped (feed C reply env s msg seq).sess := by
  unfold feed
  simp only [error]
  exact wiped_sessionReset _

/-! ## The initiator -/

theorem InitiatorPlace.reply
    (role : s.role = .initiator) (kemType : s.hs.kemType = kemTypeMlkem768)
    (state :
      s.state = .handshakeStart ∨ s.state = .pqKemInitSent ∨
        s.state = .identityProofSent)
    (env : HsEnv) (opcode : UInt8) (seq : UInt32) :
    InitiatorPlace (initiatorReply C env s opcode seq).sess := by
  unfold initiatorReply
  cases env.buf with
  | none =>
      exact InitiatorPlace.handshaking role kemType state
  | some buf =>
      dsimp only
      split
      · unfold handshakeBuildKemInit
        rw [if_neg (by simp [kemType])]
        cases C.kemKeypair env.coins with
        | none =>
            exact InitiatorPlace.handshaking role kemType state
        | some pair =>
            exact InitiatorPlace.handshaking role kemType
              (Or.inr (Or.inl rfl))
      · split
        · obtain ⟨role', state', kemType', -⟩ :=
            handshakeBuildProof_keeps (C := C) (s := s) ctrlIdentityProof
              labelIdProof buf seq
          unfold handshakeBuildIdentity
          dsimp only
          split
          · exact InitiatorPlace.handshaking (role'.trans role)
              (kemType'.trans kemType) (by rwa [state'])
          · exact InitiatorPlace.handshaking (role'.trans role)
              (kemType'.trans kemType) (Or.inr (Or.inr rfl))
        · exact InitiatorPlace.handshaking role kemType state

theorem InitiatorPlace.feed
    (phase : InitiatorPlace s) (env : HsEnv) (msg : Bytes) (seq : UInt32) :
    InitiatorPlace (feed C (initiatorReply C) env s msg seq).sess := by
  by_cases error : (processPayload C s msg).2 = .error
  · exact InitiatorPlace.wiped (wiped_feed_of_error error env seq)
  cases phase with
  | wiped wiped =>
      exact absurd (processPayload_unassigned C wiped.role wiped.state msg)
        error
  | locked state clean =>
      exact absurd (processPayload_locked C state msg) error
  | handshaking role kemType state =>
      have accepted := processPayload_initiator C role error
      unfold PqComm.feed
      generalize processPayload C s msg = processed at accepted
      cases accepted with
      | accept opcode started id adopted kept =>
          apply InitiatorPlace.reply
          · exact role
          · exact kemType
          · exact Or.inl started
      | kemResponse opcode sent secret size =>
          apply InitiatorPlace.reply
          · exact role
          · exact kemType
          · exact Or.inr (Or.inl sent)
      | identity other =>
          -- An initiator never waits for an IDENTITY_PROOF.
          rw [other] at state
          simp at state
      | locked opcode proved long verified s' derived =>
          have checked := verifyProof_checked C (updateTranscript C s msg)
            labelLockProof s.hs.transcriptHash msg
          obtain ⟨state', clean⟩ :=
            lockedClean_of_lockSession (checked.kemType.trans kemType)
              (verifyProof_verified verified) derived
          exact InitiatorPlace.locked state' clean

/-! ## The responder -/

theorem ResponderPlace.buildLocked
    (role : s.role = .responder) (kemType : s.hs.kemType = kemTypeMlkem768)
    (state : s.state = .handshakeStart ∨ s.state = .pqKemResponseSent)
    (verified : s.hs.identityVerified = true) (buf : PacketBuf)
    (seq : UInt32) :
    ResponderPlace (handshakeBuildLocked C s buf seq).sess := by
  obtain ⟨role', state', kemType', verified'⟩ :=
    handshakeBuildProof_keeps (C := C) (s := s) ctrlSessionLocked
      labelLockProof buf seq
  have waiting :
      ResponderPlace
        (handshakeBuildProof C s ctrlSessionLocked labelLockProof buf
          seq).sess :=
    ResponderPlace.handshaking (role'.trans role) (kemType'.trans kemType)
      (by rwa [state'])
  unfold handshakeBuildLocked
  dsimp only
  split
  · exact waiting
  · split
    · exact waiting
    · rename_i s' derived
      obtain ⟨locked, clean⟩ :=
        lockedClean_of_lockSession (kemType'.trans kemType)
          (verified'.trans verified) derived
      exact ResponderPlace.locked locked clean

/-- The responder answers an IDENTITY_PROOF only after it has verified it. -/
theorem ResponderPlace.reply
    (role : s.role = .responder) (kemType : s.hs.kemType = kemTypeMlkem768)
    (state : s.state = .handshakeStart ∨ s.state = .pqKemResponseSent)
    (env : HsEnv) (opcode : UInt8) (seq : UInt32)
    (verified :
      opcode = ctrlIdentityProof → s.hs.identityVerified = true) :
    ResponderPlace (responderReply C env s opcode seq).sess := by
  unfold responderReply
  cases env.buf with
  | none =>
      exact ResponderPlace.handshaking role kemType state
  | some buf =>
      dsimp only
      split
      · exact ResponderPlace.handshaking role kemType state
      · split
        · unfold handshakeBuildKemResponse
          rw [if_neg (by simp [kemType])]
          cases C.kemEncaps s.hs.peerPublicKey env.coins with
          | none =>
              exact ResponderPlace.handshaking role kemType state
          | some made =>
              dsimp only
              cases deriveSessionKeys C made.2 s.hs.transcriptHash with
              | none =>
                  exact ResponderPlace.handshaking role kemType state
              | some material =>
                  exact ResponderPlace.handshaking role kemType
                    (Or.inr rfl)
        · split
          · rename_i proof
            exact ResponderPlace.buildLocked role kemType state
              (verified proof) buf seq
          · exact ResponderPlace.handshaking role kemType state

theorem ResponderPlace.feed
    (phase : ResponderPlace s) (env : HsEnv) (msg : Bytes) (seq : UInt32) :
    ResponderPlace (feed C (responderReply C) env s msg seq).sess := by
  by_cases error : (processPayload C s msg).2 = .error
  · exact ResponderPlace.wiped (wiped_feed_of_error error env seq)
  cases phase with
  | wiped wiped =>
      exact absurd (processPayload_unassigned C wiped.role wiped.state msg)
        error
  | locked state clean =>
      exact absurd (processPayload_locked C state msg) error
  | handshaking role kemType state =>
      have accepted := processPayload_responder C role error
      unfold PqComm.feed
      generalize processPayload C s msg = processed at accepted
      cases accepted with
      | hello opcode started =>
          apply ResponderPlace.reply
          · exact role
          · exact kemType
          · exact state
          · rw [opcode]
            intro proof
            exact absurd proof (by decide)
      | kemInit opcode started =>
          apply ResponderPlace.reply
          · exact role
          · exact kemType
          · exact state
          · rw [opcode]
            intro proof
            exact absurd proof (by decide)
      | identity opcode sent long verified =>
          have checked := verifyProof_checked C (updateTranscript C s msg)
            labelIdProof s.hs.transcriptHash msg
          refine ResponderPlace.reply (checked.core.role.trans role)
            (checked.kemType.trans kemType) ?_ env _ seq ?_
          · rw [checked.core.state]
            exact state
          · intro _
            exact verifyProof_verified verified
      | locked other =>
          -- A responder never waits for a SESSION_LOCKED.
          rw [other] at state
          simp at state

end

/-! ## Runs -/

section

variable (C : CryptoSuite)

/-- The runner of a party. -/
def handshakeRunAs : Party → HsEnv → Session → PacketBuf → UInt32 → HsOut
  | .initiator => handshakeRunAsInitiator C
  | .responder => handshakeRunAsResponder C

/-- The sessions a party can reach by packets of any kind after its
initialisation. -/
inductive HandshakeReachable : Party → Session → Prop where
  | initiator (s : Session) (key : IdentityKey) (sessionId : UInt64)
      (buf : Option PacketBuf) (seq : UInt32) :
      HandshakeReachable .initiator
        (handshakeBuildHello C (handshakeInitInitiator s key sessionId) buf
          seq).sess
  | responder (s : Session) (key : IdentityKey) :
      HandshakeReachable .responder (handshakeInitResponder s key)
  | step {party : Party} {s : Session}
      (reachable : HandshakeReachable party s) (env : HsEnv) (p : PacketBuf)
      (seq : UInt32) :
      HandshakeReachable party (handshakeRunAs C party env s p seq).sess

/-- One later packet, for either runner. -/
structure LaterPacket where
  party : Party
  env : HsEnv
  packet : PacketBuf
  seq : UInt32

def runLater (s : Session) (later : List LaterPacket) : Session :=
  later.foldl
    (fun s l => (handshakeRunAs C l.party l.env s l.packet l.seq).sess) s

variable {C} {s : Session}

theorem handshakeRunAs_eq
    (party : Party) (env : HsEnv) (s : Session) (p : PacketBuf)
    (seq : UInt32) :
    ∃ reply,
      handshakeRunAs C party env s p seq =
        match packetParse p with
        | none => { sess := s, seq := seq }
        | some v => feed C reply env s v.payloadBytes seq := by
  cases party with
  | initiator =>
      exact ⟨initiatorReply C, handshakeRun_eq C _ env s p seq⟩
  | responder =>
      exact ⟨responderReply C, handshakeRun_eq C _ env s p seq⟩

theorem HandshakeReachable.place
    {party : Party} (reachable : HandshakeReachable C party s) :
    match party with
    | .initiator => InitiatorPlace s
    | .responder => ResponderPlace s := by
  induction reachable with
  | initiator s key sessionId buf seq =>
      cases buf with
      | none =>
          exact InitiatorPlace.handshaking rfl rfl (Or.inl rfl)
      | some buf =>
          exact InitiatorPlace.handshaking rfl rfl (Or.inl rfl)
  | responder s key =>
      exact ResponderPlace.handshaking rfl rfl (Or.inl rfl)
  | @step party s reachable env p seq phase =>
      cases party with
      | initiator =>
          simp only [handshakeRunAs, handshakeRunAsInitiator, handshakeRun_eq]
          cases packetParse p with
          | none =>
              exact phase
          | some v =>
              exact InitiatorPlace.feed phase env v.payloadBytes seq
      | responder =>
          simp only [handshakeRunAs, handshakeRunAsResponder, handshakeRun_eq]
          cases packetParse p with
          | none =>
              exact phase
          | some v =>
              exact ResponderPlace.feed phase env v.payloadBytes seq

theorem HandshakeReachable.lockedClean
    {party : Party} (reachable : HandshakeReachable C party s)
    (locked : s.state = .locked) : LockedClean s := by
  have phase := reachable.place
  cases party with
  | initiator =>
      cases phase with
      | wiped wiped =>
          rw [wiped.state] at locked
          cases locked
      | handshaking role kemType state =>
          rw [locked] at state
          simp at state
      | locked state clean =>
          exact clean
  | responder =>
      cases phase with
      | wiped wiped =>
          rw [wiped.state] at locked
          cases locked
      | handshaking role kemType state =>
          rw [locked] at state
          simp at state
      | locked state clean =>
          exact clean

theorem Wiped.runAs
    (wiped : Wiped s) (party : Party) (env : HsEnv) (p : PacketBuf)
    (seq : UInt32) : Wiped (handshakeRunAs C party env s p seq).sess := by
  obtain ⟨reply, run⟩ := handshakeRunAs_eq (C := C) party env s p seq
  rw [run]
  cases packetParse p with
  | none =>
      exact wiped
  | some v =>
      exact wiped_feed_of_error
        (processPayload_unassigned C wiped.role wiped.state _) env seq

/-- Nothing but a new initialisation brings a reset session back. -/
theorem Wiped.runLater
    (wiped : Wiped s) (later : List LaterPacket) :
    Wiped (runLater C s later) := by
  induction later generalizing s with
  | nil =>
      exact wiped
  | cons l later hypothesis =>
      exact hypothesis (wiped.runAs l.party l.env l.packet l.seq)

/-- Every locked session is complete and clean, and an error wipes the session
for good. -/
theorem handshake_state_invariant
    (C : CryptoSuite) (party : Party) (s : Session)
    (reachable : HandshakeReachable C party s) :
    (s.state = .locked → LockedClean s) ∧
      ∀ env p seq v, packetParse p = some v →
        (handshakeProcessMessage C s v).2 = .error →
          Wiped (handshakeRunAs C party env s p seq).sess ∧
            ∀ later,
              (runLater C (handshakeRunAs C party env s p seq).sess
                later).state ≠ .locked := by
  refine ⟨reachable.lockedClean, ?_⟩
  intro env p seq v parsed error
  have wiped : Wiped (handshakeRunAs C party env s p seq).sess := by
    obtain ⟨reply, run⟩ := handshakeRunAs_eq (C := C) party env s p seq
    rw [run, parsed]
    rw [handshakeProcessMessage_eq] at error
    exact wiped_feed_of_error error env seq
  refine ⟨wiped, fun later locked => ?_⟩
  rw [(wiped.runLater later).state] at locked
  cases locked

/-- The sides of a world stay reachable, whatever is delivered. -/
theorem HsWorld.reachable_run
    {w : HsWorld} (ini : HandshakeReachable C .initiator w.ini)
    (resp : HandshakeReachable C .responder w.resp) (ds : List Delivery) :
    HandshakeReachable C .initiator (w.run C ds).ini ∧
      HandshakeReachable C .responder (w.run C ds).resp := by
  induction ds generalizing w with
  | nil =>
      exact ⟨ini, resp⟩
  | cons d ds hypothesis =>
      obtain ⟨party, packet, env⟩ := d
      cases party with
      | initiator =>
          exact hypothesis (ini.step env packet w.iniSeq) resp
      | responder =>
          exact hypothesis ini (resp.step env packet w.respSeq)

end

/-- The initiator of the sample run is locked and clean, and another HELLO
wipes it. -/
theorem handshake_state_invariant_sampleRun :
    let s := ((sampleSetup.start sampleSuite).run sampleSuite sampleRun).ini
    (s.state = .locked ∧ LockedClean s) ∧
      Wiped
        (handshakeRunAs sampleSuite .initiator sampleEnv s
          (buildPacket default true 0 0 chControl 1 [ctrlHello]) 4).sess := by
  intro s
  have reachable : HandshakeReachable sampleSuite .initiator s :=
    (HsWorld.reachable_run
      (HandshakeReachable.initiator {} sampleSetup.iniKey 9 (some default) 1)
      (HandshakeReachable.responder {} sampleSetup.respKey) sampleRun).1
  have locked : s.state = .locked := sampleRun_ends.1.stands.state
  obtain ⟨clean, error⟩ :=
    handshake_state_invariant sampleSuite .initiator s reachable
  refine ⟨⟨locked, clean locked⟩, ?_⟩
  refine (error sampleEnv _ 4 _
    (packetParse_buildPacket _ _ _ _ _ _ _ (by decide) (by decide)) ?_).1
  rw [handshakeProcessMessage_eq]
  exact processPayload_locked sampleSuite locked _

end PqComm
