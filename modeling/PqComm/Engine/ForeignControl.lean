import PqComm.Engine.LockStability

/-!
# Control packets of another session

Once a session is locked every control packet gets to its handlers, whatever
session it names.  `reconnect_handle` compares the identifier in the message
with that of the session; the other three handlers look at no identifier.
-/

namespace PqComm

open Lib

/-- The identifier in the header. -/
def PacketBuf.headerSession (p : PacketBuf) : UInt64 :=
  UInt64.ofNat (leNat (memSlice p.data 6 8))

/-- The identifier that a control message carries behind its opcode, behind
the port in a PORT_HOP. -/
def PacketBuf.embeddedSession (p : PacketBuf) : Option UInt64 :=
  if p.opcode = ctrlHeartbeat ∨ p.opcode = ctrlHeartbeatAck ∨
      p.opcode = ctrlReconnect ∨ p.opcode = ctrlReconnectAck ∨
      p.opcode = ctrlPortHopAck then
    some p.word
  else if p.opcode = ctrlPortHop then
    some (UInt64.ofNat (leNat (memSlice p.data 27 8)))
  else
    none

/-- A control packet that names another session wherever it names one. -/
structure Foreign (s : Session) (p : PacketBuf) : Prop where
  control : p.data 14 = chControl
  header : p.headerSession ≠ s.sessionId
  embedded : ∀ id, p.embeddedSession = some id → id ≠ s.sessionId

section

variable (C : CryptoSuite)

/-- None of the four handlers changes the session. -/
structure Unaffected (s : Session) (p : PacketBuf) : Prop where
  heartbeat : ∀ buf seq now, (heartbeatHandle p s buf seq now).sess = s
  reconnect : ∀ buf seq now, (reconnectHandle p s buf seq now).sess = s
  portHop : (portHopHandle p s).2 = s
  rekey : ∀ env seq, (rekeyHandle C env p s seq).sess = s

/-- The hop leads to where the session is: its paths are used up, and the
address with the announced port is its own. -/
structure HopsInPlace (s : Session) (p : PacketBuf) : Prop where
  paths : resilienceMaxPaths ≤ s.resilience.pathCount
  target : s.hopTargetPort = ntohs (memSlice p.data 25 2)
  addr : overlay s.addr (hopAddr s (memSlice p.data 25 2)) = s.addr
  addrLen : s.addrLen = sockaddrIn6Size

/-- The packets that a handler acts on without a look at an identifier. -/
inductive ActsUnchecked (s : Session) (p : PacketBuf) : Prop where
  | heartbeat (opcode : p.opcode = ctrlHeartbeat) (long : 41 ≤ p.len)
  | heartbeatAck (opcode : p.opcode = ctrlHeartbeatAck) (long : 25 ≤ p.len)
  | portHop
      (opcode : p.opcode = ctrlPortHop) (long : 35 ≤ p.len)
      (moves : ¬ HopsInPlace s p)
  | rekeyInit
      (opcode : p.opcode = ctrlRekeyInit) (epoch : p.word = s.keys.keyEpoch)
      (coins : Bytes) (made : (C.kemEncaps p.rekeyPublicKey coins).isSome)
  | rekeyConfirm
      (opcode : p.opcode = ctrlRekeyConfirm)
      (epoch : p.word = s.keys.keyEpoch + 1)
      (opened : (C.kemDecaps s.hs.kemSecretKey p.rekeyCiphertext).isSome)

variable {C : CryptoSuite} {s : Session} {p : PacketBuf}

/-! ## Liveness -/

/-- A heartbeat sets a time that was different a moment ago. -/
theorem heardHeartbeat_ne (s : Session) :
    s.heardHeartbeat (s.lastHeartbeatRxMs + 1) ≠ s := by
  intro same
  have time := congrArg Session.lastHeartbeatRxMs same
  change s.lastHeartbeatRxMs + 1 = s.lastHeartbeatRxMs at time
  exact absurd time (by simp)

theorem heartbeatHandle_keeps_iff :
    (∀ buf seq now, (heartbeatHandle p s buf seq now).sess = s) ↔
      ¬ (p.opcode = ctrlHeartbeat ∧ 41 ≤ p.len) ∧
        ¬ (p.opcode = ctrlHeartbeatAck ∧ 25 ≤ p.len) := by
  constructor
  · intro keeps
    constructor
    · rintro ⟨opcode, long⟩
      have kept := keeps none 0 (s.lastHeartbeatRxMs + 1)
      unfold heartbeatHandle at kept
      rw [if_neg (by omega), if_pos opcode, if_neg (by omega)] at kept
      exact heardHeartbeat_ne s kept
    · rintro ⟨opcode, long⟩
      have kept := keeps none 0 (s.lastHeartbeatRxMs + 1)
      unfold heartbeatHandle at kept
      rw [if_neg (by omega),
        if_neg (by rw [opcode]; decide), if_pos opcode] at kept
      exact heardHeartbeat_ne s kept
  · rintro ⟨noBeat, noAck⟩ buf seq now
    unfold heartbeatHandle
    split
    · rfl
    · rename_i long
      split
      · rename_i opcode
        split
        · rfl
        · rename_i short
          exact absurd ⟨opcode, Nat.not_lt.mp short⟩ noBeat
      · split
        · rename_i opcode
          exact absurd ⟨opcode, Nat.not_lt.mp long⟩ noAck
        · rfl

/-! ## Reconnecting -/

theorem reconnectHandle_keeps
    (other :
      p.opcode = ctrlReconnect ∨ p.opcode = ctrlReconnectAck →
        p.word ≠ s.sessionId)
    (buf : Option PacketBuf) (seq : UInt32) (now : UInt64) :
    (reconnectHandle p s buf seq now).sess = s := by
  unfold reconnectHandle
  split
  · rfl
  · split
    · rename_i opcode
      rw [if_pos (Or.inl (other (Or.inl opcode)))]
    · split
      · rename_i opcode
        rw [if_pos (Or.inl (other (Or.inr opcode)))]
      · rfl

/-! ## Port hopping -/

theorem portHopHandle_keeps_iff :
    (portHopHandle p s).2 = s ↔
      ¬ (p.opcode = ctrlPortHop ∧ 35 ≤ p.len ∧ ¬ HopsInPlace s p) := by
  constructor
  · rintro keeps ⟨opcode, long, moves⟩
    unfold portHopHandle at keeps
    rw [if_neg (by omega), if_pos opcode, if_neg (by omega)] at keeps
    dsimp only at keeps
    apply moves
    have registered (addr : Bytes) :
        (sessionRegisterPath s s.resilience.pathCount addr).resilience =
            s.resilience ∧
          (sessionRegisterPath s s.resilience.pathCount addr).addr =
            s.addr := by
      unfold sessionRegisterPath
      split
      · exact ⟨rfl, rfl⟩
      · exact ⟨rfl, rfl⟩
    constructor
    · have count := congrArg (fun t => t.resilience.pathCount) keeps
      dsimp only at count
      rw [(registered _).1] at count
      by_contra few
      rw [if_pos (Nat.not_le.mp few)] at count
      omega
    · exact (congrArg Session.hopTargetPort keeps).symm
    · have addr := congrArg Session.addr keeps
      dsimp only at addr
      rw [(registered _).2] at addr
      exact addr
    · exact (congrArg Session.addrLen keeps).symm
  · intro quiet
    unfold portHopHandle
    split
    · rfl
    · split
      · rename_i opcode
        split
        · rfl
        · rename_i short
          have inPlace : HopsInPlace s p := by
            by_contra moves
            exact quiet ⟨opcode, Nat.not_lt.mp short, moves⟩
          have unregistered (addr : Bytes) :
              sessionRegisterPath s s.resilience.pathCount addr = s :=
            if_pos (Or.inl inPlace.paths)
          dsimp only
          rw [unregistered, if_neg (Nat.not_lt.mpr inPlace.paths),
            inPlace.addr, ← inPlace.target, ← inPlace.addrLen]
      · split
        · split
          · rfl
          · rfl
        · rfl

/-! ## Rekeying -/

theorem switched_ne (secret : Bytes) (s : Session) :
    (s.switched C secret).keys ≠ s.keys := by
  intro same
  have epoch := congrArg SessionKeys.keyEpoch same
  change s.keys.keyEpoch + 1 = s.keys.keyEpoch at epoch
  exact absurd epoch (by simp)

theorem rekeyHandle_keeps_iff (locked : s.state = .locked) :
    (∀ env seq, (rekeyHandle C env p s seq).sess = s) ↔
      ¬ (p.opcode = ctrlRekeyInit ∧ p.word = s.keys.keyEpoch ∧
          ∃ coins, (C.kemEncaps p.rekeyPublicKey coins).isSome) ∧
        ¬ (p.opcode = ctrlRekeyConfirm ∧ p.word = s.keys.keyEpoch + 1 ∧
          (C.kemDecaps s.hs.kemSecretKey p.rekeyCiphertext).isSome) := by
  constructor
  · intro keeps
    constructor
    · rintro ⟨opcode, epoch, coins, made⟩
      obtain ⟨⟨ciphertext, secret⟩, made⟩ := Option.isSome_iff_exists.mp made
      have kept := keeps { coins := coins, buf := some default } 0
      rw [rekeyHandle_init_eq C 0 locked opcode epoch made rfl] at kept
      exact switched_ne secret s (congrArg Session.keys kept)
    · rintro ⟨opcode, epoch, opened⟩
      obtain ⟨secret, opened⟩ := Option.isSome_iff_exists.mp opened
      have kept := keeps { coins := [], buf := none } 0
      rw [rekeyHandle_confirm_eq C 0 locked opcode epoch opened] at kept
      have keys := congrArg Session.keys kept
      exact switched_ne secret s keys
  · rintro ⟨noInit, noConfirm⟩ env seq
    have done := rekeyHandle_cases C env p s seq
    generalize rekeyHandle C env p s seq = result at done
    cases done with
    | ignored =>
        rfl
    | switched _ opcode epoch ciphertext secret made =>
        exact absurd ⟨opcode, epoch, env.coins, by rw [made]; rfl⟩ noInit
    | confirmed _ opcode epoch secret opened =>
        exact absurd ⟨opcode, epoch, by rw [opened]; rfl⟩ noConfirm

/-! ## All four -/

theorem Foreign.word_ne
    (foreign : Foreign s p)
    (opcode : p.opcode = ctrlReconnect ∨ p.opcode = ctrlReconnectAck) :
    p.word ≠ s.sessionId := by
  apply foreign.embedded
  unfold PacketBuf.embeddedSession
  rw [if_pos]
  rcases opcode with request | ack
  · exact Or.inr (Or.inr (Or.inl request))
  · exact Or.inr (Or.inr (Or.inr (Or.inl ack)))

end

/-- A control packet of another session leaves a locked session alone exactly
when it is none of those that are acted on unchecked. -/
theorem foreign_control_unaffected_iff
    (C : CryptoSuite) (s : Session) (p : PacketBuf)
    (locked : s.state = .locked) (foreign : Foreign s p) :
    Unaffected C s p ↔ ¬ ActsUnchecked C s p := by
  constructor
  · intro unaffected acts
    obtain ⟨noBeat, noAck⟩ := heartbeatHandle_keeps_iff.mp unaffected.heartbeat
    obtain ⟨noInit, noConfirm⟩ :=
      (rekeyHandle_keeps_iff locked).mp unaffected.rekey
    cases acts with
    | heartbeat opcode long =>
        exact noBeat ⟨opcode, long⟩
    | heartbeatAck opcode long =>
        exact noAck ⟨opcode, long⟩
    | portHop opcode long moves =>
        exact portHopHandle_keeps_iff.mp unaffected.portHop
          ⟨opcode, long, moves⟩
    | rekeyInit opcode epoch coins made =>
        exact noInit ⟨opcode, epoch, coins, made⟩
    | rekeyConfirm opcode epoch opened =>
        exact noConfirm ⟨opcode, epoch, opened⟩
  · intro checked
    constructor
    · apply heartbeatHandle_keeps_iff.mpr
      exact ⟨fun beat => checked (.heartbeat beat.1 beat.2),
        fun ack => checked (.heartbeatAck ack.1 ack.2)⟩
    · exact reconnectHandle_keeps foreign.word_ne
    · apply portHopHandle_keeps_iff.mpr
      rintro ⟨opcode, long, moves⟩
      exact checked (.portHop opcode long moves)
    · apply (rekeyHandle_keeps_iff locked).mpr
      constructor
      · rintro ⟨opcode, epoch, coins, made⟩
        exact checked (.rekeyInit opcode epoch coins made)
      · rintro ⟨opcode, epoch, opened⟩
        exact checked (.rekeyConfirm opcode epoch opened)

/-- A locked session, and control messages that name session 5. -/
def guardedSession : Session :=
  { sessionId := 77, state := .locked }

def strayControl (opcode : UInt8) : PacketBuf :=
  controlPacket default true 5 1 (opcode :: (leBytes 8 5 ++ leBytes 8 0))

theorem foreign_strayControl
    {opcode : UInt8} (named : (strayControl opcode).embeddedSession = some 5) :
    Foreign guardedSession (strayControl opcode) where
  control := buildPacket_channel ..
  header := by
    have header : (strayControl opcode).headerSession = 5 :=
      buildPacket_sessionId ..
    rw [header]
    decide
  embedded := by
    intro id embedded
    rw [named] at embedded
    cases embedded
    decide

theorem foreign_control_unaffected_reconnect :
    Foreign guardedSession (strayControl ctrlReconnect) ∧
      Unaffected sampleSuite guardedSession (strayControl ctrlReconnect) := by
  have foreign : Foreign guardedSession (strayControl ctrlReconnect) :=
    foreign_strayControl (by decide +kernel)
  have opcode : (strayControl ctrlReconnect).opcode = ctrlReconnect := by
    decide +kernel
  refine ⟨foreign, ?_⟩
  apply (foreign_control_unaffected_iff sampleSuite guardedSession _ rfl
    foreign).mpr
  intro acts
  cases acts with
  | heartbeat other => exact absurd (opcode.symm.trans other) (by decide)
  | heartbeatAck other => exact absurd (opcode.symm.trans other) (by decide)
  | portHop other => exact absurd (opcode.symm.trans other) (by decide)
  | rekeyInit other => exact absurd (opcode.symm.trans other) (by decide)
  | rekeyConfirm other => exact absurd (opcode.symm.trans other) (by decide)

/-- A heartbeat of session 5 counts as one of session 77. -/
theorem foreign_heartbeat_counts :
    ¬ ∀ (s : Session) (p : PacketBuf),
        s.state = .locked → Foreign s p → Unaffected sampleSuite s p := by
  intro unaffected
  have foreign : Foreign guardedSession (strayControl ctrlHeartbeat) :=
    foreign_strayControl (by decide +kernel)
  have keeps := unaffected guardedSession _ rfl foreign
  exact (heartbeatHandle_keeps_iff.mp keeps.heartbeat).1
    ⟨by decide +kernel, by decide +kernel⟩

end PqComm
