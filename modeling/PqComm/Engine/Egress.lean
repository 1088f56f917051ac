import PqComm.Engine.PoolUse
import PqComm.Handshake.Completeness

/-!
# Which packets of a run are acceptable, and which are sealed

A receiver drops a packet without a sequence number, and one that is too
small, too large or on no channel.  The counter of an engine starts at zero
and wraps, and only some of the senders know the limits, so a packet is
acceptable exactly when it drew a number and fits.

A data packet is sealed exactly when its session was locked at that moment,
which the flag `session_is_locked` of the engine does not tell.
-/

namespace PqComm

open Lib

section

variable (C : CryptoSuite)

/-- What a sender was given is within the limits of the receiver. -/
def Fits (item : TxItem) : Prop :=
  match item.origin with
  | .chat => item.body.length ≤ 1400
  | .video => item.body.length ≤ 1400
  | .parity => parityLength item.sess item.seq item.body ≤ 1400
  | .relay =>
      1 ≤ item.body.length ∧ chControl ≤ item.channel ∧
        item.channel ≤ chVideo
  | _ => True

/-- The packet has the encrypted flag and is what `session_enc_apply` made of
a data packet. -/
def Sealed (item : TxItem) : Prop :=
  item.pkt.data 5 &&& packetFlagEncrypted ≠ 0 ∧
    ∃ p v q,
      packetParse p = some v ∧ v.channelId ≠ chControl ∧
        item.sess.state = .locked ∧
        sessionEncApply C p v item.sess = (true, q) ∧ SameWire item.pkt q

variable {C}

/-! ## Sealing -/

section

variable (buf : PacketBuf) (clear : Bool) {sessionId : UInt64}
  {channel : UInt8} (seq : UInt32) {body : Bytes} {s : Session}

theorem sealTx_locked
    (locked : s.state = .locked) (data : channel ≠ chControl)
    (fits : body.length ≤ 1476) :
    sealTx C (buildPacket buf clear 0 sessionId channel seq body) s =
      buildPacket buf clear packetFlagEncrypted sessionId channel seq
        (encPayload C buf clear sessionId channel seq body s) := by
  rw [sealTx, packetParse_buildPacket _ _ _ _ _ _ _ (by decide) fits]
  exact congrArg Prod.snd
    (sessionEncApply_buildPacket C buf clear sessionId channel seq body s
      locked data fits)

theorem sealTx_plain
    (plain : s.state ≠ .locked ∨ channel = chControl ∨ 1476 < body.length) :
    sealTx C (buildPacket buf clear 0 sessionId channel seq body) s =
      buildPacket buf clear 0 sessionId channel seq body := by
  by_cases fits : body.length ≤ 1476
  · rw [sealTx, packetParse_buildPacket _ _ _ _ _ _ _ (by decide) fits]
    rcases plain with idle | control | large
    · simp [sessionEncApply, idle]
    · simp [sessionEncApply, builtView, control]
    · omega
  · rw [sealTx,
      packetParse_buildPacket_eq_none _ _ _ _ _ _ _ (Nat.not_le.mp fits)]

end

/-! ## Acceptable packets -/

variable (C)

variable {C}

theorem sealed_of_sealTx
    {item : TxItem} (buf : PacketBuf) (clear : Bool)
    (made :
      SameWire item.pkt
        (sealTx C
          (buildPacket buf clear 0 item.sess.sessionId item.channel item.seq
            item.body) item.sess))
    (locked : item.sess.state = .locked) (data : item.channel ≠ chControl)
    (fits : item.body.length ≤ 1476) : Sealed C item := by
  constructor
  · rw [made.data, sealTx_locked buf clear item.seq locked data fits,
      buildPacket_flags]
    decide
  · refine ⟨_, _, _, packetParse_buildPacket buf clear 0 item.sess.sessionId
      item.channel item.seq item.body (by decide) fits, data, locked,
      sessionEncApply_buildPacket C buf clear _ _ item.seq item.body
        item.sess locked data fits, ?_⟩
    rwa [sealTx_locked buf clear item.seq locked data fits] at made

/-- The channel byte of a packet is a data channel. -/
def OnDataChannel (p : PacketBuf) : Prop :=
  chAudio ≤ p.data 14 ∧ p.data 14 ≤ chVideo

theorem Built.sealed_iff
    {item : TxItem} (built : Built C item) (genuine : item.origin ≠ .decoy)
    (data : OnDataChannel item.pkt) :
    Sealed C item ↔
      item.sess.state = .locked ∧ item.origin ≠ .parity ∧
        item.body.length ≤ 1476 := by
  have notControl : item.pkt.data 14 ≠ chControl := by
    intro control
    have low := data.1
    rw [control] at low
    exact absurd low (by decide)
  cases built with
  | message origin channel made =>
      obtain ⟨buf, clear, sessionId, payload, same, -⟩ := made
      rw [same.data, buildPacket_channel] at notControl
      exact absurd rfl notControl
  | data kind buf clear made =>
      have notParity : item.origin ≠ .parity := by
        intro parity
        simp [DataFits, parity] at kind
      by_cases plain :
          item.sess.state ≠ .locked ∨ item.channel = chControl ∨
            1476 < item.body.length
      · have unflagged : item.pkt.data 5 = 0 := by
          rw [made.data, sealTx_plain buf clear item.seq plain,
            buildPacket_flags]
        have channel : item.pkt.data 14 = item.channel := by
          rw [made.data, sealTx_plain buf clear item.seq plain,
            buildPacket_channel]
        constructor
        · rintro ⟨flagged, -⟩
          rw [unflagged] at flagged
          exact absurd rfl flagged
        · rintro ⟨locked, -, fits⟩
          rcases plain with idle | control | large
          · exact absurd locked idle
          · exact absurd (channel.trans control) notControl
          · omega
      · obtain ⟨locked, channel, fits⟩ :
            item.sess.state = .locked ∧ item.channel ≠ chControl ∧
              item.body.length ≤ 1476 := by
          simpa using plain
        exact iff_of_true
          (sealed_of_sealTx buf clear made locked channel fits)
          ⟨locked, notParity, fits⟩
  | parity origin channel buf payload made size =>
      constructor
      · rintro ⟨flagged, -⟩
        rw [made.data, buildPacket_flags] at flagged
        exact absurd rfl flagged
      · rintro ⟨-, notParity, -⟩
        exact absurd origin notParity
  | decoy origin =>
      exact absurd origin genuine

variable (C)

/-- In every run that keeps its buffers apart, a packet on a data channel is
sealed exactly when its session was locked, it is no parity packet and it was
parsed. -/
theorem enqueued_sealed_iff
    (config : EngineConfig) (audio video : Bool) (acts : List EngineAct) :
    (transportEngineInit config audio video).BuffersApart C acts →
      ∀ item ∈ ((transportEngineInit config audio video).run C acts).enqueued,
        item.origin ≠ .decoy → OnDataChannel item.pkt →
          (Sealed C item ↔
            item.sess.state = .locked ∧ item.origin ≠ .parity ∧
              item.body.length ≤ 1476) := by
  intro _ item member genuine data
  exact (((sound_transportEngineInit C config audio video).run C acts).built
    item member).sealed_iff genuine data

end

/-! ## A run to compute with

An initiator connects, is answered by the responder of `sampleRun`, and
locks.  Then a FILE_META arrives. -/

def sampleConfig : EngineConfig :=
  { localPort := 9001, localPortAlt := 9003, multipathEnabled := false
    pathCount := 1 }

def sampleConnect : ConnectEnv :=
  { address := some (List.replicate 16 1), key := sampleSetup.iniKey
    sessionId := 9, buf := some default }

/-- A poll without devices and without buffers of its own. -/
def samplePoll : PollEnv where
  result := sampleHandlerEnv
  packet := sampleHandlerEnv
  inbound := { now := 5000, dataBuf := none, parityBuf := none }
  now := 5000
  heartbeatBuf := none
  reconnectBuf := none
  decoyBuf := none
  decoyNoise := []
  audioFrame := none
  audioBuf := none
  videoFrame := none
  videoBuf := none
  fileContent := none
  fileBuf := none

/-- A message of the sample responder. -/
def sampleAnswer (seq : UInt32) (payload : Bytes) : EngineAct :=
  .receive 0 (buildPacket default true 0 77 chControl seq payload)

/-- The engine locks, and the event is taken. -/
def lockingActs : List EngineAct :=
  [.connect sampleConnect 9000, sampleAnswer 1 (acceptPayload 77),
    .poll samplePoll,
    sampleAnswer 2 (ctrlPqKemResponse :: sampleCiphertext),
    .poll samplePoll, sampleAnswer 3 sampleLock, .poll samplePoll,
    .poll samplePoll]

def sampleChat : EngineAct :=
  .sendChat [0x68, 0x69] (some default) none

/-- What the sample engine has sent after `acts`. -/
def sampleSent (acts : List EngineAct) : List TxItem :=
  ((transportEngineInit sampleConfig false false).run sampleSuite
    acts).enqueued

theorem enqueued_sealed_chat :
    ∃ item ∈ sampleSent (lockingActs ++ [sampleChat]),
      item.origin = .chat ∧ Sealed sampleSuite item := by
  have found :
      (sampleSent (lockingActs ++ [sampleChat])).any fun item =>
        item.origin == .chat && item.pkt.data 14 == chChat &&
          item.sess.state == .locked && item.body.length == 3 := by
    decide +kernel
  obtain ⟨item, member, facts⟩ := List.any_eq_true.mp found
  obtain ⟨⟨⟨origin, channel⟩, locked⟩, size⟩ :
      ((item.origin = .chat ∧ item.pkt.data 14 = chChat) ∧
        item.sess.state = .locked) ∧ item.body.length = 3 := by
    simpa using facts
  have data : OnDataChannel item.pkt := by
    rw [OnDataChannel, channel]
    decide
  have apart :
      (transportEngineInit sampleConfig false false).BuffersApart sampleSuite
        (lockingActs ++ [sampleChat]) := by
    decide +kernel
  refine ⟨item, member, origin, ?_⟩
  exact
    (enqueued_sealed_iff sampleSuite sampleConfig false false _ apart item
      member (by simp [origin]) data).mpr
        ⟨locked, by simp [origin], by omega⟩

/-- After the FILE_META has reset the session the flag of the engine still
says that it is locked, and a chat message leaves in the clear. -/
theorem chat_after_reset_not_sealed :
    ¬ ∀ item ∈
        sampleSent
          (lockingActs ++
            [.receive 0 sampleFileMeta, .poll samplePoll, sampleChat]),
      item.origin ≠ .decoy → OnDataChannel item.pkt →
        Sealed sampleSuite item := by
  intro sealed
  have found :
      (sampleSent
        (lockingActs ++
          [.receive 0 sampleFileMeta, .poll samplePoll,
            sampleChat])).any fun item =>
        item.origin == .chat && item.pkt.data 14 == chChat &&
          item.pkt.data 5 == 0 := by
    decide +kernel
  obtain ⟨item, member, facts⟩ := List.any_eq_true.mp found
  obtain ⟨⟨origin, channel⟩, plain⟩ :
      (item.origin = .chat ∧ item.pkt.data 14 = chChat) ∧
        item.pkt.data 5 = 0 := by
    simpa using facts
  have data : OnDataChannel item.pkt := by
    rw [OnDataChannel, channel]
    decide
  have flagged := (sealed item member (by simp [origin]) data).1
  rw [plain] at flagged
  exact flagged rfl

end PqComm
