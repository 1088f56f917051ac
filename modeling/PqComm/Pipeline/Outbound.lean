import PqComm.Core.WireFormat
import PqComm.Layers.Integrity

/-!
# The outbound pipeline

`pipeline_outbound_process` writes a packet into a buffer and seals it.  What
leaves is read back by `packet_parse`, `static_check` and `session_enc_check`
of a peer with the same keys, into whatever buffer the datagram arrives.
-/

namespace PqComm

open Lib

section

variable (C : CryptoSuite)

/-- `pipeline_outbound_process`: whether it returned 0, and the buffer. -/
def pipelineOutboundProcess (p : PacketBuf) (sess : Session) (seq : UInt32)
    (channel : UInt8) (payload : Bytes) : Bool × PacketBuf :=
  let p := buildPacket p true 0 sess.sessionId channel seq payload
  if channel ≠ chControl then
    match packetParse p with
    | none => (false, p)
    | some view => sessionEncApply C p view sess
  else
    (true, p)

/-- Two sessions that can read each other's data. -/
structure SharesKeys (sender receiver : Session) : Prop where
  senderLocked : sender.state = .locked
  receiverLocked : receiver.state = .locked
  sessionId : receiver.sessionId = sender.sessionId
  sessionKey : receiver.keys.sessionKey = sender.keys.sessionKey
  channelKeys : receiver.keys.channelKeys = sender.keys.channelKeys

/-- `received` passes the parser and the two checks of `sess` and yields the
data that was sent. -/
def Yields (sess : Session) (received : PacketBuf) (seq : UInt32)
    (channel : UInt8) (payload : Bytes) : Prop :=
  ∃ view opened : PacketView,
    packetParse received = some view ∧ staticCheck view = true ∧
      sessionEncCheck C view sess = (sess, some opened) ∧
      opened.payloadBytes = payload ∧ opened.length = payload.length ∧
      opened.seq = seq ∧ opened.channelId = channel ∧
      opened.sessionId = sess.sessionId

variable {C} {sender receiver : Session} {channel : UInt8} {payload : Bytes}

theorem SharesKeys.channelMask
    (shares : SharesKeys sender receiver) (channel : UInt8) :
    channelMask receiver.keys channel = channelMask sender.keys channel := by
  unfold PqComm.channelMask
  rw [shares.channelKeys]

/-- The packet that leaves. -/
def outboundPacket (C : CryptoSuite) (buf : PacketBuf) (sender : Session)
    (seq : UInt32) (channel : UInt8) (payload : Bytes) : PacketBuf :=
  buildPacket buf true packetFlagEncrypted sender.sessionId channel seq
    (encPayload C buf true sender.sessionId channel seq payload sender)

theorem pipelineOutboundProcess_eq
    (buf : PacketBuf) (seq : UInt32) (locked : sender.state = .locked)
    (data : channel ≠ chControl) (fits : payload.length ≤ 1476) :
    pipelineOutboundProcess C buf sender seq channel payload =
      (true, outboundPacket C buf sender seq channel payload) := by
  have parsed :=
    packetParse_buildPacket buf true 0 sender.sessionId channel seq payload
      (by decide) fits
  unfold pipelineOutboundProcess
  dsimp only
  rw [if_pos data, parsed]
  exact sessionEncApply_buildPacket C buf true sender.sessionId channel seq
    payload sender locked data fits

theorem outboundPacket_sealed
    (buf : PacketBuf) (seq : UInt32) (locked : sender.state = .locked)
    (data : channel ≠ chControl) (fits : payload.length ≤ 1476) :
    let p := buildPacket buf true 0 sender.sessionId channel seq payload
    let v := builtView buf true 0 sender.sessionId channel seq payload
    outboundPacket C buf sender seq channel payload =
      sealedPacket p v (sealingCall C p v sender) := by
  intro p v
  have applied :=
    sessionEncApply_buildPacket C buf true sender.sessionId channel seq
      payload sender locked data fits
  have sealed :=
    sessionEncApply_eq (C := C) (p := p) (v := v) locked data
      (by rw [applied])
  rw [applied] at sealed
  exact sealed

/-- What the cipher is given is the payload. -/
theorem sealingData_builtView
    (buf : PacketBuf) (sessionId : UInt64) (channel : UInt8) (seq : UInt32)
    (payload : Bytes) :
    memSlice
        (sealingData (buildPacket buf true 0 sessionId channel seq payload)
          (builtView buf true 0 sessionId channel seq payload))
        24 payload.length = payload := by
  rw [sealingData, memSlice_memWrite_disjoint (by simp), buildPacket_payload]

/-- A check whose decryption succeeds leaves the plaintext in the payload. -/
theorem sessionEncCheck_opened
    {w : PacketView} {plain : Bytes} {sess : Session}
    (locked : sess.state = .locked) (data : w.channelId ≠ chControl)
    (length : plain.length = w.length)
    (opened :
      aeadDecrypt C sess.keys.sessionKey w.nonce
        (buildAad sess.keys w.channelId w.buf.data) w.payloadBytes w.tag =
          some plain) :
    ∃ after, sessionEncCheck C w sess = (sess, some after) ∧
      after.payloadBytes = plain ∧ after.length = w.length ∧
      after.seq = w.seq ∧ after.channelId = w.channelId ∧
      after.sessionId = w.sessionId := by
  unfold sessionEncCheck
  rw [if_neg (not_not.mpr locked), if_neg data, opened]
  refine ⟨_, rfl, ?_, rfl, rfl, rfl, rfl⟩
  have written := memSlice_memWrite_self w.buf.data w.payload plain
  rw [length] at written
  exact written

/-- A sealed packet that arrives is parsed, and the check of a session with
the same keys opens it. -/
theorem outboundPacket_opened
    (aead : AeadInverts C) (shares : SharesKeys sender receiver)
    (data : channel ≠ chControl) (fits : payload.length + 28 ≤ 1476)
    (buf : PacketBuf) (seq : UInt32) {received : PacketBuf}
    (wire :
      received.wire =
        (outboundPacket C buf sender seq channel payload).wire) :
    ∃ view opened : PacketView,
      packetParse received = some view ∧
        (sealedView buf true packetFlagEncrypted sender.sessionId channel seq
          (encPayload C buf true sender.sessionId channel seq payload
            sender)).SameFields view ∧
        sessionEncCheck C view receiver = (receiver, some opened) ∧
        opened.payloadBytes = payload ∧ opened.length = payload.length ∧
        opened.seq = seq ∧ opened.channelId = channel ∧
        opened.sessionId = receiver.sessionId := by
  have long :
      (encPayload C buf true sender.sessionId channel seq payload
        sender).length = 28 + payload.length :=
    length_encPayload C buf true sender.sessionId channel seq payload sender
  obtain ⟨w, parsed, same⟩ :=
    packetParse_same_wire
      (packetParse_buildPacket_sealed buf true packetFlagEncrypted
        sender.sessionId channel seq _ (by decide) (by omega) (by omega))
      wire
  have sameChannel : w.channelId = channel := same.channelId
  have sameLength : w.length = payload.length := by
    refine same.length.trans ?_
    change List.length _ - 28 = _
    omega
  rw [outboundPacket_sealed buf seq shares.senderLocked data (by omega)]
    at wire
  have plain :=
    aeadDecrypt_sealed aead
      (packetParse_buildPacket buf true 0 sender.sessionId channel seq
        payload (by decide) (by omega))
      wire parsed same.encrypted shares.sessionKey
      (shares.channelMask _)
  have text :=
    sealingData_builtView buf sender.sessionId channel seq payload
  obtain ⟨opened, checked, contents, length, seqSame, channelSame, idSame⟩ :=
    sessionEncCheck_opened shares.receiverLocked
      (by rw [sameChannel]; exact data)
      (by rw [sameLength]; exact length_memSlice _ _ _) plain
  exact ⟨w, opened, parsed, same, checked, contents.trans text,
    length.trans sameLength, seqSame.trans same.seq,
    channelSame.trans sameChannel,
    idSame.trans (same.sessionId.trans shares.sessionId.symm)⟩

/-- Between sessions that share their keys, data of any length the checks
allow survives the way from buffer to buffer. -/
theorem pipelineOutbound_roundTrip
    (aead : AeadInverts C) (shares : SharesKeys sender receiver)
    (low : chAudio ≤ channel) (high : channel ≤ chVideo) {seq : UInt32}
    (nonzero : seq ≠ 0) (filled : 1 ≤ payload.length)
    (small : payload.length ≤ 1400) (buf : PacketBuf) :
    (pipelineOutboundProcess C buf sender seq channel payload).1 = true ∧
      ∀ received : PacketBuf,
        received.wire =
          (pipelineOutboundProcess C buf sender seq channel
            payload).2.wire →
        Yields C receiver received seq channel payload := by
  have data : channel ≠ chControl := by
    rintro rfl
    exact absurd low (by decide)
  have control : chControl ≤ channel :=
    UInt8.le_trans (by decide : chControl ≤ chAudio) low
  rw [pipelineOutboundProcess_eq buf seq shares.senderLocked data (by omega)]
  refine ⟨rfl, fun received wire => ?_⟩
  obtain ⟨view, opened, parsed, same, reads⟩ :=
    outboundPacket_opened aead shares data (by omega) buf seq wire
  have long :
      (encPayload C buf true sender.sessionId channel seq payload
        sender).length = 28 + payload.length :=
    length_encPayload C buf true sender.sessionId channel seq payload sender
  have static : staticCheck view = true := by
    rw [same.staticCheck]
    exact
      (staticCheck_sealedView buf true packetFlagEncrypted sender.sessionId
        channel seq
        (encPayload C buf true sender.sessionId channel seq payload
          sender)).mpr
        ⟨⟨by decide, control, high, nonzero⟩, by omega, by omega⟩
  exact ⟨view, opened, parsed, static, reads⟩

end

/-- One end of a locked session; the channel keys end below the video
channel. -/
def sampleEnd : Session :=
  { sessionInit with
    state := .locked
    sessionId := 9
    keys :=
      { sessionInit.keys with
        sessionKey := List.replicate 32 5
        channelKeys := List.replicate 6 (List.replicate 32 3) } }

/-- A video packet between a sender and a receiver that has its own address
and has heard other numbers. -/
theorem pipelineOutbound_roundTrip_video :
    (pipelineOutboundProcess sampleSuite default sampleEnd 70000 chVideo
        [1, 2, 3]).1 = true ∧
      Yields sampleSuite { sampleEnd with lastSeq := 69999, addrLen := 28 }
        (pipelineOutboundProcess sampleSuite default sampleEnd 70000 chVideo
          [1, 2, 3]).2
        70000 chVideo [1, 2, 3] := by
  have shares :
      SharesKeys sampleEnd
        { sampleEnd with lastSeq := 69999, addrLen := 28 } :=
    ⟨rfl, rfl, rfl, rfl, rfl⟩
  obtain ⟨sent, arrives⟩ :=
    pipelineOutbound_roundTrip aeadInverts_sampleSuite shares
      (by decide : chAudio ≤ chVideo) (by decide)
      (by decide : (70000 : UInt32) ≠ 0)
      (by decide : 1 ≤ ([1, 2, 3] : Bytes).length) (by decide) default
  exact ⟨sent, arrives _ rfl⟩

end PqComm
