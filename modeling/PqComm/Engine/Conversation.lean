import PqComm.Core.FecRecovery
import PqComm.Engine.SecureChannel
import PqComm.Handshake.Completeness
import PqComm.Layers.ReplayExact
import PqComm.Pipeline.Outbound

/-!
# From the handshake to the conversation

Two sides that have finished a handshake talk: each writes data packets with
`pipeline_outbound_process`, and the network brings them to the other side's
`pipeline_inbound_process` late, out of order, several times or not at all.
What a side hands on is what has reached it, less what the replay window must
refuse.

The handshake uses neither the replay window nor the reassembly, so both are
as new when the first data packet arrives.
-/

namespace PqComm

open Lib

/-! ## What the handshake leaves alone -/

/-- The part of a session that receives data. -/
structure ReceiveSide where
  addr : Bytes
  addrLen : Nat
  lastSeq : UInt32
  recvBitmap : UInt64
  fecRecovered : Option PacketBuf
  resilience : Resilience

def Session.receiveSide (s : Session) : ReceiveSide where
  addr := s.addr
  addrLen := s.addrLen
  lastSeq := s.lastSeq
  recvBitmap := s.recvBitmap
  fecRecovered := s.fecRecovered
  resilience := s.resilience

/-- The receiving part of a session that was reset. -/
def freshSide (addr : Bytes) (addrLen : Nat) : ReceiveSide where
  addr := addr
  addrLen := addrLen
  lastSeq := 0
  recvBitmap := 0
  fecRecovered := none
  resilience := resilienceInit

theorem receiveSide_sessionReset (s : Session) :
    (sessionReset s).receiveSide = freshSide s.addr s.addrLen :=
  rfl

section

variable (C : CryptoSuite) {s s' : Session}

theorem receiveSide_verifyProof (label pre msg : Bytes) :
    (verifyProof C s label pre msg).1.receiveSide = s.receiveSide := by
  unfold verifyProof
  dsimp only [deriveIdProofKey]
  split
  · rfl
  · split
    · rfl
    · rfl

theorem receiveSide_lockSession (derived : lockSession C s = some s') :
    s'.receiveSide = s.receiveSide := by
  obtain ⟨material, -, rfl⟩ := Option.map_eq_some_iff.mp derived
  rfl

theorem receiveSide_processOpcode
    (pre : Bytes) (opcode : UInt8) (msg : Bytes) :
    (processOpcode C s pre opcode msg).1.receiveSide = s.receiveSide := by
  have checked (label : Bytes) :=
    receiveSide_verifyProof C (s := s) label pre msg
  unfold processOpcode
  split
  · split
    · rfl
    · rfl
  split
  · split
    · rfl
    · rfl
  split
  · split
    · rfl
    · rfl
  split
  · split
    · rfl
    · split
      · rfl
      · rfl
  split
  · split
    · rfl
    · exact checked labelIdProof
  split
  · split
    · rfl
    · dsimp only
      split
      · exact checked labelLockProof
      · split
        · exact checked labelLockProof
        · rename_i derived
          exact (receiveSide_lockSession C derived).trans
            (checked labelLockProof)
  · rfl

theorem receiveSide_handshakeProcessMessage (v : PacketView) :
    (handshakeProcessMessage C s v).1.receiveSide = s.receiveSide := by
  unfold handshakeProcessMessage
  split
  · rfl
  · dsimp only
    split
    · rfl
    · split
      · rfl
      · exact receiveSide_processOpcode C _ _ _

theorem receiveSide_handshakeBuildProof
    (opcode : UInt8) (label : Bytes) (buf : PacketBuf) (seq : UInt32) :
    (handshakeBuildProof C s opcode label buf seq).sess.receiveSide =
      s.receiveSide := by
  unfold handshakeBuildProof
  dsimp only [deriveIdProofKey]
  split
  · rfl
  · rfl

theorem receiveSide_initiatorReply
    (env : HsEnv) (opcode : UInt8) (seq : UInt32) :
    (initiatorReply C env s opcode seq).sess.receiveSide =
      s.receiveSide := by
  unfold initiatorReply
  cases env.buf with
  | none =>
      rfl
  | some buf =>
      dsimp only
      split
      · unfold handshakeBuildKemInit
        split
        · rfl
        · split
          · rfl
          · rfl
      · split
        · have sent := receiveSide_handshakeBuildProof C (s := s)
            ctrlIdentityProof labelIdProof buf seq
          unfold handshakeBuildIdentity
          dsimp only
          split
          · exact sent
          · exact sent
        · rfl

theorem receiveSide_responderReply
    (env : HsEnv) (opcode : UInt8) (seq : UInt32) :
    (responderReply C env s opcode seq).sess.receiveSide =
      s.receiveSide := by
  unfold responderReply
  cases env.buf with
  | none =>
      rfl
  | some buf =>
      dsimp only
      split
      · rfl
      · split
        · unfold handshakeBuildKemResponse
          split
          · rfl
          · split
            · rfl
            · dsimp only
              split
              · rfl
              · rfl
        · split
          · have sent := receiveSide_handshakeBuildProof C (s := s)
              ctrlSessionLocked labelLockProof buf seq
            unfold handshakeBuildLocked
            dsimp only
            split
            · exact sent
            · split
              · exact sent
              · rename_i derived
                exact (receiveSide_lockSession C derived).trans sent
          · rfl

/-- A receiving part that is as new stays so over a call of a runner, which
either leaves it alone or resets the session. -/
theorem receiveSide_handshakeRun
    {reply : HsEnv → Session → UInt8 → UInt32 → HsOut}
    (replies :
      ∀ (t : Session) env opcode seq,
        (reply env t opcode seq).sess.receiveSide = t.receiveSide)
    {addr : Bytes} {addrLen : Nat}
    (fresh : s.receiveSide = freshSide addr addrLen)
    (env : HsEnv) (p : PacketBuf) (seq : UInt32) :
    (handshakeRun C reply env s p seq).sess.receiveSide =
      freshSide addr addrLen := by
  unfold handshakeRun
  cases packetParse p with
  | none =>
      exact fresh
  | some v =>
      have processed :=
        (receiveSide_handshakeProcessMessage C (s := s) v).trans fresh
      dsimp only
      split
      · rw [receiveSide_sessionReset]
        injection processed with sameAddr sameLen
        rw [sameAddr, sameLen]
      · exact processed
      · exact (replies _ _ _ _).trans processed

/-- After any run of the handshake both receiving parts are as new. -/
theorem receiveSide_handshake (setup : HsSetup) (ds : List Delivery) :
    ((setup.start C).run C ds).ini.receiveSide =
        freshSide setup.iniSession.addr setup.iniSession.addrLen ∧
      ((setup.start C).run C ds).resp.receiveSide =
        freshSide setup.respSession.addr setup.respSession.addrLen := by
  induction ds using List.reverseRecOn with
  | nil =>
      exact ⟨rfl, rfl⟩
  | append_singleton ds d inductionHypothesis =>
      obtain ⟨ini, resp⟩ := inductionHypothesis
      have last :
          (setup.start C).run C (ds ++ [d]) =
            ((setup.start C).run C ds).step C d := by
        simp [HsWorld.run]
      rw [last]
      unfold HsWorld.step
      cases d.party with
      | initiator =>
          exact ⟨receiveSide_handshakeRun C
              (fun _ => receiveSide_initiatorReply C) ini _ _ _, resp⟩
      | responder =>
          exact ⟨ini, receiveSide_handshakeRun C
              (fun _ => receiveSide_responderReply C) resp _ _ _⟩

end

/-! ## A link between two sides -/

/-- One side of a link: the session, the counter of its packets and its
filters; what it has said with the packet of each message; the messages of the
packets that have reached it, and what it has handed on. -/
structure LinkEnd where
  sess : Session
  seq : UInt32
  filters : Filters
  said : List (SentData × PacketBuf) := []
  reached : List SentData := []
  handed : List (UInt8 × PacketBuf) := []

/-- A side says something, or its peer's packet number `i` reaches it; the
call has the buffer in which the datagram was received. -/
inductive LinkAct where
  | say (side : Side) (buf : PacketBuf) (channel : UInt8) (payload : Bytes)
  | arrive (side : Side) (i : Nat) (call : InboundCall)

section

variable (C : CryptoSuite)

/-- `pipeline_outbound_process` with the next number. -/
def LinkEnd.say (e : LinkEnd) (buf : PacketBuf) (channel : UInt8)
    (payload : Bytes) : LinkEnd :=
  let built := pipelineOutboundProcess C buf e.sess e.seq channel payload
  if built.1 then
    { e with
      seq := e.seq + 1
      said := e.said ++ [(⟨channel, e.seq, payload⟩, built.2)] }
  else
    { e with seq := e.seq + 1 }

/-- `pipeline_inbound_process`; `message` is what the packet says. -/
def LinkEnd.arrive (e : LinkEnd) (message : Option SentData)
    (call : InboundCall) : LinkEnd :=
  let processed :=
    pipelineInboundProcess C call.env e.filters e.sess call.rxq call.packet
  { e with
    sess := processed.2.2.sess
    filters := processed.2.1
    reached := e.reached ++ message.toList
    handed := e.handed ++ processed.2.2.deliveries call.rxq }

def linkStep (l : Side → LinkEnd) : LinkAct → Side → LinkEnd
  | .say side buf channel payload =>
      Function.update l side ((l side).say C buf channel payload)
  | .arrive side i call =>
      Function.update l side
        ((l side).arrive C ((l side.other).said[i]?.map Prod.fst) call)

def linkRun (l : Side → LinkEnd) (acts : List LinkAct) : Side → LinkEnd :=
  acts.foldl (linkStep C) l

/-- What is said goes over a data channel and fits.  What arrives is a packet
that the other side has emitted, from the address the session knows; the
filters let it pass and its queue has room. -/
def LinkAct.Carried (l : Side → LinkEnd) : LinkAct → Prop
  | .say _ _ channel payload =>
      DataChannel channel ∧ payload.length + 28 ≤ 1476
  | .arrive side i call =>
      (∃ sent ∈ (l side.other).said[i]?,
          call.packet.wire = sent.2.wire) ∧
        call.packet.addr = (l side).sess.addr ∧
        call.packet.addrLen = (l side).sess.addrLen ∧
        PassesFilters call.env (l side).filters call.packet ∧
        ∀ channel, ringFull (call.rxq.ring channel) = false

def CarriedRun (l : Side → LinkEnd) : List LinkAct → Prop
  | [] => True
  | act :: acts => act.Carried l ∧ CarriedRun (linkStep C l act) acts

end

/-- The messages that are fresh to the replay window, in the order of
arrival. -/
def freshMessages (accepted : List UInt32) : List SentData → List SentData
  | [] => []
  | message :: rest =>
      if replayAccepts accepted message.seq then
        message :: freshMessages (message.seq :: accepted) rest
      else
        freshMessages accepted rest

/-! ## A packet that arrives -/

/-- Nothing waits to be rebuilt, and the packets come over one path. -/
structure Quiet (s : Session) : Prop where
  single : s.resilience.multipathEnabled = false
  unpending : s.fecRecovered = none
  parityless : s.resilience.fecRxHaveParity = false

theorem quiet_of_receiveSide
    {s : Session} {addr : Bytes} {addrLen : Nat}
    (fresh : s.receiveSide = freshSide addr addrLen) : Quiet s := by
  injection fresh with _ _ _ _ unpending resilience
  exact ⟨by rw [resilience]; rfl, unpending, by rw [resilience]; rfl⟩

/-- The sender may have moved on, as long as its keys are the same. -/
theorem SharesKeys.congr
    {sender receiver receiver' : Session}
    (shares : SharesKeys sender receiver)
    (same : SameCore receiver receiver') : SharesKeys sender receiver' where
  senderLocked := shares.senderLocked
  receiverLocked := same.state.trans shares.receiverLocked
  sessionId := same.sessionId.trans shares.sessionId
  sessionKey := by rw [same.keys]; exact shares.sessionKey
  channelKeys := by rw [same.keys]; exact shares.channelKeys

theorem SharesKeys.congr_sender
    {sender sender' receiver : Session}
    (shares : SharesKeys sender receiver)
    (same : SameCore sender sender') : SharesKeys sender' receiver where
  senderLocked := same.state.trans shares.senderLocked
  receiverLocked := shares.receiverLocked
  sessionId := shares.sessionId.trans same.sessionId.symm
  sessionKey := by rw [same.keys]; exact shares.sessionKey
  channelKeys := by rw [same.keys]; exact shares.channelKeys

/-- The datagram `p` says `message` to `receiver`. -/
structure Says (C : CryptoSuite) (receiver : Session) (p : PacketBuf)
    (message : SentData) : Prop where
  channel : DataChannel message.channel
  fits : message.plain.length + 28 ≤ 1476
  made :
    ∃ buf sender, SharesKeys sender receiver ∧
      p = outboundPacket C buf sender message.seq message.channel
        message.plain

theorem Says.congr
    {C : CryptoSuite} {receiver receiver' : Session} {p : PacketBuf}
    {message : SentData} (spoken : Says C receiver p message)
    (same : SameCore receiver receiver') : Says C receiver' p message := by
  obtain ⟨buf, sender, shares, made⟩ := spoken.made
  exact ⟨spoken.channel, spoken.fits, buf, sender, shares.congr same, made⟩

/-- Without parity, `resilience_check` lets a data packet pass and rebuilds
nothing. -/
theorem Quiet.resilienceCheck
    {s : Session} (quiet : Quiet s) {v : PacketView}
    (data : v.flags &&& packetFlagFecParity = 0)
    (dataBuf parityBuf : Option PacketBuf) :
    (resilienceCheck v s dataBuf parityBuf).2 = true ∧
      Quiet (resilienceCheck v s dataBuf parityBuf).1 := by
  have recorded :
      Quiet { s with resilience := resilienceRecordRx s.resilience 0 0 } :=
    ⟨quiet.single, quiet.unpending, quiet.parityless⟩
  have tracked :
      Quiet
        (trackData v
          { s with resilience := resilienceRecordRx s.resilience 0 0 }
          dataBuf) := by
    unfold trackData
    split
    · have stored :
          Quiet
            { s with
              resilience :=
                fecRxTrack (resilienceRecordRx s.resilience 0 0) v.seq
                  v.buf.body } := by
        unfold fecRxTrack
        split
        · exact recorded
        · exact ⟨quiet.single, quiet.unpending, quiet.parityless⟩
      unfold tryRebuild
      rw [fecRxRebuild_idle stored.parityless]
      exact stored
    · exact recorded
  unfold PqComm.resilienceCheck
  split
  · exact ⟨rfl, quiet⟩
  · dsimp only
    rw [if_neg (not_not.mpr data)]
    exact ⟨rfl, tracked⟩

/-- The session gate lets a packet of the session pass. -/
theorem sessionCheck_of_peer
    {s : Session} (locked : s.state = .locked)
    (single : s.resilience.multipathEnabled = false)
    (known : s.addrLen ≠ 0) {v : PacketView}
    (data : v.channelId ≠ chControl) (id : v.sessionId = s.sessionId)
    (addr : v.buf.addr = s.addr) (addrLen : v.buf.addrLen = s.addrLen) :
    sessionCheck s v = some { v with pathIdx := 0 } := by
  unfold sessionCheck
  simp [data, locked, known, id, addr, addrLen, single]

/-- A queue with room takes a data packet. -/
theorem rxDemuxPush_room
    {rxq : RxQueues} (room : ∀ channel, ringFull (rxq.ring channel) = false)
    (p : PacketBuf) {channel : UInt8} (data : DataChannel channel) :
    (rxDemuxPush rxq p channel).1 = true := by
  have known : ¬ (channel < chControl ∨ channel > chVideo) := by
    rintro (low | high)
    · exact absurd (UInt8.lt_of_le_of_lt data.1 low) (by decide)
    · exact absurd data.2 (UInt8.not_le.mpr high)
  unfold rxDemuxPush ringPush
  rw [if_neg known, room channel]
  rfl

/-- What a packet that says `message` does to a session without parity: the
window decides whether it is handed on. -/
structure Hears (C : CryptoSuite) (s : Session) (message : SentData)
    (rxq : RxQueues) (post : PostCrypto) : Prop where
  nonzero : message.seq ≠ 0
  quiet : Quiet post.sess
  core : SameCore s post.sess
  addr : post.sess.addr = s.addr
  addrLen : post.sess.addrLen = s.addrLen
  lastSeq :
    post.sess.lastSeq =
      (seqCheckBitmap message.seq s.lastSeq s.recvBitmap).2.1
  recvBitmap :
    post.sess.recvBitmap =
      (seqCheckBitmap message.seq s.lastSeq s.recvBitmap).2.2
  handed :
    (post.deliveries rxq).map deliveredData =
      if (seqCheckBitmap message.seq s.lastSeq s.recvBitmap).1 then
        [message]
      else
        []

/-- `seq_check` of a session with one path. -/
theorem seqCheck_single
    {s : Session} (single : s.resilience.multipathEnabled = false)
    {v : PacketView} :
    seqCheck s v =
      ({ s with
          lastSeq := (seqCheckBitmap v.seq s.lastSeq s.recvBitmap).2.1
          recvBitmap := (seqCheckBitmap v.seq s.lastSeq s.recvBitmap).2.2 },
        (seqCheckBitmap v.seq s.lastSeq s.recvBitmap).1) := by
  unfold seqCheck
  by_cases zero : v.seq = 0
  · simp [zero, seqCheckBitmap]
  · simp [zero, single]

theorem Quiet.drainRecovered
    {s : Session} (quiet : Quiet s) (C : CryptoSuite) :
    drainRecovered C s = (s, none) := by
  unfold PqComm.drainRecovered
  rw [quiet.unpending]

/-- What is left of `pipeline_inbound_post_crypto` for a packet that opens: the
pending packet first, then the window and the queue. -/
theorem postCrypto_opens
    {C : CryptoSuite} {s s' : Session} {early : Option PacketBuf}
    (drained : drainRecovered C s = (s', early))
    (single : s'.resilience.multipathEnabled = false)
    {view opened : PacketView} (encrypted : view.encrypted = true)
    (checked : sessionEncCheck C view s' = (s', some opened))
    (data : DataChannel opened.channelId) {rxq : RxQueues}
    (room : ∀ channel, ringFull (rxq.ring channel) = false) :
    let window := seqCheckBitmap opened.seq s'.lastSeq s'.recvBitmap
    (pipelineInboundPostCrypto C s rxq view).sess =
        { s' with lastSeq := window.2.1, recvBitmap := window.2.2 } ∧
      (pipelineInboundPostCrypto C s rxq view).deliveries rxq =
        (early.toList.map fun p => (p.data 14, p)) ++
          if window.1 then [(opened.channelId, opened.buf)] else [] := by
  intro window
  have stage :
      cipherStage C (drainRecovered C s).1 view = (s', some opened) := by
    unfold cipherStage
    rw [drained, if_pos encrypted, checked]
  have taken := rxDemuxPush_room room opened.buf data
  obtain ⟨recovered, ⟨none, -⟩ | ⟨view', passed, kept, -⟩⟩ :=
    pipelineInboundPostCrypto_cases C s rxq view
  · rw [stage] at none
    cases none
  rw [stage] at passed
  cases passed
  rw [stage, seqCheck_single single] at kept
  have news := pipelineInboundPostCrypto_news C s rxq view
  rw [stage] at news
  simp only [Option.toList_some, List.flatMap_singleton] at news
  rw [seqCheck_single single] at news
  refine ⟨kept, ?_⟩
  unfold PostCrypto.deliveries
  rw [recovered, drained, news, taken]
  simp only [and_true]
  rfl

theorem hears_postCrypto
    {C : CryptoSuite} {s : Session} (quiet : Quiet s) {message : SentData}
    (nonzero : message.seq ≠ 0) (data : DataChannel message.channel)
    {view opened : PacketView} (encrypted : view.encrypted = true)
    (checked : sessionEncCheck C view s = (s, some opened))
    (seq : opened.seq = message.seq)
    (channel : opened.channelId = message.channel)
    (content :
      deliveredData (opened.channelId, opened.buf) = message)
    {rxq : RxQueues}
    (room : ∀ channel, ringFull (rxq.ring channel) = false) :
    Hears C s message rxq (pipelineInboundPostCrypto C s rxq view) := by
  obtain ⟨kept, handed⟩ :=
    postCrypto_opens (quiet.drainRecovered C) quiet.single encrypted checked
      (channel ▸ data) room
  rw [seq] at kept handed
  refine
    { nonzero := nonzero
      quiet := ?_
      core := ?_
      addr := ?_
      addrLen := ?_
      lastSeq := ?_
      recvBitmap := ?_
      handed := ?_ }
  · rw [kept]
    exact ⟨quiet.single, quiet.unpending, quiet.parityless⟩
  · rw [kept]
    exact ⟨rfl, rfl, rfl, rfl⟩
  · rw [kept]
  · rw [kept]
  · rw [kept]
  · rw [kept]
  · rw [handed]
    split
    · simp [content]
    · rfl

/-- What a decrypted packet holds is what the view of it says. -/
theorem deliveredData_opened
    {C : CryptoSuite} {s : Session} {p : PacketBuf}
    {view opened : PacketView} (parsed : packetParse p = some view)
    (encrypted : view.encrypted = true)
    (checked : (sessionEncCheck C view s).2 = some opened) :
    deliveredData (opened.channelId, opened.buf) =
      ⟨opened.channelId, opened.seq, opened.payloadBytes⟩ := by
  have kept := (sessionEncCheck_view C checked).1
  obtain ⟨seq, -, number⟩ := packetSeq_of_sessionEncCheck C parsed checked
  have length : wireLength opened.buf = wireLength p := by
    unfold wireLength
    congr 1
    apply memSlice_congr
    intro i _ upper
    exact sessionEncCheck_header C parsed checked (by omega)
  obtain ⟨-, -, ⟨-, -, rfl⟩ | ⟨-, rfl⟩⟩ := packetParse_cases parsed
  · rw [deliveredData, number, ← seq, length, PacketView.payloadBytes, kept]
    rfl
  · cases encrypted

/-- A received datagram that says `message` comes through the gates and
opens under the keys of the session. -/
structure Arrives (C : CryptoSuite) (s : Session) (message : SentData)
    (filters : Filters) (call : InboundCall) (view : PacketView) : Prop where
  parsed : packetParse call.packet = some view
  encrypted : view.encrypted = true
  channel : view.channelId = message.channel
  seq : view.seq = message.seq
  nonzero : message.seq ≠ 0
  flags : view.flags &&& packetFlagFecParity = 0
  gates : ∀ s',
    resilienceCheck view s call.env.dataBuf call.env.parityBuf = (s', true) →
      PassesGates call.env filters s call.packet view s'
  opens : ∀ s', SameCore s s' →
    ∃ opened, sessionEncCheck C view s' = (s', some opened) ∧
      opened.seq = message.seq ∧ opened.channelId = message.channel ∧
        deliveredData (opened.channelId, opened.buf) = message

theorem Says.arrives
    {C : CryptoSuite} (aead : AeadInverts C) {s : Session}
    (single : s.resilience.multipathEnabled = false)
    (known : s.addrLen ≠ 0) {p : PacketBuf} {message : SentData}
    (spoken : Says C s p message) {filters : Filters} {call : InboundCall}
    (wire : call.packet.wire = p.wire) (addr : call.packet.addr = s.addr)
    (addrLen : call.packet.addrLen = s.addrLen)
    (passes : PassesFilters call.env filters call.packet) :
    ∃ view, Arrives C s message filters call view := by
  obtain ⟨buf, sender, shares, rfl⟩ := spoken.made
  have data := spoken.channel.ne_control
  obtain ⟨view, -, parsed, fields, -⟩ :=
    outboundPacket_opened aead shares data spoken.fits buf message.seq wire
  have encrypted : view.encrypted = true := fields.encrypted
  have first : view = { view with pathIdx := 0 } := by
    rw [← (seq_of_packetParse parsed).2]
  have sameChannel : view.channelId = message.channel := fields.channelId
  have sameSeq : view.seq = message.seq := fields.seq
  obtain ⟨raw, parsed', offensive, anti, static, kernel⟩ := passes
  rw [parsed] at parsed'
  cases parsed'
  have gate : sessionCheck s view = some view := by
    rw [sessionCheck_of_peer shares.receiverLocked single known
      (by rw [sameChannel]; exact data)
      (fields.sessionId.trans shares.sessionId.symm)
      (by rw [(parsedAs_of_packetParse parsed).buf]; exact addr)
      (by rw [(parsedAs_of_packetParse parsed).buf]; exact addrLen), ← first]
  refine
    ⟨view,
      { parsed := parsed
        encrypted := encrypted
        channel := sameChannel
        seq := sameSeq
        nonzero := ?_
        flags := ?_
        gates := fun s' passed =>
          ⟨⟨view, parsed, offensive, anti, static, kernel, gate⟩, passed⟩
        opens := fun s' core => ?_ }⟩
  · obtain ⟨-, -, fits, -⟩ := (staticCheck_iff view).mp static
    rw [← sameSeq]
    exact fits.2.2.2
  · rw [fields.flags]
    exact (by decide : packetFlagEncrypted &&& packetFlagFecParity = 0)
  · obtain ⟨_, opened, parsed', -, checked, plain, -, seq, channel, -⟩ :=
      outboundPacket_opened aead (shares.congr core) data spoken.fits buf
        message.seq wire
    rw [parsed] at parsed'
    cases parsed'
    refine ⟨opened, checked, seq, channel, ?_⟩
    rw [deliveredData_opened parsed encrypted (by rw [checked]), plain,
      channel, seq]

/-- A packet of the peer reaches a session that knows its address. -/
theorem hears_pipelineInboundProcess
    {C : CryptoSuite} (aead : AeadInverts C) {s : Session} (quiet : Quiet s)
    (known : s.addrLen ≠ 0) {p : PacketBuf} {message : SentData}
    (spoken : Says C s p message) {filters : Filters} {call : InboundCall}
    (wire : call.packet.wire = p.wire) (addr : call.packet.addr = s.addr)
    (addrLen : call.packet.addrLen = s.addrLen)
    (passes : PassesFilters call.env filters call.packet)
    (room : ∀ channel, ringFull (call.rxq.ring channel) = false) :
    Hears C s message call.rxq
      (pipelineInboundProcess C call.env filters s call.rxq
        call.packet).2.2 := by
  obtain ⟨view, arrives⟩ :=
    spoken.arrives aead quiet.single known wire addr addrLen passes
  obtain ⟨passed, quiet'⟩ :=
    quiet.resilienceCheck arrives.flags call.env.dataBuf call.env.parityBuf
  have gates :
      PassesGates call.env filters s call.packet view
        (resilienceCheck view s call.env.dataBuf call.env.parityBuf).1 :=
    arrives.gates _ (Prod.ext rfl passed)
  have moved := gates.reassembles
  rw [gates.pipelineInboundProcess C call.rxq]
  generalize
    (resilienceCheck view s call.env.dataBuf call.env.parityBuf).1 = s'
    at quiet' moved
  obtain ⟨opened, checked, seq, channel, content⟩ :=
    arrives.opens s' moved.untouched.toSameCore
  have heard :=
    hears_postCrypto quiet' arrives.nonzero spoken.channel arrives.encrypted
      checked seq channel content room
  have sameLast : s'.lastSeq = s.lastSeq := by
    rw [moved.rest]
  have sameBitmap : s'.recvBitmap = s.recvBitmap := by
    rw [moved.rest]
  exact
    { nonzero := arrives.nonzero
      quiet := heard.quiet
      core := moved.untouched.toSameCore.trans heard.core
      addr := heard.addr.trans (by rw [moved.rest])
      addrLen := heard.addrLen.trans (by rw [moved.rest])
      lastSeq := by rw [heard.lastSeq, sameLast, sameBitmap]
      recvBitmap := by rw [heard.recvBitmap, sameLast, sameBitmap]
      handed := by rw [heard.handed, sameLast, sameBitmap] }

/-! ## Any conversation -/

theorem freshMessages_concat
    (accepted : List UInt32) (messages : List SentData) (last : SentData) :
    freshMessages accepted (messages ++ [last]) =
      freshMessages accepted messages ++
        if replayAccepts
            (((freshMessages accepted messages).map SentData.seq).reverse ++
              accepted) last.seq then
          [last]
        else
          [] := by
  induction messages generalizing accepted with
  | nil =>
      rfl
  | cons message rest inductionHypothesis =>
      rw [List.cons_append, freshMessages, freshMessages]
      split
      · rw [inductionHypothesis]
        simp
      · exact inductionHypothesis accepted

/-- What holds of a side: what it has handed on is fresh, and its window knows
the numbers. -/
structure LinkEnd.Heard (e : LinkEnd) : Prop where
  quiet : Quiet e.sess
  known : e.sess.addrLen ≠ 0
  nonzero : ∀ message ∈ e.reached, message.seq ≠ 0
  handed : e.handed.map deliveredData = freshMessages [] e.reached
  window :
    ReplayKnows ((freshMessages [] e.reached).map SentData.seq).reverse
      e.sess.lastSeq e.sess.recvBitmap

theorem LinkEnd.Heard.arrive
    {C : CryptoSuite} {e : LinkEnd} (inv : e.Heard) {message : SentData}
    {call : InboundCall}
    (hears :
      Hears C e.sess message call.rxq
        (pipelineInboundProcess C call.env e.filters e.sess call.rxq
          call.packet).2.2) : (e.arrive C (some message) call).Heard := by
  have verdict := inv.window.verdict message.seq
  have reached :
      (e.arrive C (some message) call).reached = e.reached ++ [message] :=
    rfl
  have concat := freshMessages_concat [] e.reached message
  rw [List.append_nil, ← reached] at concat
  refine
    { quiet := hears.quiet
      known := by
        rw [LinkEnd.arrive, hears.addrLen]
        exact inv.known
      nonzero := by
        intro other member
        rw [reached] at member
        rcases List.mem_append.mp member with old | new
        · exact inv.nonzero other old
        · cases List.mem_singleton.mp new
          exact hears.nonzero
      handed := ?_
      window := ?_ }
  · rw [concat, ← inv.handed]
    change List.map deliveredData (e.handed ++ _) = _
    rw [List.map_append, hears.handed]
    simp only [verdict, ← inv.handed]
  · rw [concat]
    change ReplayKnows _ (pipelineInboundProcess C call.env e.filters e.sess
      call.rxq call.packet).2.2.sess.lastSeq _
    rw [hears.lastSeq]
    change ReplayKnows _ _ (pipelineInboundProcess C call.env e.filters e.sess
      call.rxq call.packet).2.2.sess.recvBitmap
    rw [hears.recvBitmap]
    cases answer :
        (seqCheckBitmap message.seq e.sess.lastSeq
          e.sess.recvBitmap).1 with
    | true =>
        rw [if_pos (verdict.mp answer), List.map_append, List.reverse_append]
        exact inv.window.accept answer
    | false =>
        have refuses :
            ¬ replayAccepts
              ((freshMessages [] e.reached).map SentData.seq).reverse
              message.seq := fun accepts =>
          Bool.false_ne_true (answer.symm.trans (verdict.mpr accepts))
        have unchanged :=
          (seqCheckBitmap_exact inv.window.rooted message.seq).refused answer
        rw [if_neg refuses, List.append_nil, unchanged]
        exact inv.window

/-- What holds of a link: each side can read the other, and all that was said
can be read. -/
structure LinkInv (C : CryptoSuite) (l : Side → LinkEnd) : Prop where
  heard : ∀ side, (l side).Heard
  shares : ∀ side, SharesKeys (l side.other).sess (l side).sess
  said : ∀ side, ∀ sent ∈ (l side.other).said,
    Says C (l side).sess sent.2 sent.1

section

variable {C : CryptoSuite} {l : Side → LinkEnd}

theorem sess_say
    (e : LinkEnd) (buf : PacketBuf) (channel : UInt8) (payload : Bytes) :
    (e.say C buf channel payload).sess = e.sess := by
  unfold LinkEnd.say
  dsimp only
  split
  · rfl
  · rfl

theorem said_say
    {e : LinkEnd} (locked : e.sess.state = .locked) (buf : PacketBuf)
    {channel : UInt8} {payload : Bytes} (data : DataChannel channel)
    (fits : payload.length + 28 ≤ 1476) :
    (e.say C buf channel payload).said =
      e.said ++
        [(⟨channel, e.seq, payload⟩,
          outboundPacket C buf e.sess e.seq channel payload)] := by
  unfold LinkEnd.say
  rw [pipelineOutboundProcess_eq buf e.seq locked data.ne_control (by omega)]
  rfl

theorem LinkInv.say
    (inv : LinkInv C l) (side : Side) (buf : PacketBuf) {channel : UInt8}
    {payload : Bytes} (data : DataChannel channel)
    (fits : payload.length + 28 ≤ 1476) :
    LinkInv C (linkStep C l (.say side buf channel payload)) := by
  have locked := (inv.shares side).receiverLocked
  have sess (other : Side) :
      (linkStep C l (.say side buf channel payload) other).sess =
        (l other).sess := by
    rcases side.eq_or_other other with rfl | rfl
    · simp [linkStep, sess_say]
    · simp [linkStep]
  have heard :
      (l side).Heard → ((l side).say C buf channel payload).Heard := by
    intro heard
    unfold LinkEnd.say
    dsimp only
    split
    · exact ⟨heard.quiet, heard.known, heard.nonzero, heard.handed,
        heard.window⟩
    · exact ⟨heard.quiet, heard.known, heard.nonzero, heard.handed,
        heard.window⟩
  refine ⟨fun other => ?_, fun other => ?_, fun other sent member => ?_⟩
  · rcases side.eq_or_other other with rfl | rfl
    · simpa [linkStep] using heard (inv.heard other)
    · simpa [linkStep] using inv.heard side.other
  · rw [sess, sess]
    exact inv.shares other
  · rw [sess]
    rcases side.eq_or_other other with rfl | rfl
    · have kept :
          linkStep C l (.say other buf channel payload) other.other =
            l other.other := by
        simp [linkStep]
      rw [kept] at member
      exact inv.said other sent member
    · have extended := said_say (C := C) locked buf data fits
      rw [Side.other_other, linkStep, Function.update_self, extended]
        at member
      rcases List.mem_append.mp member with old | new
      · refine inv.said side.other sent ?_
        rw [Side.other_other]
        exact old
      · cases List.mem_singleton.mp new
        have shares := inv.shares side.other
        rw [Side.other_other] at shares
        exact ⟨data, fits, buf, (l side).sess, shares, rfl⟩

theorem LinkInv.arrive
    (aead : AeadInverts C) (inv : LinkInv C l) (side : Side) {i : Nat}
    {call : InboundCall} (carried : (LinkAct.arrive side i call).Carried l) :
    LinkInv C (linkStep C l (.arrive side i call)) := by
  obtain ⟨⟨sent, found, wire⟩, addr, addrLen, passes, room⟩ := carried
  have spoken : Says C (l side).sess sent.2 sent.1 :=
    inv.said side sent (List.mem_of_getElem? found)
  have hears :=
    hears_pipelineInboundProcess aead (inv.heard side).quiet
      (inv.heard side).known spoken wire addr addrLen passes room
  have stepped :
      linkStep C l (.arrive side i call) =
        Function.update l side
          ((l side).arrive C (some sent.1) call) := by
    rw [linkStep, found]
    rfl
  have core (other : Side) :
      SameCore (l other).sess
        (linkStep C l (.arrive side i call) other).sess := by
    rw [stepped]
    rcases side.eq_or_other other with rfl | rfl
    · rw [Function.update_self]
      exact hears.core
    · rw [Function.update_of_ne side.other_ne]
      exact SameCore.refl _
  refine ⟨fun other => ?_, fun other => ?_, fun other sent' member => ?_⟩
  · rw [stepped]
    rcases side.eq_or_other other with rfl | rfl
    · rw [Function.update_self]
      exact (inv.heard other).arrive hears
    · rw [Function.update_of_ne side.other_ne]
      exact inv.heard side.other
  · exact ((inv.shares other).congr (core other)).congr_sender
      (core other.other)
  · have kept :
        (linkStep C l (.arrive side i call) other.other).said =
          (l other.other).said := by
      rw [stepped]
      rcases side.eq_or_other other.other with same | same
      · rw [same, Function.update_self]
        rfl
      · rw [same, Function.update_of_ne side.other_ne]
    rw [kept] at member
    exact (inv.said other sent' member).congr (core other)

theorem LinkInv.run
    (aead : AeadInverts C) (inv : LinkInv C l) {acts : List LinkAct}
    (carried : CarriedRun C l acts) : LinkInv C (linkRun C l acts) := by
  induction acts generalizing l with
  | nil =>
      exact inv
  | cons act acts inductionHypothesis =>
      obtain ⟨here, later⟩ := carried
      refine inductionHypothesis ?_ later
      cases act with
      | say side buf channel payload =>
          exact inv.say side buf here.1 here.2
      | arrive side i call =>
          exact inv.arrive aead side here

end

/-- What arrives in the order of its numbers is all fresh. -/
theorem freshMessages_increasing
    {accepted : List UInt32} {messages : List SentData}
    (nonzero : ∀ message ∈ messages, message.seq ≠ 0)
    (above : ∀ seq ∈ accepted, ∀ message ∈ messages, seq < message.seq)
    (increasing : messages.Pairwise fun a b => a.seq < b.seq) :
    freshMessages accepted messages = messages := by
  induction messages generalizing accepted with
  | nil =>
      rfl
  | cons message rest inductionHypothesis =>
      obtain ⟨first, rest'⟩ := List.pairwise_cons.mp increasing
      have largest :
          (accepted.map UInt32.toNat).foldr max 0 < message.seq.toNat := by
        have positive : 0 < message.seq.toNat :=
          Nat.pos_of_ne_zero fun zero =>
            nonzero message List.mem_cons_self (UInt32.toNat_inj.mp zero)
        clear inductionHypothesis
        induction accepted with
        | nil =>
            exact positive
        | cons seq accepted inductionHypothesis =>
            rw [List.map_cons, List.foldr_cons, Nat.max_lt]
            exact ⟨UInt32.lt_iff_toNat_lt.mp
                (above seq List.mem_cons_self message List.mem_cons_self),
              inductionHypothesis fun seq member =>
                above seq (List.mem_cons_of_mem _ member)⟩
      have accepts : replayAccepts accepted message.seq :=
        ⟨nonzero message List.mem_cons_self, Or.inr (Or.inl largest)⟩
      rw [freshMessages, if_pos accepts,
        inductionHypothesis
          (fun other member => nonzero other (List.mem_cons_of_mem _ member))
          ?_ rest']
      intro seq member other later
      rcases List.mem_cons.mp member with rfl | old
      · exact first other later
      · exact above seq old other (List.mem_cons_of_mem _ later)

/-! ## After the handshake -/

/-- The two sides of a handshake, the initiator on the left, with the filters
they have by then. -/
def HsWorld.link (w : HsWorld) (filters : Side → Filters) : Side → LinkEnd
  | .left =>
      { sess := w.ini, seq := w.iniSeq, filters := filters .left }
  | .right =>
      { sess := w.resp, seq := w.respSeq, filters := filters .right }

theorem heard_new
    {e : LinkEnd} {addr : Bytes} {addrLen : Nat}
    (fresh : e.sess.receiveSide = freshSide addr addrLen)
    (known : addrLen ≠ 0) (unheard : e.handed = [])
    (unreached : e.reached = []) : e.Heard := by
  have quiet := quiet_of_receiveSide fresh
  injection fresh with _ sameLen lastSeq recvBitmap
  refine ⟨quiet, ?_, ?_, ?_, ?_⟩
  · rw [sameLen]
    exact known
  · simp [unreached]
  · rw [unheard, unreached]
    rfl
  · rw [unreached, lastSeq, recvBitmap]
    exact replayKnows_empty

theorem Agreed.linkInv
    {C : CryptoSuite} {setup : HsSetup} {ds : List Delivery}
    (agreed :
      Agreed ((setup.start C).run C ds).ini ((setup.start C).run C ds).resp)
    (iniKnown : setup.iniSession.addrLen ≠ 0)
    (respKnown : setup.respSession.addrLen ≠ 0)
    (filters : Side → Filters) :
    LinkInv C (((setup.start C).run C ds).link filters) := by
  obtain ⟨ini, resp⟩ := receiveSide_handshake C setup ds
  refine ⟨fun side => ?_, fun side => ?_, fun side sent member => ?_⟩
  · cases side with
    | left => exact heard_new ini iniKnown rfl rfl
    | right => exact heard_new resp respKnown rfl rfl
  · cases side with
    | left =>
        exact ⟨agreed.respLocked, agreed.iniLocked, agreed.sessionId,
          agreed.sessionKey, agreed.channelKeys⟩
    | right =>
        exact ⟨agreed.iniLocked, agreed.respLocked, agreed.sessionId.symm,
          agreed.sessionKey.symm, agreed.channelKeys.symm⟩
  · cases side with
    | left => cases member
    | right => cases member

/-- After the six messages of the handshake, in any conversation over a
network that may lose, repeat and reorder packets, each side hands on exactly
the messages that have reached it and are fresh, in the order of arrival.
When they arrive in the order of their numbers, that is all of them. -/
theorem handshake_then_conversation
    {C : CryptoSuite} (aead : AeadInverts C) (setup : HsSetup)
    (iniKnown : setup.iniSession.addrLen ≠ 0)
    (respKnown : setup.respSession.addrLen ≠ 0)
    (accept kemInit kemResponse identity lock final : HsEnv)
    (pool :
      ∀ env ∈ [accept, kemInit, kemResponse, identity, lock],
        env.buf.isSome = true)
    (publicKey secretKey ciphertext shared : Bytes)
    (exchange :
      KemExchange C kemInit.coins kemResponse.coins publicKey secretKey
        ciphertext shared)
    (filters : Side → Filters) (acts : List LinkAct)
    (carried :
      CarriedRun C
        (((setup.start C).run C
          (relay C .responder (setup.start C)
            [accept, kemInit, kemResponse, identity, lock, final])).link
          filters)
        acts)
    (side : Side) :
    let e :=
      linkRun C
        (((setup.start C).run C
          (relay C .responder (setup.start C)
            [accept, kemInit, kemResponse, identity, lock, final])).link
          filters)
        acts side
    e.handed.map deliveredData = freshMessages [] e.reached ∧
      ((e.reached.Pairwise fun a b => a.seq < b.seq) →
        e.handed.map deliveredData = e.reached) := by
  have taken : ∀ env ∈ [accept, kemInit, kemResponse, identity, lock],
      ∃ buf, env.buf = some buf := by
    intro env member
    exact Option.isSome_iff_exists.mp (pool env member)
  obtain ⟨acceptBuf, acceptPool⟩ := taken accept (by simp)
  obtain ⟨kemInitBuf, kemInitPool⟩ := taken kemInit (by simp)
  obtain ⟨kemResponseBuf, kemResponsePool⟩ := taken kemResponse (by simp)
  obtain ⟨identityBuf, identityPool⟩ := taken identity (by simp)
  obtain ⟨lockBuf, lockPool⟩ := taken lock (by simp)
  obtain ⟨iniEnd, respEnd⟩ := handshake_undisturbed aead setup acceptPool
    kemInitPool kemResponsePool identityPool lockPool exchange final
  have inv :=
    ((iniEnd.agreed C respEnd).linkInv iniKnown respKnown filters).run aead
      carried
  have heard := (inv.heard side).handed
  exact ⟨heard, fun increasing => heard.trans
    (freshMessages_increasing (inv.heard side).nonzero nofun increasing)⟩

/-! ## A first message -/

def sampleLinkSetup : HsSetup :=
  { sampleSetup with
    iniSession := { addr := samplePeer 7000, addrLen := sockaddrIn6Size }
    respSession := { addr := samplePeer 7001, addrLen := sockaddrIn6Size } }

def sampleLink : Side → LinkEnd :=
  ((sampleLinkSetup.start sampleSuite).run sampleSuite
    (relay sampleSuite .responder (sampleLinkSetup.start sampleSuite)
      [sampleEnv, sampleEnv, sampleEnv, sampleEnv, sampleEnv,
        sampleEnv])).link fun _ => {}

theorem sampleLink_ends :
    (sampleLink .left).sess.state = .locked ∧
      (sampleLink .right).sess.addr = samplePeer 7001 ∧
        (sampleLink .right).sess.addrLen = sockaddrIn6Size := by
  decide +kernel

def sampleSaid : PacketBuf :=
  outboundPacket sampleSuite default (sampleLink .left).sess
    (sampleLink .left).seq chChat [104, 105]

/-- The initiator says something and the responder receives it. -/
def sampleTalk : List LinkAct :=
  [.say .left default chChat [104, 105],
    .arrive .right 0
      (sampleCall (sampleSaid.setAddr (samplePeer 7001) sockaddrIn6Size))]

theorem sampleTalk_carried : CarriedRun sampleSuite sampleLink sampleTalk := by
  have data : DataChannel chChat := by
    decide
  have fits : ([104, 105] : Bytes).length + 28 ≤ 1476 := by
    decide
  obtain ⟨locked, addr, addrLen⟩ := sampleLink_ends
  have said :=
    said_say (C := sampleSuite) (e := sampleLink .left) locked default data
      fits
  have found :
      ∃ sent ∈ (linkStep sampleSuite sampleLink
            (.say .left default chChat [104, 105]) .left).said[0]?,
        sampleSaid.wire = sent.2.wire := by
    rw [linkStep, Function.update_self, said]
    exact ⟨_, rfl, rfl⟩
  have kept :
      linkStep sampleSuite sampleLink (.say .left default chChat [104, 105])
          .right = sampleLink .right := by
    rw [linkStep, Function.update_of_ne (by decide)]
  refine ⟨⟨data, fits⟩, ⟨found, ?_, ?_, ?_, fun _ => ?_⟩, trivial⟩
  · rw [kept, addr]
    rfl
  · rw [kept, addrLen]
    rfl
  · decide +kernel
  · have empty (channel : UInt8) : ({} : RxQueues).ring channel = [] := by
      unfold RxQueues.ring
      repeat' split
      all_goals rfl
    change ringFull (({} : RxQueues).ring _) = false
    rw [empty]
    rfl

theorem handshake_then_conversation_sample :
    (linkRun sampleSuite sampleLink sampleTalk .right).handed.map
        deliveredData =
      [{ channel := chChat, seq := 4, plain := [104, 105] }] ∧
    ((linkRun sampleSuite sampleLink sampleTalk .right).handed.map
          deliveredData =
        freshMessages []
          (linkRun sampleSuite sampleLink sampleTalk .right).reached) :=
  ⟨by decide +kernel,
    (handshake_then_conversation aeadInverts_sampleSuite sampleLinkSetup
      (by decide) (by decide) sampleEnv sampleEnv sampleEnv sampleEnv
      sampleEnv sampleEnv (by simp [sampleEnv]) samplePublicKey
      (fitTo kemSkSize [5]) sampleCiphertext sampleShared sampleExchange
      (fun _ => {}) sampleTalk sampleTalk_carried .right).1⟩

end PqComm
