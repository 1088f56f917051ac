import PqComm.Engine.Emission
import PqComm.Pipeline.Delivery

/-!
# The packets of a run

The invariant `Sound` of the engine and the two results that follow from it:
when a packet of a transmit ring is acceptable to its receiver, and when it is
encrypted.
-/

namespace PqComm

open Lib

section

variable (C : CryptoSuite)

/-! ## The builders -/

/-- The channel and the payload sizes of a sender of data. -/
def DataFits (origin : Origin) (channel : UInt8) (body : Bytes) : Prop :=
  match origin with
  | .chat => channel = chChat ∧ 1 ≤ body.length ∧ body.length ≤ 1476
  | .relay => body.length ≤ 1024
  | .audio => channel = chAudio ∧ 1 ≤ body.length ∧ body.length ≤ 512
  | .video => channel = chVideo ∧ 1 ≤ body.length
  | .file => channel = chFile ∧ 1 ≤ body.length ∧ body.length ≤ 1028
  | _ => False

/-- The payload of the parity packet that `body` completes. -/
def parityLength (s : Session) (seq : UInt32) (body : Bytes) : Nat :=
  6 + max (s.resilience.fecOpenGroup seq chChat).fecParityLen body.length

/-- Where a packet of a transmit ring comes from. -/
inductive Built (item : TxItem) : Prop where
  | message
      (origin : item.origin = .handshake ∨ item.origin = .control)
      (channel : item.channel = chControl)
      (made : ControlMessage item.seq item.pkt)
  | data
      (kind : DataFits item.origin item.channel item.body)
      (buf : PacketBuf) (clear : Bool)
      (made :
        SameWire item.pkt
          (sealTx C
            (buildPacket buf clear 0 item.sess.sessionId item.channel
              item.seq item.body) item.sess))
  | parity
      (origin : item.origin = .parity) (channel : item.channel = chChat)
      (buf : PacketBuf) (payload : Bytes)
      (made :
        SameWire item.pkt
          (buildPacket buf true packetFlagFecParity item.sess.sessionId
            chChat item.seq payload))
      (size :
        payload.length = parityLength item.sess item.seq item.body)
  | decoy (origin : item.origin = .decoy)

/-! ## The invariant -/

/-- Every session has an identity key of 32 bytes, and every packet that was
pushed on a transmit ring was built. -/
structure Sound (e : Engine) : Prop where
  sized : ∀ i, Sized (e.pool i)
  built : ∀ item ∈ e.enqueued, Built C item

variable {C} {e : Engine}

theorem Sound.of_same
    {e' : Engine} (sound : Sound C e) (pool : e'.pool = e.pool)
    (enqueued : e'.enqueued = e.enqueued) : Sound C e' := by
  constructor
  · rw [pool]
    exact sound.sized
  · rw [enqueued]
    exact sound.built

theorem Sound.setSession
    (sound : Sound C e) (i : Nat) {s : Session} (sized : Sized s) :
    Sound C (e.setSession i s) := by
  refine ⟨fun j => ?_, sound.built⟩
  by_cases same : j = i
  · subst same
    simpa [Engine.setSession] using sized
  · simpa [Engine.setSession, same] using sound.sized j

theorem Sound.enqueue
    (sound : Sound C e) (path : Nat) (queue : TxQueue) {item : TxItem}
    (built : Built C item) : Sound C (e.enqueue path queue item) := by
  refine ⟨sound.sized, fun other member => ?_⟩
  simp only [Engine.enqueue] at member
  split at member
  · rcases List.mem_append.mp member with old | new
    · exact sound.built other old
    · rw [List.mem_singleton.mp new]
      exact built
  · exact sound.built other member

theorem Sound.commit
    (sound : Sound C e) {origin : Origin}
    (kind : origin = .handshake ∨ origin = .control) (i : Nat) {s : Session}
    (sized : Sized s) (seq : UInt32) {out : Option PacketBuf}
    (speaks : Speaks e.seqCounter out) :
    Sound C (e.commit origin i s seq out) := by
  have next : Sound C { e.setSession i s with seqCounter := seq } :=
    (sound.setSession i sized).of_same rfl rfl
  cases out with
  | none =>
      exact next
  | some p =>
      exact next.enqueue 0 .control
        (Built.message kind rfl (speaks p rfl))

theorem Sound.pushEvent (sound : Sound C e) (event : Event) :
    Sound C (e.pushEvent event) :=
  sound.of_same rfl rfl

theorem Sound.sessionAlloc
    (sound : Sound C e) {addr : Bytes} {i : Nat} {e' : Engine}
    (allocated : e.sessionAlloc addr = some (i, e')) : Sound C e' := by
  unfold Engine.sessionAlloc at allocated
  split at allocated
  · cases allocated
  · cases allocated
    have fresh :
        Sized
          { sessionInit with
            addr := overlay sessionInit.addr addr
            addrLen := sockaddrIn6Size } :=
      length_zeros 32
    exact (sound.setSession e.sessionCount fresh).of_same rfl rfl

theorem sized_setupPaths
    (e : Engine) {s : Session} (peerAddr : Bytes) (port : UInt16)
    (sized : Sized s) : Sized (e.setupPaths s peerAddr port) := by
  unfold Engine.setupPaths
  split
  · exact (untouched_registerPath s 1 _).sized sized
  · exact sized

theorem sized_connRequestBuild
    {s : Session} (sized : Sized s) (buf : Option PacketBuf) (seq : UInt32)
    (username displayName : Bytes) :
    Sized (connRequestBuild s buf seq username displayName).sess := by
  unfold connRequestBuild
  split
  · exact sized
  · cases buf with
    | none =>
        exact sized
    | some buf =>
        exact sized

theorem sized_connRequestReply
    {s : Session} (sized : Sized s) (buf : Option PacketBuf) (seq : UInt32)
    (peerAddr payload : Bytes) :
    Sized (connRequestReply s buf seq peerAddr payload).sess := by
  cases buf with
  | none =>
      exact sized
  | some buf =>
      exact sized

/-! ## Connections -/

theorem Sound.connect
    (sound : Sound C e) (env : ConnectEnv) (port : UInt16) :
    Sound C (transportEngineConnect C env port e).2 := by
  unfold transportEngineConnect
  split
  · exact sound
  · dsimp only
    split
    · exact sound.of_same rfl rfl
    · split
      · exact sound.of_same rfl rfl
      · rename_i i next allocated
        have resolved :
            Sound C
              { e with
                peerAddr := resolvePeer env.address port
                roleInitiator := true } :=
          sound.of_same rfl rfl
        have after := resolved.sessionAlloc allocated
        split
        · exact after.setSession i (sized_reset _)
        · rename_i p sent
          have sized :
              Sized
                (handshakeInitInitiator
                  (next.setupPaths
                    { next.pool i with localPort := next.config.localPort }
                    next.peerAddr port) env.key env.sessionId) :=
            env.key.length_bytes
          have hello := behaves_handshakeBuildHello C env.buf
            next.seqCounter sized
          have ready :
              Sound C
                { next with session := some i, sessionIsLocked := false } :=
            after.of_same rfl rfl
          dsimp only
          refine ready.commit (Or.inl rfl) i ?_ _ ?_
          · exact hello.sized
          intro q pushed
          cases pushed
          obtain ⟨buf, clear, sessionId, payload, same, bounds⟩ :=
            hello.speaks p sent
          exact ⟨buf, clear, sessionId, payload,
            (sameWire_sendTo p _).trans same, bounds⟩

theorem Sound.disconnect (sound : Sound C e) :
    Sound C (transportEngineDisconnect e).2 := by
  unfold transportEngineDisconnect
  split
  · exact sound
  · rename_i i _
    exact (sound.setSession i (sized_reset _)).of_same rfl rfl

theorem Sound.startListener (sound : Sound C e) :
    Sound C (transportEngineStartListener e).2 := by
  unfold transportEngineStartListener
  split
  · exact sound
  · exact sound.of_same rfl rfl

theorem Sound.sendConnectRequest
    (sound : Sound C e) (address : Option Bytes) (port : UInt16)
    (username displayName : Bytes) (buf : Option PacketBuf) :
    Sound C
      (transportEngineSendConnectRequest address port username displayName
        buf e).2 := by
  unfold transportEngineSendConnectRequest
  split
  · exact sound
  · dsimp only
    split
    · exact sound.of_same rfl rfl
    · rename_i i next allocated
      have resolved :
          Sound C
            { e with
              peerAddr := resolvePeer address port
              roleInitiator := true } :=
        sound.of_same rfl rfl
      have after := resolved.sessionAlloc allocated
      have ready :
          Sound C { next with session := some i, sessionIsLocked := false } :=
        after.of_same rfl rfl
      change Sound C (Engine.commit _ _ _ _ _ _)
      refine ready.commit (Or.inr rfl) i ?_ _ ?_
      · refine sized_connRequestBuild ?_ buf _ username displayName
        exact after.sized i
      · exact speaks_connRequestBuild _ buf _ username displayName

theorem Sound.acceptConnection
    (sound : Sound C e) (address : Option Bytes) (port : UInt16)
    (buf : Option PacketBuf) :
    Sound C (transportEngineAcceptConnection address port buf e).2 := by
  unfold transportEngineAcceptConnection
  split
  · exact sound
  · dsimp only
    split
    · exact sound
    · rename_i i next allocated
      have after := sound.sessionAlloc allocated
      have sized :
          Sized
            (next.setupPaths
              { next.pool i with localPort := next.config.localPort }
              (resolvePeer address port) port) :=
        sized_setupPaths next _ port (after.sized i)
      dsimp only
      refine Sound.commit ?_ (Or.inr rfl) i ?_ _ ?_
      · -- The session that is given up is reset first.
        cases next.session with
        | none =>
            exact after.of_same rfl rfl
        | some j =>
            exact (after.setSession j (sized_reset _)).of_same rfl rfl
      · exact sized_connRequestReply sized buf _ _ _
      · exact speaks_connRequestReply _ buf _ _ (by decide) (by decide)

theorem Sound.declineConnection
    (sound : Sound C e) (address : Option Bytes) (port : UInt16)
    (buf : Option PacketBuf) :
    Sound C (transportEngineDeclineConnection address port buf e).2 := by
  unfold transportEngineDeclineConnection
  split
  · exact sound
  · dsimp only
    split
    · exact sound
    · rename_i i next allocated
      have after := sound.sessionAlloc allocated
      refine Sound.setSession ?_ i (sized_reset _)
      refine after.commit (Or.inr rfl) i ?_ _ ?_
      · refine sized_connRequestReply ?_ buf _ _ _
        exact after.sized i
      · exact speaks_connRequestReply _ buf _ _ (by decide) (by decide)

theorem Sound.shutdown (sound : Sound C e) :
    Sound C (transportEngineShutdown e) := by
  unfold transportEngineShutdown
  split
  · exact sound
  · exact sound.of_same rfl rfl

/-! ## Sending -/

theorem encryptTxPacket_snd (p : PacketBuf) (s : Session) :
    (encryptTxPacket C p s).2 = sealTx C p s := by
  unfold encryptTxPacket sealTx
  cases packetParse p with
  | none =>
      rfl
  | some v =>
      dsimp only
      split
      · rename_i control
        simp [sessionEncApply, control]
      · rfl

/-- A chat packet that goes out fits in a buffer before it is sealed. -/
theorem encryptTxPacket_fits
    {buf : PacketBuf} {s : Session} {seq : UInt32} {text : Bytes}
    (sealed :
      (encryptTxPacket C (buildChatPacket s buf seq text) s).1 = true) :
    (text ++ [0]).length ≤ 1476 := by
  by_contra large
  rw [encryptTxPacket, buildChatPacket,
    packetParse_buildPacket_eq_none _ _ _ _ _ _ _ (Nat.not_le.mp large)]
    at sealed
  cases sealed

theorem fecTxAfterEncrypt_cases
    (chat : PacketBuf) (s : Session) (seq : UInt32)
    (buf : Option PacketBuf) (addr : Bytes) :
    let r := fecTxAfterEncrypt chat s chChat seq buf addr
    (∃ resilience, r.1 = { s with resilience := resilience }) ∧
      ∀ p, r.2 = some p →
        ∃ buf payload,
          SameWire p
              (buildPacket buf true packetFlagFecParity s.sessionId chChat
                seq payload) ∧
            payload.length = parityLength s seq chat.body := by
  unfold fecTxAfterEncrypt
  split
  · exact ⟨⟨s.resilience, rfl⟩, fun p pushed => by cases pushed⟩
  · dsimp only
    split
    · rename_i parity room completed
      refine ⟨⟨_, rfl⟩, fun p pushed => ?_⟩
      cases pushed
      exact ⟨room, parity, sameWire_sendTo _ _,
        fecTxAccumulate_parity (Prod.ext rfl completed)⟩
    · exact ⟨⟨_, rfl⟩, fun p pushed => by cases pushed⟩

theorem Sound.pathAddr (sound : Sound C e) (path : Nat) :
    Sound C (e.pathAddr path).1 := by
  unfold Engine.pathAddr
  split
  · exact sound.of_same rfl rfl
  · exact sound

theorem Sound.pushChat
    (sound : Sound C e) (i : Nat) {s : Session} (sized : Sized s)
    (seq : UInt32) (path : Nat) (buf : PacketBuf) {text : Bytes}
    (fits : (text ++ [0]).length ≤ 1476) (parityBuf : Option PacketBuf) :
    Sound C
      (e.pushChat i s seq path (sealTx C (buildChatPacket s buf seq text) s)
        text parityBuf) := by
  obtain ⟨⟨resilience, session⟩, parity⟩ :=
    fecTxAfterEncrypt_cases (sealTx C (buildChatPacket s buf seq text) s) s
      seq parityBuf (e.pathAddr path).2
  have chat :
      Built C
        { pkt :=
            (sealTx C (buildChatPacket s buf seq text) s).sendTo
              (e.pathAddr path).2
          origin := .chat, sess := s, seq := seq
          channel := chChat, body := text ++ [0] } :=
    Built.data ⟨rfl, by simp, fits⟩ buf false (sameWire_sendTo _ _)
  have target :
      Sound C
        ((e.pathAddr path).1.setSession i
          (fecTxAfterEncrypt (sealTx C (buildChatPacket s buf seq text) s) s
            chChat seq parityBuf (e.pathAddr path).2).1) := by
    refine (sound.pathAddr path).setSession i ?_
    rw [session]
    exact sized
  unfold Engine.pushChat
  dsimp only
  refine Sound.enqueue ?_ path .chat chat
  cases completed :
      (fecTxAfterEncrypt (sealTx C (buildChatPacket s buf seq text) s) s
        chChat seq parityBuf (e.pathAddr path).2).2 with
  | none =>
      exact target
  | some p =>
      obtain ⟨room, payload, same, size⟩ := parity p completed
      exact target.enqueue path .control
        (Built.parity rfl rfl room payload same size)

theorem Sound.sendChat
    (sound : Sound C e) (text : Bytes) (buf parityBuf : Option PacketBuf) :
    Sound C (transportEngineSendChat C text buf parityBuf e).2 := by
  unfold transportEngineSendChat
  split
  · rename_i i _ _
    extract_lets path before s recorded
    have sized : Sized s := sound.sized i
    have soundRecorded : Sound C recorded := sound.setSession i sized
    clear_value s recorded
    cases buf with
    | none =>
        exact soundRecorded
    | some buf =>
        have counted :
            Sound C
              { recorded with seqCounter := recorded.seqCounter + 1 } :=
          soundRecorded.of_same rfl rfl
        dsimp only
        split
        · exact counted
        · rename_i passed
          rw [encryptTxPacket_snd]
          exact counted.pushChat i sized recorded.seqCounter path buf
            (encryptTxPacket_fits (by simpa using passed)) parityBuf
  · exact sound

theorem Sound.sendMessage
    (sound : Sound C e) (buf : Option PacketBuf) {payload : Bytes}
    (nonempty : 1 ≤ payload.length) (fits : payload.length ≤ 1400) :
    Sound C (e.sendMessage buf payload) := by
  unfold Engine.sendMessage
  split
  · rename_i i buf _ _
    exact sound.commit (Or.inr rfl) i (sound.sized i) _
      (speaks_setAddr buf true _ _ _ _ nonempty fits)
  · exact sound

theorem length_fileMetaPayload (info : FileMeta) :
    (fileMetaPayload info).length ≤ 77 := by
  have name : (info.filename.take 63).length ≤ 63 :=
    List.length_take_le 63 _
  simp only [fileMetaPayload, List.length_cons, List.length_append,
    length_leBytes]
  omega

theorem Sound.sendFile
    (sound : Sound C e) (file : Option DiskFile) (buf : Option PacketBuf) :
    Sound C (transportEngineSendFile file buf e).2 := by
  unfold transportEngineSendFile
  split
  · rename_i i sends _ _ _
    have started : Sound C { e with sends := sends } :=
      sound.of_same rfl rfl
    dsimp only
    split
    · rename_i send buf _
      have size := length_fileMetaPayload send.details
      have speaks :
          Speaks e.seqCounter
            (some
              ((controlPacket buf false (e.pool i).sessionId e.seqCounter
                (fileMetaPayload send.details)).sendTo e.peerAddr)) :=
        speaks_setAddr buf false _ _ _ _ (by simp [fileMetaPayload])
          (by omega)
      exact
        (started.commit (Or.inr rfl) i (sound.sized i) (e.seqCounter + 1)
          speaks).of_same rfl rfl
    · exact started
  · exact sound

theorem Sound.portHop
    (sound : Sound C e) (newPort : UInt16) (buf : Option PacketBuf) :
    Sound C (transportPortHop newPort buf e).2 := by
  unfold transportPortHop
  split
  · rename_i i _ _
    dsimp only
    refine sound.commit (Or.inr rfl) i ?_ _ ?_
    · cases buf with
      | none =>
          exact sound.sized i
      | some buf =>
          exact sound.sized i
    · exact speaks_portHopSendRequest _ buf _ _ newPort
  · exact sound

theorem Sound.setFecEnabled (sound : Sound C e) (enabled : Bool) :
    Sound C (transportSetFecEnabled enabled e).2 := by
  unfold transportSetFecEnabled
  split
  · rename_i i _ _
    exact sound.setSession i (sound.sized i)
  · exact sound

/-! ## Handlers -/

theorem relayForwardRoute_out
    {v : PacketView} {s : Session} {routes : List RouteEntry}
    {buf : Option PacketBuf} {seq : UInt32} {peerAddr inner : Bytes}
    {p : PacketBuf} {channel : UInt8}
    (forwarded :
      (relayForwardRoute C v s routes buf seq peerAddr).out =
        some (p, channel, inner)) :
    inner.length ≤ 1024 ∧
      ∃ buf,
        SameWire p
          (sealTx C (buildPacket buf true 0 s.sessionId channel seq inner)
            s) := by
  unfold relayForwardRoute at forwarded
  dsimp only at forwarded
  split at forwarded
  · cases forwarded
  · split at forwarded
    · cases forwarded
    · split at forwarded
      · cases forwarded
      · split at forwarded
        · cases forwarded
        · cases forwarded
        · rename_i room _
          split at forwarded
          · cases forwarded
          · rename_i view parsed
            split at forwarded
            · cases forwarded
            · cases forwarded
              refine ⟨by rw [length_memSlice]; exact Nat.min_le_right _ _,
                room, ?_⟩
              simp only [sealTx, parsed]
              exact sameWire_sendTo _ _

theorem Sound.relayRoute
    (sound : Sound C e) (env : HandlerEnv) (v : PacketView) (s : Session) :
    Sound C (e.relayRoute C env v s) := by
  unfold Engine.relayRoute
  dsimp only
  split
  · exact sound.of_same rfl rfl
  · rename_i p channel inner forwarded
    obtain ⟨short, buf, same⟩ := relayForwardRoute_out forwarded
    refine Sound.enqueue ?_ 0 .chat ?_
    · exact sound.of_same rfl rfl
    · exact Built.data short buf true same

theorem Sound.handleData
    (sound : Sound C e) (initiator : Bool) (env : HandlerEnv)
    (v : PacketView) (s : Session) :
    Sound C (e.handleData C initiator env v s) := by
  unfold Engine.handleData
  split
  · exact sound
  · split
    · exact sound.relayRoute env v s
    · split
      · refine Sound.sendMessage ?_ env.ackBuf (by simp) (by simp)
        split
        · exact sound.of_same rfl rfl
        · exact sound.pushEvent _
      · exact sound

theorem Sound.handleHandshake
    (sound : Sound C e) (initiator : Bool) (env : HandlerEnv) (i : Nat)
    (p : PacketBuf) : Sound C (e.handleHandshake C initiator env i p) := by
  have behaves :
      Behaves e.seqCounter
        (if initiator then
          handshakeRunAsInitiator C env.hs (e.pool i) p e.seqCounter
        else
          handshakeRunAsResponder C env.hs (e.pool i) p e.seqCounter) := by
    split
    · exact behaves_handshakeRun C env.hs p e.seqCounter
        (fun opcode => behaves_initiatorReply C env.hs opcode e.seqCounter)
        (sound.sized i)
    · exact behaves_handshakeRun C env.hs p e.seqCounter
        (fun opcode => behaves_responderReply C env.hs opcode e.seqCounter)
        (sound.sized i)
  unfold Engine.handleHandshake
  extract_lets r next
  have speaks : Speaks e.seqCounter (r.out.map (·.sendTo e.peerAddr)) := by
    intro q pushed
    obtain ⟨p, sent, rfl⟩ := Option.map_eq_some_iff.mp pushed
    obtain ⟨buf, clear, sessionId, payload, same, bounds⟩ :=
      behaves.speaks p sent
    exact ⟨buf, clear, sessionId, payload,
      (sameWire_sendTo p _).trans same, bounds⟩
  have committed : Sound C next :=
    sound.commit (Or.inl rfl) i behaves.sized r.seq speaks
  split
  · exact committed.of_same rfl rfl
  · exact committed

theorem Sound.afterLocked
    (sound : Sound C e) (i : Nat) {r : LockedOut}
    (behaves : LockedBehaves e.seqCounter r) :
    Sound C (e.afterLocked i r) := by
  have committed :=
    sound.commit (Or.inr rfl) i behaves.sized r.seq behaves.speaks
  unfold Engine.afterLocked
  dsimp only
  split
  · exact committed
  · exact committed.pushEvent _

theorem Sound.handleControl
    (sound : Sound C e) (initiator : Bool) (env : HandlerEnv) (i : Nat)
    (p : PacketBuf) : Sound C (e.handleControl C initiator env i p) := by
  unfold Engine.handleControl
  split
  · have handled :=
      sound.afterLocked i
        (lockedBehaves_lockedControl C env p e.seqCounter (sound.sized i))
    dsimp only
    split
    · exact handled
    · exact handled.handleHandshake initiator env i p
  · exact sound.handleHandshake initiator env i p

theorem Sound.handle
    (sound : Sound C e) (initiator : Bool) (env : HandlerEnv)
    (p : PacketBuf) : Sound C (e.handle C initiator env p) := by
  unfold Engine.handle
  split
  · rename_i i v _ _
    split
    · exact sound.handleData initiator env v _
    · exact sound.handleControl initiator env i p
  · exact sound

/-! ## Polling -/

theorem sized_reconnectTick
    {s : Session} (sized : Sized s) (buf : Option PacketBuf) (seq : UInt32)
    (now : UInt64) : Sized (reconnectTick s buf seq now).sess := by
  have request (t : Session) (sized : Sized t) :
      Sized (reconnectSendRequest t buf seq).sess := by
    cases buf with
    | none =>
        exact sized
    | some buf =>
        exact sized
  unfold reconnectTick
  split
  · exact sized
  · split
    · exact sized
    · split
      · exact sized
      · split
        · exact request _ sized
        · split
          · exact request s sized
          · exact sized

theorem sized_sessionEncCheck
    (C : CryptoSuite) (v : PacketView) {s : Session} (sized : Sized s) :
    Sized (sessionEncCheck C v s).1 := by
  unfold sessionEncCheck
  split
  · exact sized
  · split
    · exact sized
    · split
      · exact sized
      · exact sized

theorem audioWorkerTick_out
    {w : MediaWorker} {s : Session} {frame : Option AudioFrame}
    {buf : Option PacketBuf} {seq : UInt32} {peerAddr sent : Bytes}
    {p : PacketBuf}
    (captured :
      audioWorkerTick C w s frame buf seq peerAddr = some (p, sent)) :
    ∃ buf, DataFits .audio chAudio sent ∧
      p = mediaPacket C s chAudio buf seq sent peerAddr := by
  unfold audioWorkerTick at captured
  split at captured
  · cases captured
  · split at captured
    · rename_i frame buf
      cases captured
      exact ⟨buf, ⟨rfl, frame.nonempty, frame.fits⟩, rfl⟩
    · cases captured

theorem videoWorkerTick_out
    {w : MediaWorker} {s : Session} {frame : Option Bytes}
    {buf : Option PacketBuf} {seq : UInt32} {peerAddr sent : Bytes}
    {p : PacketBuf}
    (captured :
      videoWorkerTick C w s frame buf seq peerAddr = some (p, sent)) :
    ∃ buf, DataFits .video chVideo sent ∧
      p = mediaPacket C s chVideo buf seq sent peerAddr := by
  unfold videoWorkerTick at captured
  split at captured
  · cases captured
  · split at captured
    · rename_i frame buf
      split at captured
      · rename_i nonempty
        cases captured
        exact ⟨buf, ⟨rfl, nonempty⟩, rfl⟩
      · cases captured
    · cases captured

theorem length_fileSendChunk
    (sends : List FileSend) (idx : Nat) (content : Option Bytes) :
    (fileSendChunk sends idx content).2.1.length ≤ 1024 := by
  unfold fileSendChunk
  split
  · split
    · exact Nat.zero_le _
    · dsimp only
      split
      · exact Nat.zero_le _
      · exact (List.length_take_le _ _).trans (Nat.min_le_right _ _)
  · exact Nat.zero_le _

theorem Sound.hand
    (sound : Sound C e) (env : HandlerEnv) (p : PacketBuf)
    (source : HandSource) : Sound C (e.hand C env p source) := by
  unfold Engine.hand
  extract_lets record next
  have recorded : Sound C next := sound.of_same rfl rfl
  split
  · exact recorded.handle true env p
  · exact recorded.handle false env p

theorem Sound.takeResult (sound : Sound C e) (env : HandlerEnv) :
    Sound C (e.takeResult C env) := by
  unfold Engine.takeResult
  split
  · exact sound
  · refine Sound.hand ?_ env _ _
    exact sound.of_same rfl rfl

theorem Sound.dropControl
    (sound : Sound C e) (now : UInt64) (p : PacketBuf) :
    Sound C (e.dropControl now p) := by
  unfold Engine.dropControl
  split
  · exact sound
  · split
    · dsimp only
      split
      · exact Sound.pushEvent (e := { e with connRequests := _ })
          (sound.of_same rfl rfl) _
      · exact sound.of_same rfl rfl
    · split
      · exact sound.pushEvent _
      · split
        · exact sound.pushEvent _
        · exact sound

theorem Sound.afterGates
    (sound : Sound C e) (env : InboundEnv) (p : PacketBuf) :
    Sound C
      (e.afterGates
        (pipelineInboundPreCrypto env e.filters (e.session.map e.pool)
          p)) := by
  have moved :=
    reassembles_pipelineInboundPreCrypto env e.filters
      (e.session.map e.pool) p
  unfold Engine.afterGates
  split
  · rename_i i s current left
    rw [left, current] at moved
    cases moved with
    | some moved =>
        exact
          (sound.setSession i
            (moved.untouched.sized (sound.sized i))).of_same rfl rfl
  · exact sound.of_same rfl rfl

theorem Sound.inbound
    (sound : Sound C e) (env : PollEnv) (p : PacketBuf) :
    Sound C (e.inbound C env p) := by
  have gated := sound.afterGates env.inbound p
  unfold Engine.inbound
  extract_lets pre next
  replace gated : Sound C next := gated
  split
  · split
    · exact gated.of_same rfl rfl
    · exact gated.hand env.packet p .direct
  · split
    · exact gated.dropControl env.now p
    · exact gated

theorem Sound.tickAbr (sound : Sound C e) (now : UInt64) :
    Sound C (e.tickAbr now) := by
  unfold Engine.tickAbr
  split
  · exact sound
  · rename_i i _
    split
    · refine Sound.of_same (sound.setSession i ?_) rfl rfl
      exact sound.sized i
    · exact sound

theorem Sound.tickSession (sound : Sound C e) (env : PollEnv) :
    Sound C (e.tickSession env) := by
  unfold Engine.tickSession
  split
  · exact sound
  · rename_i i _
    split
    · extract_lets beat first again
      have beaten : Sound C first :=
        sound.commit (Or.inr rfl) i
          ((untouched_heartbeatTick (e.pool i) _ _ _).sized (sound.sized i))
          beat.seq (speaks_heartbeatTick _ _ _ _)
      exact beaten.commit (Or.inr rfl) i
        (sized_reconnectTick (beaten.sized i) _ _ _) again.seq
        (speaks_reconnectTick _ _ _ _)
    · exact sound

theorem Sound.tickDecoy (sound : Sound C e) (env : PollEnv) :
    Sound C (e.tickDecoy env) := by
  unfold Engine.tickDecoy
  split
  · split
    · exact sound.enqueue 0 .control (Built.decoy rfl)
    · exact sound
  · exact sound

theorem Sound.tickAudio (sound : Sound C e) (env : PollEnv) :
    Sound C (e.tickAudio C env) := by
  unfold Engine.tickAudio
  split
  · exact sound
  · split
    · dsimp only
      split
      · exact sound
      · rename_i p frame captured
        refine Sound.enqueue ?_ 0 .audio ?_
        · exact sound.of_same rfl rfl
        · obtain ⟨buf, short, rfl⟩ := audioWorkerTick_out captured
          exact Built.data short buf false (sameWire_sendTo _ _)
    · exact sound

theorem Sound.tickVideo (sound : Sound C e) (env : PollEnv) :
    Sound C (e.tickVideo C env) := by
  unfold Engine.tickVideo
  split
  · exact sound
  · split
    · dsimp only
      split
      · exact sound
      · rename_i p frame captured
        refine Sound.enqueue ?_ 0 .video ?_
        · exact sound.of_same rfl rfl
        · obtain ⟨buf, nonempty, rfl⟩ := videoWorkerTick_out captured
          exact Built.data nonempty buf false (sameWire_sendTo _ _)
    · exact sound

theorem Sound.sendChunk
    (sound : Sound C e) (i : Nat) {chunk : Bytes} (buf : Option PacketBuf)
    (short : chunk.length ≤ 1024) : Sound C (e.sendChunk C i chunk buf) := by
  unfold Engine.sendChunk
  dsimp only
  split
  · exact sound.of_same rfl rfl
  · rename_i buf
    refine Sound.enqueue ?_ 0 .file ?_
    · exact sound.of_same rfl rfl
    · refine Built.data ⟨rfl, ?_, ?_⟩ buf false (sameWire_sendTo _ _)
      · simp only [List.length_append, length_leBytes]
        omega
      · simp only [List.length_append, length_leBytes]
        omega

theorem Sound.tickFile (sound : Sound C e) (env : PollEnv) :
    Sound C (e.tickFile C env) := by
  unfold Engine.tickFile
  split
  · rename_i i idx _ _
    split
    · extract_lets r next sent
      have soundNext : Sound C next := sound.of_same rfl rfl
      have soundSent : Sound C sent := by
        dsimp only [sent]
        split
        · exact soundNext.sendChunk i env.fileBuf
            (length_fileSendChunk e.sends idx env.fileContent)
        · exact soundNext
      clear_value sent
      split
      · exact soundSent.of_same rfl rfl
      · exact soundSent
    · exact sound
  · exact sound

theorem Sound.poll (sound : Sound C e) (env : PollEnv) :
    Sound C (transportEnginePoll C env e).2.2 := by
  unfold transportEnginePoll
  split
  · exact sound.of_same rfl rfl
  · have taken := sound.takeResult env.result
    dsimp only
    split
    · split
      · exact taken
      · refine Sound.inbound ?_ env _
        exact taken.of_same rfl rfl
    · have looped : Sound C (e.takeResult C env.result).tickLoop :=
        taken.of_same rfl rfl
      exact (((((looped.tickAbr env.now).tickSession env).tickDecoy
        env).tickAudio env).tickVideo env).tickFile env

theorem Sound.cryptoWork (sound : Sound C e) :
    Sound C (e.cryptoWork C) := by
  unfold Engine.cryptoWork
  split
  · exact sound
  · rename_i job rest _
    have popped : Sound C { e with cryptoRing := rest } :=
      sound.of_same rfl rfl
    dsimp only
    split
    · exact popped
    · rename_i view _
      split
      · exact popped
      · have checked :=
          popped.setSession job.sess
            (sized_sessionEncCheck C view (sound.sized job.sess))
        split
        · exact checked
        · exact checked.of_same rfl rfl

/-! ## Runs -/

theorem Sound.step (sound : Sound C e) (act : EngineAct) :
    Sound C (e.step C act) := by
  cases act with
  | connect env port => exact sound.connect env port
  | disconnect => exact sound.disconnect
  | startListener => exact sound.startListener
  | sendConnectRequest address port username displayName buf =>
      exact sound.sendConnectRequest address port username displayName buf
  | acceptConnection address port buf =>
      exact sound.acceptConnection address port buf
  | declineConnection address port buf =>
      exact sound.declineConnection address port buf
  | sendChat text buf parityBuf => exact sound.sendChat text buf parityBuf
  | sendFile file buf => exact sound.sendFile file buf
  | sendTyping buf => exact sound.sendMessage buf (by simp) (by simp)
  | sendDeliveryAck msgSeq buf =>
      exact sound.sendMessage buf (by simp) (by simp)
  | audioCallStart =>
      rw [Engine.step, transportEngineAudioCallStart]
      split
      · exact sound
      · exact sound.of_same rfl rfl
  | audioCallEnd => exact sound.of_same rfl rfl
  | videoCallStart =>
      rw [Engine.step, transportEngineVideoCallStart]
      split
      · exact sound
      · exact sound.of_same rfl rfl
  | videoCallEnd => exact sound.of_same rfl rfl
  | portHop newPort buf => exact sound.portHop newPort buf
  | setFecEnabled enabled => exact sound.setFecEnabled enabled
  | poll env => exact sound.poll env
  | shutdown => exact sound.shutdown
  | receive path p => exact sound.of_same rfl rfl
  | transmit path =>
      rw [Engine.step, Engine.transmit]
      split
      · exact sound
      · exact sound.of_same rfl rfl
  | cryptoWork => exact sound.cryptoWork

variable (C)

theorem sound_transportEngineInit
    (config : EngineConfig) (audio video : Bool) :
    Sound C (transportEngineInit config audio video) where
  sized := fun _ => length_zeros 32
  built := by
    intro item member
    cases member

/-- Every packet that any run of the engine enqueues was built. -/
theorem Sound.run (sound : Sound C e) (acts : List EngineAct) :
    Sound C (e.run C acts) := by
  induction acts generalizing e with
  | nil =>
      exact sound
  | cons act rest inductionHypothesis =>
      exact inductionHypothesis (sound.step act)

end

end PqComm
