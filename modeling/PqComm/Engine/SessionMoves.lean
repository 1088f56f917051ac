import Mathlib.Logic.Relation
import PqComm.Engine.Outgoing

/-!
# What the engine does to a session

`SessionMove` lists the functions of the source that the engine calls on a
session of its pool.  Whatever is called and whichever thread runs, a slot of
the pool changes by a sequence of them (`Advances.step`), so an invariant of
sessions is proved by one case for each move (`Engine.run_invariant`).

The engine also keeps its file transfers as `file_send_start` leaves them:
not active.  The periodic work therefore never sends a chunk.
-/

namespace PqComm

open Lib

/-- The session that `session_alloc_for_peer` leaves in a slot. -/
def freshSession (addr : Bytes) : Session :=
  { sessionInit with
    addr := overlay sessionInit.addr addr
    addrLen := sockaddrIn6Size }

section

variable (C : CryptoSuite)

/-- One function of the source on a session. -/
inductive SessionMove : Session → Session → Prop where
  | allocated (s : Session) (addr : Bytes) : SessionMove s (freshSession addr)
  | ported (s : Session) (localPort : UInt16) :
      SessionMove s { s with localPort := localPort }
  | opened (e : Engine) (s : Session) (peerAddr : Bytes) (port : UInt16)
      (role : s.role = .unassigned) (state : s.state = .idle) :
      SessionMove s (e.setupPaths s peerAddr port)
  | dialled (s : Session) (key : IdentityKey) (sessionId : UInt64) :
      SessionMove s (handshakeInitInitiator s key sessionId)
  | greeted (s : Session) (buf : Option PacketBuf) (seq : UInt32) :
      SessionMove s (handshakeBuildHello C s buf seq).sess
  | reset (s : Session) : SessionMove s (sessionReset s)
  | handshake (initiator : Bool) (env : HsEnv) (s : Session) (p : PacketBuf)
      (seq : UInt32) :
      SessionMove s
        (if initiator then handshakeRunAsInitiator C env s p seq
        else handshakeRunAsResponder C env s p seq).sess
  | control (env : HandlerEnv) (p : PacketBuf) (s : Session) (seq : UInt32)
      (locked : s.state = .locked) :
      SessionMove s (lockedControl C env p s seq).sess
  | gated {s s' : Session} (moved : Reassembles s s') : SessionMove s s'
  | checked (v : PacketView) (s : Session) :
      SessionMove s (sessionEncCheck C v s).1
  | beaten (s : Session) (buf : Option PacketBuf) (seq : UInt32)
      (now : UInt64) : SessionMove s (heartbeatTick s buf seq now).sess
  | retried (s : Session) (buf : Option PacketBuf) (seq : UInt32)
      (now : UInt64) : SessionMove s (reconnectTick s buf seq now).sess
  | hopped (s : Session) (buf : Option PacketBuf) (seq : UInt32)
      (peerAddr : Bytes) (newPort : UInt16) :
      SessionMove s (portHopSendRequest s buf seq peerAddr newPort).sess
  | measured (s : Session) (r : Resilience)
      (multipath : r.multipathEnabled = s.resilience.multipathEnabled) :
      SessionMove s { s with resilience := r }

/-- A sequence of moves. -/
def SessionMoves : Session → Session → Prop :=
  Relation.ReflTransGen (SessionMove C)

end

/-- No file transfer is active. -/
def Engine.FilesIdle (e : Engine) : Prop :=
  ∀ send ∈ e.sends, send.active = false

/-- The chunks of files that were pushed on a ring. -/
def Engine.chunks (e : Engine) : List TxItem :=
  e.enqueued.filter fun item => item.origin == .file

/-- From `e` to `e'` the sessions have moved, the file transfers stay idle and
no chunk was sent. -/
structure Advances (C : CryptoSuite) (e e' : Engine) : Prop where
  pool : ∀ i, SessionMoves C (e.pool i) (e'.pool i)
  idle : e.FilesIdle → e'.FilesIdle
  chunks : e'.chunks = e.chunks

/-- No slot of the pool was taken either. -/
structure Serves (C : CryptoSuite) (e e' : Engine) : Prop
    extends Advances C e e' where
  count : e'.sessionCount = e.sessionCount

section

variable {C : CryptoSuite} {e f g : Engine}

theorem Advances.of_same
    (pool : f.pool = e.pool) (sends : f.sends = e.sends)
    (enqueued : f.enqueued = e.enqueued) : Advances C e f where
  pool i := by
    rw [pool]
    exact Relation.ReflTransGen.refl
  idle idle := by
    rw [Engine.FilesIdle, sends]
    exact idle
  chunks := by
    rw [Engine.chunks, enqueued]
    rfl

theorem Serves.of_same
    (pool : f.pool = e.pool) (sends : f.sends = e.sends)
    (enqueued : f.enqueued = e.enqueued)
    (count : f.sessionCount = e.sessionCount) : Serves C e f :=
  { Advances.of_same pool sends enqueued with count := count }

theorem Serves.refl (e : Engine) : Serves C e e :=
  Serves.of_same rfl rfl rfl rfl

theorem Advances.trans
    (first : Advances C e f) (second : Advances C f g) : Advances C e g where
  pool i := (first.pool i).trans (second.pool i)
  idle idle := second.idle (first.idle idle)
  chunks := second.chunks.trans first.chunks

theorem Serves.trans
    (first : Serves C e f) (second : Serves C f g) : Serves C e g :=
  { first.toAdvances.trans second.toAdvances with
    count := second.count.trans first.count }

/-- Functions on the session of one slot. -/
theorem Serves.setSession
    {i : Nat} {s : Session} (moves : SessionMoves C (e.pool i) s) :
    Serves C e (e.setSession i s) where
  pool j := by
    change SessionMoves C (e.pool j) (Function.update e.pool i s j)
    by_cases same : j = i
    · subst same
      rw [Function.update_self]
      exact moves
    · rw [Function.update_of_ne same]
      exact Relation.ReflTransGen.refl
  idle := id
  chunks := rfl
  count := rfl

theorem Serves.enqueue
    (path : Nat) (queue : TxQueue) {item : TxItem}
    (other : item.origin ≠ .file) : Serves C e (e.enqueue path queue item) where
  pool _ := Relation.ReflTransGen.refl
  idle := id
  chunks := by
    rw [Engine.chunks, Engine.chunks, Engine.enqueue]
    dsimp only
    split
    · rw [List.filter_append]
      simp [other]
    · rfl
  count := rfl

/-- A packet with the next number. -/
theorem Serves.enqueueNext
    (path : Nat) (queue : TxQueue) {item : TxItem}
    (other : item.origin ≠ .file) :
    Serves C e
      ({ e with seqCounter := e.seqCounter + 1 }.enqueue path queue item) := by
  have counted : Serves C e { e with seqCounter := e.seqCounter + 1 } :=
    Serves.of_same rfl rfl rfl rfl
  exact counted.trans (Serves.enqueue path queue other)

theorem Serves.commit
    {origin : Origin} (other : origin ≠ .file) {i : Nat} {s : Session}
    (moves : SessionMoves C (e.pool i) s) (seq : UInt32)
    (out : Option PacketBuf) : Serves C e (e.commit origin i s seq out) := by
  have set : Serves C e { e.setSession i s with seqCounter := seq } :=
    (Serves.setSession moves).trans (Serves.of_same rfl rfl rfl rfl)
  cases out with
  | none =>
      exact set
  | some p =>
      exact set.trans (Serves.enqueue 0 .control other)

theorem SessionMove.single
    {s s' : Session} (move : SessionMove C s s') : SessionMoves C s s' :=
  Relation.ReflTransGen.single move

theorem SessionMoves.refl (s : Session) : SessionMoves C s s :=
  Relation.ReflTransGen.refl

/-! ## The handlers -/

theorem Serves.sendMessage (buf : Option PacketBuf) (payload : Bytes) :
    Serves C e (e.sendMessage buf payload) := by
  unfold Engine.sendMessage
  split
  · exact Serves.commit (by decide) (SessionMoves.refl _) _ _
  · exact Serves.refl e

theorem Serves.relayRoute (env : HandlerEnv) (v : PacketView) (s : Session) :
    Serves C e (e.relayRoute C env v s) := by
  unfold Engine.relayRoute
  extract_lets r next
  have counted : Serves C e next := Serves.of_same rfl rfl rfl rfl
  clear_value next
  split
  · exact counted
  · exact counted.trans (Serves.enqueue 0 .chat nofun)

theorem Serves.handleData
    (initiator : Bool) (env : HandlerEnv) (v : PacketView) (s : Session) :
    Serves C e (e.handleData C initiator env v s) := by
  unfold Engine.handleData
  split
  · exact Serves.refl e
  · split
    · exact Serves.relayRoute env v s
    · split
      · refine Serves.trans ?_ (Serves.sendMessage env.ackBuf _)
        split
        · exact Serves.of_same rfl rfl rfl rfl
        · exact Serves.of_same rfl rfl rfl rfl
      · exact Serves.refl e

theorem Serves.handleHandshake
    (initiator : Bool) (env : HandlerEnv) (i : Nat) (p : PacketBuf) :
    Serves C e (e.handleHandshake C initiator env i p) := by
  unfold Engine.handleHandshake
  extract_lets r next
  have committed : Serves C e next :=
    Serves.commit (by decide)
      (SessionMove.handshake initiator env.hs (e.pool i) p
        e.seqCounter).single _ _
  clear_value next
  split
  · exact committed.trans (Serves.of_same rfl rfl rfl rfl)
  · exact committed

theorem Serves.afterLocked
    {i : Nat} {r : LockedOut} (moves : SessionMoves C (e.pool i) r.sess) :
    Serves C e (e.afterLocked i r) := by
  have committed : Serves C e (e.commit .control i r.sess r.seq r.out) :=
    Serves.commit (by decide) moves _ _
  unfold Engine.afterLocked
  dsimp only
  split
  · exact committed
  · exact committed.trans (Serves.of_same rfl rfl rfl rfl)

theorem Serves.handle
    (initiator : Bool) (env : HandlerEnv) (p : PacketBuf) :
    Serves C e (e.handle C initiator env p) := by
  unfold Engine.handle
  split
  · rename_i i v _ _
    split
    · exact Serves.handleData initiator env v _
    · unfold Engine.handleControl
      split
      · rename_i locked
        have handled :=
          Serves.afterLocked
            (SessionMove.control (C := C) env p (e.pool i) e.seqCounter
              locked).single
        dsimp only
        split
        · exact handled
        · exact handled.trans (Serves.handleHandshake initiator env i p)
      · exact Serves.handleHandshake initiator env i p
  · exact Serves.refl e

theorem Serves.hand
    (env : HandlerEnv) (p : PacketBuf) (source : HandSource) :
    Serves C e (e.hand C env p source) := by
  unfold Engine.hand
  extract_lets record next
  have recorded : Serves C e next := Serves.of_same rfl rfl rfl rfl
  split
  · exact recorded.trans (Serves.handle true env p)
  · exact recorded.trans (Serves.handle false env p)

/-! ## Polling -/

theorem Serves.takeResult (env : HandlerEnv) :
    Serves C e (e.takeResult C env) := by
  unfold Engine.takeResult
  split
  · exact Serves.refl e
  · rename_i p source rest _
    have popped : Serves C e { e with resultRing := rest } :=
      Serves.of_same rfl rfl rfl rfl
    exact popped.trans (Serves.hand env p source)

theorem Serves.dropControl (now : UInt64) (p : PacketBuf) :
    Serves C e (e.dropControl now p) := by
  unfold Engine.dropControl
  split
  · exact Serves.refl e
  · split
    · dsimp only
      split
      · exact Serves.of_same rfl rfl rfl rfl
      · exact Serves.of_same rfl rfl rfl rfl
    · split
      · exact Serves.of_same rfl rfl rfl rfl
      · split
        · exact Serves.of_same rfl rfl rfl rfl
        · exact Serves.refl e

theorem Serves.afterGates (env : InboundEnv) (p : PacketBuf) :
    Serves C e
      (e.afterGates
        (pipelineInboundPreCrypto env e.filters (e.session.map e.pool)
          p)) := by
  have moved :=
    reassembles_pipelineInboundPreCrypto env e.filters
      (e.session.map e.pool) p
  unfold Engine.afterGates
  split
  · rename_i i s current left
    rw [left, current] at moved
    cases moved with
    | some moved =>
        exact (Serves.setSession (SessionMove.gated moved).single).trans
          (Serves.of_same rfl rfl rfl rfl)
  · exact Serves.of_same rfl rfl rfl rfl

theorem Serves.inbound (env : PollEnv) (p : PacketBuf) :
    Serves C e (e.inbound C env p) := by
  have gated := Serves.afterGates (C := C) (e := e) env.inbound p
  unfold Engine.inbound
  extract_lets pre next
  replace gated : Serves C e next := gated
  clear_value next
  split
  · split
    · exact gated.trans (Serves.of_same rfl rfl rfl rfl)
    · exact gated.trans (Serves.hand env.packet p .direct)
  · split
    · exact gated.trans (Serves.dropControl env.now p)
    · exact gated

theorem abrUpdate_multipath (abr : AbrCtx) (r : Resilience) (now : UInt64) :
    (abrUpdate abr r now).2.multipathEnabled = r.multipathEnabled := by
  unfold abrUpdate
  split
  · rfl
  · split
    · rfl
    · dsimp only
      split
      · rfl
      · rfl

theorem Serves.tickAbr (now : UInt64) : Serves C e (e.tickAbr now) := by
  unfold Engine.tickAbr
  split
  · exact Serves.refl e
  · rename_i i _
    split
    · exact
        (Serves.setSession
          (SessionMove.measured _ _
            (abrUpdate_multipath e.abr _ now)).single).trans
          (Serves.of_same rfl rfl rfl rfl)
    · exact Serves.refl e

theorem Serves.tickSession (env : PollEnv) :
    Serves C e (e.tickSession env) := by
  unfold Engine.tickSession
  split
  · exact Serves.refl e
  · split
    · extract_lets beat first again
      have beaten : Serves C e first :=
        Serves.commit (by decide) (SessionMove.beaten _ _ _ _).single _ _
      exact beaten.trans
        (Serves.commit (by decide) (SessionMove.retried _ _ _ _).single _ _)
    · exact Serves.refl e

theorem Serves.tickDecoy (env : PollEnv) :
    Serves C e (e.tickDecoy env) := by
  unfold Engine.tickDecoy
  split
  · split
    · exact Serves.enqueue 0 .control nofun
    · exact Serves.refl e
  · exact Serves.refl e

theorem Serves.tickAudio (env : PollEnv) :
    Serves C e (e.tickAudio C env) := by
  unfold Engine.tickAudio
  split
  · exact Serves.refl e
  · split
    · dsimp only
      split
      · exact Serves.refl e
      · exact Serves.enqueueNext 0 .audio nofun
    · exact Serves.refl e

theorem Serves.tickVideo (env : PollEnv) :
    Serves C e (e.tickVideo C env) := by
  unfold Engine.tickVideo
  split
  · exact Serves.refl e
  · split
    · dsimp only
      split
      · exact Serves.refl e
      · exact Serves.enqueueNext 0 .video nofun
    · exact Serves.refl e

/-- `file_send_chunk` refuses a transfer that is not active. -/
theorem fileSendChunk_idle
    {sends : List FileSend} (idle : ∀ send ∈ sends, send.active = false)
    (idx : Nat) (content : Option Bytes) :
    fileSendChunk sends idx content = (-1, [], sends) := by
  unfold fileSendChunk
  split
  · rename_i send _ found
    have inactive := idle send (List.mem_of_getElem? found)
    simp [inactive]
  · rfl

theorem Engine.tickFile_idle (idle : e.FilesIdle) (env : PollEnv) :
    e.tickFile C env = e := by
  unfold Engine.tickFile
  split
  · simp [fileSendChunk_idle idle]
  · rfl

theorem Serves.poll (idle : e.FilesIdle) (env : PollEnv) :
    Serves C e (transportEnginePoll C env e).2.2 := by
  unfold transportEnginePoll
  split
  · exact Serves.of_same rfl rfl rfl rfl
  · have taken := Serves.takeResult (C := C) (e := e) env.result
    dsimp only
    generalize e.takeResult C env.result = f at taken
    split
    · split
      · exact taken
      · rename_i i _ _ p rest _
        have popped :
            Serves C f
              { f with rxRings := Function.update f.rxRings i rest } :=
          Serves.of_same rfl rfl rfl rfl
        exact (taken.trans popped).trans (Serves.inbound env p)
    · have looped : Serves C f f.tickLoop := Serves.of_same rfl rfl rfl rfl
      have media :=
        ((((taken.trans looped).trans (Serves.tickAbr env.now)).trans
          (Serves.tickSession env)).trans (Serves.tickDecoy env)).trans
          ((Serves.tickAudio env).trans (Serves.tickVideo env))
      unfold Engine.ticks
      rw [Engine.tickFile_idle (media.idle idle)]
      exact media

theorem Serves.cryptoWork : Serves C e (e.cryptoWork C) := by
  unfold Engine.cryptoWork
  split
  · exact Serves.refl e
  · rename_i job rest _
    have popped : Serves C e { e with cryptoRing := rest } :=
      Serves.of_same rfl rfl rfl rfl
    dsimp only
    split
    · exact popped
    · rename_i view _
      split
      · exact popped
      · have checked :=
          popped.trans
            (Serves.setSession
              (SessionMove.checked (C := C) view (e.pool job.sess)).single)
        split
        · exact checked
        · exact checked.trans (Serves.of_same rfl rfl rfl rfl)

/-! ## The interface -/

/-- `session_alloc_for_peer` takes the next slot. -/
theorem Engine.sessionAlloc_eq
    {addr : Bytes} {i : Nat}
    (allocated : e.sessionAlloc addr = some (i, f)) :
    e.sessionCount < maxSessionEntries ∧ i = e.sessionCount ∧
      f =
        { e.setSession e.sessionCount (freshSession addr) with
          sessionCount := e.sessionCount + 1 } := by
  unfold Engine.sessionAlloc at allocated
  split at allocated
  · cases allocated
  · rename_i room
    cases allocated
    exact ⟨by omega, rfl, rfl⟩

theorem Advances.sessionAlloc
    {addr : Bytes} {i : Nat}
    (allocated : e.sessionAlloc addr = some (i, f)) : Advances C e f := by
  obtain ⟨-, -, rfl⟩ := Engine.sessionAlloc_eq allocated
  exact Advances.trans
    (Serves.setSession (SessionMove.allocated _ addr).single).toAdvances
    (Advances.of_same rfl rfl rfl)

theorem Engine.sessionAlloc_slot
    {addr : Bytes} {i : Nat}
    (allocated : e.sessionAlloc addr = some (i, f)) :
    f.pool i = freshSession addr := by
  obtain ⟨-, rfl, rfl⟩ := Engine.sessionAlloc_eq allocated
  exact Function.update_self ..

/-- A slot that is taken gets its local port first, whatever it held. -/
theorem SessionMoves.slot (s : Session) (addr : Bytes) (localPort : UInt16) :
    SessionMoves C s { freshSession addr with localPort := localPort } :=
  (SessionMove.allocated s addr).single.tail (.ported _ localPort)

theorem SessionMoves.openSlot
    (s : Session) (addr : Bytes) (localPort port : UInt16) (e : Engine) :
    SessionMoves C s
      (e.setupPaths { freshSession addr with localPort := localPort } addr
        port) :=
  (SessionMoves.slot s addr localPort).tail (.opened e _ addr port rfl rfl)

theorem Advances.connect (env : ConnectEnv) (port : UInt16) :
    Advances C e (transportEngineConnect C env port e).2 := by
  unfold transportEngineConnect
  split
  · exact (Serves.refl e).toAdvances
  · dsimp only
    split
    · exact Advances.of_same rfl rfl rfl
    · split
      · exact Advances.of_same rfl rfl rfl
      · rename_i i next allocated
        have resolved :
            Advances C e
              { e with
                peerAddr := resolvePeer env.address port
                roleInitiator := true } :=
          Advances.of_same rfl rfl rfl
        have after := resolved.trans (Advances.sessionAlloc allocated)
        have target : next.peerAddr = resolvePeer env.address port := by
          obtain ⟨-, -, same⟩ := Engine.sessionAlloc_eq allocated
          rw [same]
          rfl
        have fresh := Engine.sessionAlloc_slot allocated
        rw [← target] at fresh
        rw [fresh]
        have dialled (s : Session) :=
          (SessionMoves.openSlot (C := C) s next.peerAddr
            next.config.localPort port next).tail
            (.dialled _ env.key env.sessionId)
        split
        · exact after.trans
            (Serves.setSession ((dialled _).tail (.reset _))).toAdvances
        · have ready :
              Advances C next
                { next with session := some i, sessionIsLocked := false } :=
            Advances.of_same rfl rfl rfl
          have other : Origin.handshake ≠ .file := by
            decide
          dsimp only
          refine (after.trans ready).trans
            (Serves.commit other ?_ _ _).toAdvances
          exact (dialled _).tail (.greeted _ env.buf next.seqCounter)

theorem connRequestBuild_sess
    (s : Session) (buf : Option PacketBuf) (seq : UInt32)
    (username displayName : Bytes) :
    (connRequestBuild s buf seq username displayName).sess = s := by
  unfold connRequestBuild
  split
  · rfl
  · cases buf with
    | none => rfl
    | some buf => rfl

theorem connRequestReply_sess
    (s : Session) (buf : Option PacketBuf) (seq : UInt32)
    (peerAddr payload : Bytes) :
    (connRequestReply s buf seq peerAddr payload).sess = s := by
  cases buf with
  | none => rfl
  | some buf => rfl

theorem Advances.sendConnectRequest
    (address : Option Bytes) (port : UInt16) (username displayName : Bytes)
    (buf : Option PacketBuf) :
    Advances C e
      (transportEngineSendConnectRequest address port username displayName
        buf e).2 := by
  unfold transportEngineSendConnectRequest
  split
  · exact (Serves.refl e).toAdvances
  · dsimp only
    split
    · exact Advances.of_same rfl rfl rfl
    · rename_i i next allocated
      have resolved :
          Advances C e
            { e with
              peerAddr := resolvePeer address port
              roleInitiator := true } :=
        Advances.of_same rfl rfl rfl
      have after := resolved.trans (Advances.sessionAlloc allocated)
      have ready :
          Advances C next
            { next with session := some i, sessionIsLocked := false } :=
        Advances.of_same rfl rfl rfl
      refine (after.trans ready).trans
        (Serves.commit (by decide) ?_ _ _).toAdvances
      rw [connRequestBuild_sess, Engine.sessionAlloc_slot allocated]
      exact SessionMoves.slot _ _ _

theorem Advances.acceptConnection
    (address : Option Bytes) (port : UInt16) (buf : Option PacketBuf) :
    Advances C e (transportEngineAcceptConnection address port buf e).2 := by
  unfold transportEngineAcceptConnection
  split
  · exact (Serves.refl e).toAdvances
  · dsimp only
    split
    · exact (Serves.refl e).toAdvances
    · rename_i i next allocated
      have after := Advances.sessionAlloc (C := C) allocated
      dsimp only
      refine after.trans (Advances.trans ?_
        (Serves.commit (by decide) ?_ _ _).toAdvances)
      · -- The session that is given up is reset first.
        cases next.session with
        | none =>
            exact Advances.of_same rfl rfl rfl
        | some j =>
            exact (Serves.setSession
              (SessionMove.reset (next.pool j)).single).toAdvances.trans
                (Advances.of_same rfl rfl rfl)
      · rw [connRequestSendAccept, connRequestReply_sess,
          Engine.sessionAlloc_slot allocated]
        exact SessionMoves.openSlot _ _ _ port next

theorem Advances.declineConnection
    (address : Option Bytes) (port : UInt16) (buf : Option PacketBuf) :
    Advances C e
      (transportEngineDeclineConnection address port buf e).2 := by
  unfold transportEngineDeclineConnection
  split
  · exact (Serves.refl e).toAdvances
  · dsimp only
    split
    · exact (Serves.refl e).toAdvances
    · rename_i i next allocated
      have after := Advances.sessionAlloc (C := C) allocated
      rw [connRequestSendDecline, connRequestReply_sess,
        Engine.sessionAlloc_slot allocated]
      refine after.trans (Advances.trans
        (Serves.commit (by decide) ?_ _ _).toAdvances
        (Serves.setSession ?_).toAdvances)
      · exact SessionMoves.slot _ _ _
      · exact (SessionMoves.slot _ _ _).tail (.reset _)

theorem fecTxAccumulate_multipath
    (r : Resilience) (payload : Bytes) (seq : UInt32) (channel : UInt8) :
    (fecTxAccumulate r payload seq channel).1.multipathEnabled =
      r.multipathEnabled := by
  have absorbed :
      ((r.fecOpenGroup seq channel).fecAbsorb payload).multipathEnabled =
        r.multipathEnabled := by
    unfold Resilience.fecAbsorb Resilience.fecOpenGroup
    dsimp only
    split <;> rfl
  unfold fecTxAccumulate
  split
  · rfl
  · dsimp only
    split
    · exact absorbed
    · exact absorbed

theorem SessionMoves.fecTxAfterEncrypt
    (p : PacketBuf) (s : Session) (channel : UInt8) (seq : UInt32)
    (buf : Option PacketBuf) (peerAddr : Bytes) :
    SessionMoves C s (fecTxAfterEncrypt p s channel seq buf peerAddr).1 := by
  have measured :=
    (SessionMove.measured (C := C) s _
      (fecTxAccumulate_multipath s.resilience p.body seq channel)).single
  unfold PqComm.fecTxAfterEncrypt
  split
  · exact SessionMoves.refl s
  · dsimp only
    split
    · exact measured
    · exact measured

theorem Serves.pushChat
    {i : Nat} {s : Session} (moves : SessionMoves C (e.pool i) s)
    (seq : UInt32) (path : Nat) (chat : PacketBuf) (text : Bytes)
    (parityBuf : Option PacketBuf) :
    Serves C e (e.pushChat i s seq path chat text parityBuf) := by
  have target : Serves C e (e.pathAddr path).1 ∧
      (e.pathAddr path).1.pool = e.pool := by
    unfold Engine.pathAddr
    split
    · exact ⟨Serves.of_same rfl rfl rfl rfl, rfl⟩
    · exact ⟨Serves.refl e, rfl⟩
  unfold Engine.pushChat
  dsimp only
  generalize e.pathAddr path = route at target
  have set :
      Serves C e
        (route.1.setSession i
          (fecTxAfterEncrypt chat s chChat seq parityBuf route.2).1) := by
    refine target.1.trans (Serves.setSession ?_)
    rw [target.2]
    exact moves.trans (SessionMoves.fecTxAfterEncrypt _ _ _ _ _ _)
  split
  · refine set.trans (Serves.enqueue path .chat ?_)
    exact nofun
  · refine (set.trans (Serves.enqueue path .control ?_)).trans
      (Serves.enqueue path .chat ?_)
    · exact nofun
    · exact nofun

theorem resilienceRecordTx_multipath (r : Resilience) (path : Nat) :
    (resilienceRecordTx r path).multipathEnabled = r.multipathEnabled := by
  unfold resilienceRecordTx
  split
  · rfl
  · rfl

theorem Serves.sendChat (text : Bytes) (buf parityBuf : Option PacketBuf) :
    Serves C e (transportEngineSendChat C text buf parityBuf e).2 := by
  unfold transportEngineSendChat
  split
  · rename_i i _ _
    extract_lets path before s recorded
    have moves : SessionMoves C (e.pool i) s :=
      (SessionMove.measured _ _ (resilienceRecordTx_multipath _ path)).single
    have served : Serves C e recorded := Serves.setSession moves
    have slot : recorded.pool i = s := Function.update_self ..
    clear_value s recorded
    cases buf with
    | none =>
        exact served
    | some buf =>
        have counted :
            Serves C recorded
              { recorded with seqCounter := recorded.seqCounter + 1 } :=
          Serves.of_same rfl rfl rfl rfl
        dsimp only
        split
        · exact served.trans counted
        · refine (served.trans counted).trans (Serves.pushChat ?_ _ _ _ _ _)
          rw [← slot]
          exact SessionMoves.refl _
  · exact Serves.refl e

/-- `file_send_start` adds a transfer that is not active. -/
theorem fileSendStart_idle
    {sends after : List FileSend} {file : Option DiskFile}
    (idle : ∀ send ∈ sends, send.active = false)
    (started : fileSendStart sends file = some after) :
    ∀ send ∈ after, send.active = false := by
  unfold fileSendStart at started
  split at started
  · cases started
  · split at started
    · cases started
    · split at started
      · cases started
      · cases started
        intro send member
        rcases List.mem_append.mp member with old | new
        · exact idle send old
        · rw [List.mem_singleton.mp new]

theorem Advances.sendFile (file : Option DiskFile) (buf : Option PacketBuf) :
    Advances C e (transportEngineSendFile file buf e).2 := by
  unfold transportEngineSendFile
  split
  · rename_i i sends _ _ started
    have listed : Advances C e { e with sends := sends } :=
      ⟨fun _ => SessionMoves.refl _,
        fun idle => fileSendStart_idle idle started, rfl⟩
    have other : Origin.control ≠ .file := by
      decide
    have sent (p : PacketBuf) :
        Advances C { e with sends := sends }
          (Engine.commit { e with sends := sends } .control i (e.pool i)
            (e.seqCounter + 1) (some p)) :=
      (Serves.commit other (SessionMoves.refl _) _ _).toAdvances
    dsimp only
    split
    · exact (listed.trans (sent _)).trans (Advances.of_same rfl rfl rfl)
    · exact listed
  · exact (Serves.refl e).toAdvances

theorem Serves.portHop (newPort : UInt16) (buf : Option PacketBuf) :
    Serves C e (transportPortHop newPort buf e).2 := by
  unfold transportPortHop
  split
  · exact Serves.commit (by decide) (SessionMove.hopped _ _ _ _ _).single _ _
  · exact Serves.refl e

theorem Serves.setFecEnabled (enabled : Bool) :
    Serves C e (transportSetFecEnabled enabled e).2 := by
  unfold transportSetFecEnabled
  split
  · refine Serves.setSession (SessionMove.single ?_)
    exact .measured _ _ rfl
  · exact Serves.refl e

/-! ## Runs -/

/-- The calls that take a slot of the pool. -/
def EngineAct.allocates : EngineAct → Bool
  | .connect _ _ => true
  | .sendConnectRequest _ _ _ _ _ => true
  | .acceptConnection _ _ _ => true
  | .declineConnection _ _ _ => true
  | _ => false

theorem Serves.disconnect : Serves C e (transportEngineDisconnect e).2 := by
  unfold transportEngineDisconnect
  split
  · exact Serves.refl e
  · exact (Serves.setSession (SessionMove.reset _).single).trans
      (Serves.of_same rfl rfl rfl rfl)

theorem Engine.step_count
    (idle : e.FilesIdle) {act : EngineAct} (keeps : act.allocates = false) :
    (e.step C act).sessionCount = e.sessionCount := by
  cases act with
  | connect => cases keeps
  | sendConnectRequest => cases keeps
  | acceptConnection => cases keeps
  | declineConnection => cases keeps
  | disconnect => exact Serves.disconnect (C := C).count
  | startListener =>
      rw [Engine.step, transportEngineStartListener]
      split <;> rfl
  | sendChat text buf parityBuf =>
      exact (Serves.sendChat (C := C) text buf parityBuf).count
  | sendFile file buf =>
      rw [Engine.step, transportEngineSendFile]
      split
      · dsimp only
        split
        · rfl
        · rfl
      · rfl
  | sendTyping buf => exact (Serves.sendMessage (C := C) buf _).count
  | sendDeliveryAck msgSeq buf =>
      exact (Serves.sendMessage (C := C) buf _).count
  | audioCallStart =>
      rw [Engine.step, transportEngineAudioCallStart]
      split <;> rfl
  | audioCallEnd => rfl
  | videoCallStart =>
      rw [Engine.step, transportEngineVideoCallStart]
      split <;> rfl
  | videoCallEnd => rfl
  | portHop newPort buf => exact (Serves.portHop (C := C) newPort buf).count
  | setFecEnabled enabled =>
      exact (Serves.setFecEnabled (C := C) enabled).count
  | poll env => exact (Serves.poll idle env).count
  | shutdown =>
      rw [Engine.step, transportEngineShutdown]
      split <;> rfl
  | receive path p => rfl
  | transmit path =>
      rw [Engine.step, Engine.transmit]
      split <;> rfl
  | cryptoWork => exact (Serves.cryptoWork (C := C)).count

theorem Advances.step (idle : e.FilesIdle) (act : EngineAct) :
    Advances C e (e.step C act) := by
  cases act with
  | connect env port => exact Advances.connect env port
  | disconnect => exact Serves.disconnect.toAdvances
  | startListener =>
      rw [Engine.step, transportEngineStartListener]
      split
      · exact (Serves.refl e).toAdvances
      · exact Advances.of_same rfl rfl rfl
  | sendConnectRequest address port username displayName buf =>
      exact Advances.sendConnectRequest address port username displayName buf
  | acceptConnection address port buf =>
      exact Advances.acceptConnection address port buf
  | declineConnection address port buf =>
      exact Advances.declineConnection address port buf
  | sendChat text buf parityBuf =>
      exact (Serves.sendChat text buf parityBuf).toAdvances
  | sendFile file buf => exact Advances.sendFile file buf
  | sendTyping buf => exact (Serves.sendMessage buf _).toAdvances
  | sendDeliveryAck msgSeq buf => exact (Serves.sendMessage buf _).toAdvances
  | audioCallStart =>
      rw [Engine.step, transportEngineAudioCallStart]
      split
      · exact (Serves.refl e).toAdvances
      · exact Advances.of_same rfl rfl rfl
  | audioCallEnd => exact Advances.of_same rfl rfl rfl
  | videoCallStart =>
      rw [Engine.step, transportEngineVideoCallStart]
      split
      · exact (Serves.refl e).toAdvances
      · exact Advances.of_same rfl rfl rfl
  | videoCallEnd => exact Advances.of_same rfl rfl rfl
  | portHop newPort buf => exact (Serves.portHop newPort buf).toAdvances
  | setFecEnabled enabled => exact (Serves.setFecEnabled enabled).toAdvances
  | poll env => exact (Serves.poll idle env).toAdvances
  | shutdown =>
      rw [Engine.step, transportEngineShutdown]
      split
      · exact (Serves.refl e).toAdvances
      · refine ⟨fun _ => SessionMoves.refl _, fun _ send member => ?_, rfl⟩
        cases member
  | receive path p => exact Advances.of_same rfl rfl rfl
  | transmit path =>
      rw [Engine.step, Engine.transmit]
      split
      · exact (Serves.refl e).toAdvances
      · exact Advances.of_same rfl rfl rfl
  | cryptoWork => exact Serves.cryptoWork.toAdvances

theorem Advances.run (idle : e.FilesIdle) (acts : List EngineAct) :
    Advances C e (e.run C acts) := by
  induction acts generalizing e with
  | nil =>
      exact (Serves.refl e).toAdvances
  | cons act rest inductionHypothesis =>
      have first := Advances.step (C := C) idle act
      exact first.trans (inductionHypothesis (first.idle idle))

theorem filesIdle_init (config : EngineConfig) (audio video : Bool) :
    (transportEngineInit config audio video).FilesIdle := by
  intro send member
  cases member

/-- What every move keeps, and a new session has, holds of every slot in
every run. -/
theorem Engine.run_invariant
    {P : Session → Prop} (fresh : P sessionInit)
    (kept : ∀ s s', SessionMove C s s' → P s → P s')
    (config : EngineConfig) (audio video : Bool) (acts : List EngineAct)
    (i : Nat) :
    P (((transportEngineInit config audio video).run C acts).pool i) := by
  have moves :=
    (Advances.run (C := C) (filesIdle_init config audio video) acts).pool i
  generalize ((transportEngineInit config audio video).run C acts).pool i = s
    at moves
  induction moves with
  | refl =>
      exact fresh
  | tail _ move hypothesis =>
      exact kept _ _ move hypothesis

end

end PqComm
