import PqComm.Engine.Egress

/-!
# Which packets reach a handler

`transport_engine_poll` gives a packet to a handler straight from the gates
when its header lacks the encrypted flag, and through the crypto worker
otherwise.  The worker runs `session_enc_check` for the session the packet was
queued for, in the state that session has by then.

`Engine.handed` and `Engine.resultRing` record this.  Nothing but the three
functions that move packets touches them, which `SameInbound` says of all the
others.
-/

namespace PqComm

open Lib

/-! ## Functions that move no packets -/

/-- The rings of the crypto worker and the log of the handlers. -/
structure SameInbound (e e' : Engine) : Prop where
  cryptoRing : e'.cryptoRing = e.cryptoRing
  resultRing : e'.resultRing = e.resultRing
  handed : e'.handed = e.handed

theorem SameInbound.refl (e : Engine) : SameInbound e e :=
  ⟨rfl, rfl, rfl⟩

theorem SameInbound.trans
    {e f g : Engine} (first : SameInbound e f) (second : SameInbound f g) :
    SameInbound e g :=
  ⟨second.cryptoRing.trans first.cryptoRing,
    second.resultRing.trans first.resultRing,
    second.handed.trans first.handed⟩

/-- What a handler leaves alone besides. -/
structure HandlerFrame (e e' : Engine) : Prop extends SameInbound e e' where
  session : e'.session = e.session
  roleInitiator : e'.roleInitiator = e.roleInitiator
  filters : e'.filters = e.filters

theorem HandlerFrame.refl (e : Engine) : HandlerFrame e e :=
  ⟨SameInbound.refl e, rfl, rfl, rfl⟩

theorem HandlerFrame.trans
    {e f g : Engine} (first : HandlerFrame e f) (second : HandlerFrame f g) :
    HandlerFrame e g :=
  ⟨first.toSameInbound.trans second.toSameInbound,
    second.session.trans first.session,
    second.roleInitiator.trans first.roleInitiator,
    second.filters.trans first.filters⟩

section

variable (C : CryptoSuite) (e : Engine)

theorem frame_setSession (i : Nat) (s : Session) :
    HandlerFrame e (e.setSession i s) :=
  ⟨⟨rfl, rfl, rfl⟩, rfl, rfl, rfl⟩

theorem frame_commit
    (origin : Origin) (i : Nat) (s : Session) (seq : UInt32)
    (out : Option PacketBuf) :
    HandlerFrame e (e.commit origin i s seq out) := by
  cases out with
  | none =>
      exact ⟨⟨rfl, rfl, rfl⟩, rfl, rfl, rfl⟩
  | some p =>
      exact ⟨⟨rfl, rfl, rfl⟩, rfl, rfl, rfl⟩

theorem frame_sendMessage (buf : Option PacketBuf) (payload : Bytes) :
    HandlerFrame e (e.sendMessage buf payload) := by
  unfold Engine.sendMessage
  split
  · exact frame_commit e _ _ _ _ _
  · exact HandlerFrame.refl e

theorem frame_relayRoute (env : HandlerEnv) (v : PacketView) (s : Session) :
    HandlerFrame e (e.relayRoute C env v s) := by
  unfold Engine.relayRoute
  dsimp only
  split
  · exact ⟨⟨rfl, rfl, rfl⟩, rfl, rfl, rfl⟩
  · exact ⟨⟨rfl, rfl, rfl⟩, rfl, rfl, rfl⟩

theorem frame_handleData
    (initiator : Bool) (env : HandlerEnv) (v : PacketView) (s : Session) :
    HandlerFrame e (e.handleData C initiator env v s) := by
  unfold Engine.handleData
  split
  · exact HandlerFrame.refl e
  · split
    · exact frame_relayRoute C e env v s
    · split
      · refine HandlerFrame.trans ?_ (frame_sendMessage _ env.ackBuf _)
        split
        · exact ⟨⟨rfl, rfl, rfl⟩, rfl, rfl, rfl⟩
        · exact ⟨⟨rfl, rfl, rfl⟩, rfl, rfl, rfl⟩
      · exact HandlerFrame.refl e

theorem frame_handleHandshake
    (initiator : Bool) (env : HandlerEnv) (i : Nat) (p : PacketBuf) :
    HandlerFrame e (e.handleHandshake C initiator env i p) := by
  unfold Engine.handleHandshake
  extract_lets r next
  have committed : HandlerFrame e next := frame_commit e _ _ _ _ _
  clear_value next
  split
  · exact committed.trans ⟨⟨rfl, rfl, rfl⟩, rfl, rfl, rfl⟩
  · exact committed

theorem frame_afterLocked (i : Nat) (r : LockedOut) :
    HandlerFrame e (e.afterLocked i r) := by
  have committed := frame_commit e .control i r.sess r.seq r.out
  unfold Engine.afterLocked
  dsimp only
  split
  · exact committed
  · exact committed.trans ⟨⟨rfl, rfl, rfl⟩, rfl, rfl, rfl⟩

/-- The handlers answer and raise events; they move no packet. -/
theorem frame_handle
    (initiator : Bool) (env : HandlerEnv) (p : PacketBuf) :
    HandlerFrame e (e.handle C initiator env p) := by
  unfold Engine.handle
  split
  · rename_i i v _ _
    split
    · exact frame_handleData C e initiator env _ _
    · unfold Engine.handleControl
      split
      · have handled :=
          frame_afterLocked e i
            (lockedControl C env p (e.pool i) e.seqCounter)
        dsimp only
        split
        · exact handled
        · exact handled.trans (frame_handleHandshake C _ initiator env _ p)
      · exact frame_handleHandshake C e initiator env _ p
  · exact HandlerFrame.refl e

/-! ### The interface -/

theorem sameInbound_sessionAlloc
    {e : Engine} {addr : Bytes} {i : Nat} {e' : Engine}
    (allocated : e.sessionAlloc addr = some (i, e')) : SameInbound e e' := by
  unfold Engine.sessionAlloc at allocated
  split at allocated
  · cases allocated
  · cases allocated
    exact ⟨rfl, rfl, rfl⟩

theorem sameInbound_commit
    {e : Engine} (origin : Origin) (i : Nat) (s : Session) (seq : UInt32)
    (out : Option PacketBuf) {e' : Engine} (same : SameInbound e' e) :
    SameInbound e' (e.commit origin i s seq out) :=
  same.trans (frame_commit e origin i s seq out).toSameInbound

theorem sameInbound_connect (env : ConnectEnv) (port : UInt16) :
    SameInbound e (transportEngineConnect C env port e).2 := by
  unfold transportEngineConnect
  split
  · exact SameInbound.refl e
  · dsimp only
    split
    · exact ⟨rfl, rfl, rfl⟩
    · split
      · exact ⟨rfl, rfl, rfl⟩
      · rename_i i next allocated
        have same := sameInbound_sessionAlloc allocated
        split
        · exact ⟨same.cryptoRing, same.resultRing, same.handed⟩
        · dsimp only
          refine sameInbound_commit _ _ _ _ _ ?_
          exact ⟨same.cryptoRing, same.resultRing, same.handed⟩

theorem sameInbound_sendConnectRequest
    (address : Option Bytes) (port : UInt16) (username displayName : Bytes)
    (buf : Option PacketBuf) :
    SameInbound e
      (transportEngineSendConnectRequest address port username displayName
        buf e).2 := by
  unfold transportEngineSendConnectRequest
  split
  · exact SameInbound.refl e
  · dsimp only
    split
    · exact ⟨rfl, rfl, rfl⟩
    · rename_i i next allocated
      have same := sameInbound_sessionAlloc allocated
      refine sameInbound_commit _ _ _ _ _ ?_
      exact ⟨same.cryptoRing, same.resultRing, same.handed⟩

theorem sameInbound_acceptConnection
    (address : Option Bytes) (port : UInt16) (buf : Option PacketBuf) :
    SameInbound e (transportEngineAcceptConnection address port buf e).2 := by
  unfold transportEngineAcceptConnection
  split
  · exact SameInbound.refl e
  · dsimp only
    split
    · exact SameInbound.refl e
    · rename_i i next allocated
      have same := sameInbound_sessionAlloc allocated
      refine sameInbound_commit _ _ _ _ _ ?_
      cases next.session with
      | none =>
          exact ⟨same.cryptoRing, same.resultRing, same.handed⟩
      | some j =>
          exact ⟨same.cryptoRing, same.resultRing, same.handed⟩

theorem sameInbound_declineConnection
    (address : Option Bytes) (port : UInt16) (buf : Option PacketBuf) :
    SameInbound e
      (transportEngineDeclineConnection address port buf e).2 := by
  unfold transportEngineDeclineConnection
  split
  · exact SameInbound.refl e
  · dsimp only
    split
    · exact SameInbound.refl e
    · rename_i i next allocated
      have same := sameInbound_sessionAlloc allocated
      refine SameInbound.trans ?_ (frame_setSession _ _ _).toSameInbound
      exact sameInbound_commit _ _ _ _ _ same

theorem sameInbound_pushChat
    (i : Nat) (s : Session) (seq : UInt32) (path : Nat) (chat : PacketBuf)
    (text : Bytes) (parityBuf : Option PacketBuf) :
    SameInbound e (e.pushChat i s seq path chat text parityBuf) := by
  have target : SameInbound e (e.pathAddr path).1 := by
    unfold Engine.pathAddr
    split
    · exact ⟨rfl, rfl, rfl⟩
    · exact SameInbound.refl e
  unfold Engine.pushChat
  dsimp only
  split
  · exact ⟨target.cryptoRing, target.resultRing, target.handed⟩
  · exact ⟨target.cryptoRing, target.resultRing, target.handed⟩

theorem sameInbound_sendChat
    (text : Bytes) (buf parityBuf : Option PacketBuf) :
    SameInbound e (transportEngineSendChat C text buf parityBuf e).2 := by
  unfold transportEngineSendChat
  split
  · extract_lets path before s recorded
    have same : SameInbound e recorded := ⟨rfl, rfl, rfl⟩
    clear_value s recorded
    cases buf with
    | none =>
        exact same
    | some buf =>
        dsimp only
        split
        · exact ⟨same.cryptoRing, same.resultRing, same.handed⟩
        · refine
            SameInbound.trans ?_ (sameInbound_pushChat _ _ _ _ _ _ _ _)
          exact ⟨same.cryptoRing, same.resultRing, same.handed⟩
  · exact SameInbound.refl e

theorem sameInbound_sendFile
    (file : Option DiskFile) (buf : Option PacketBuf) :
    SameInbound e (transportEngineSendFile file buf e).2 := by
  unfold transportEngineSendFile
  split
  · dsimp only
    split
    · exact ⟨rfl, rfl, rfl⟩
    · exact ⟨rfl, rfl, rfl⟩
  · exact SameInbound.refl e

theorem sameInbound_portHop (newPort : UInt16) (buf : Option PacketBuf) :
    SameInbound e (transportPortHop newPort buf e).2 := by
  unfold transportPortHop
  split
  · exact sameInbound_commit _ _ _ _ _ (SameInbound.refl e)
  · exact SameInbound.refl e

/-! ### The periodic work -/

theorem sameInbound_tickSession (env : PollEnv) :
    SameInbound e (e.tickSession env) := by
  unfold Engine.tickSession
  split
  · exact SameInbound.refl e
  · split
    · exact sameInbound_commit _ _ _ _ _
        (sameInbound_commit _ _ _ _ _ (SameInbound.refl e))
    · exact SameInbound.refl e

/-- Work that touches no session either. -/
structure QuietFrame (e e' : Engine) : Prop extends HandlerFrame e e' where
  pool : e'.pool = e.pool

theorem QuietFrame.refl : QuietFrame e e :=
  ⟨HandlerFrame.refl e, rfl⟩

theorem quiet_tickDecoy (env : PollEnv) : QuietFrame e (e.tickDecoy env) := by
  unfold Engine.tickDecoy
  split
  · split
    · exact ⟨⟨⟨rfl, rfl, rfl⟩, rfl, rfl, rfl⟩, rfl⟩
    · exact QuietFrame.refl e
  · exact QuietFrame.refl e

theorem quiet_tickAudio (env : PollEnv) :
    QuietFrame e (e.tickAudio C env) := by
  unfold Engine.tickAudio
  split
  · exact QuietFrame.refl e
  · split
    · dsimp only
      split
      · exact QuietFrame.refl e
      · exact ⟨⟨⟨rfl, rfl, rfl⟩, rfl, rfl, rfl⟩, rfl⟩
    · exact QuietFrame.refl e

theorem quiet_tickVideo (env : PollEnv) :
    QuietFrame e (e.tickVideo C env) := by
  unfold Engine.tickVideo
  split
  · exact QuietFrame.refl e
  · split
    · dsimp only
      split
      · exact QuietFrame.refl e
      · exact ⟨⟨⟨rfl, rfl, rfl⟩, rfl, rfl, rfl⟩, rfl⟩
    · exact QuietFrame.refl e

theorem quiet_tickFile (env : PollEnv) :
    QuietFrame e (e.tickFile C env) := by
  unfold Engine.tickFile
  split
  · split
    · extract_lets r next sent
      have same : QuietFrame e sent := by
        dsimp only [sent]
        split
        · unfold Engine.sendChunk
          dsimp only
          split
          · exact ⟨⟨⟨rfl, rfl, rfl⟩, rfl, rfl, rfl⟩, rfl⟩
          · exact ⟨⟨⟨rfl, rfl, rfl⟩, rfl, rfl, rfl⟩, rfl⟩
        · exact ⟨⟨⟨rfl, rfl, rfl⟩, rfl, rfl, rfl⟩, rfl⟩
      clear_value sent
      split
      · exact
          ⟨same.toHandlerFrame.trans ⟨⟨rfl, rfl, rfl⟩, rfl, rfl, rfl⟩,
            same.pool⟩
      · exact same
    · exact QuietFrame.refl e
  · exact QuietFrame.refl e

theorem sameInbound_ticks (env : PollEnv) :
    SameInbound e (e.ticks C env) := by
  have abr (f : Engine) : SameInbound f (f.tickAbr env.now) := by
    unfold Engine.tickAbr
    split
    · exact SameInbound.refl f
    · split
      · exact ⟨rfl, rfl, rfl⟩
      · exact SameInbound.refl f
  have looped : SameInbound e e.tickLoop := ⟨rfl, rfl, rfl⟩
  unfold Engine.ticks
  refine SameInbound.trans ?_ (quiet_tickFile C _ env).toSameInbound
  refine SameInbound.trans ?_ (quiet_tickVideo C _ env).toSameInbound
  refine SameInbound.trans ?_ (quiet_tickAudio C _ env).toSameInbound
  refine SameInbound.trans ?_ (quiet_tickDecoy _ env).toSameInbound
  exact (looped.trans (abr _)).trans (sameInbound_tickSession _ env)

end

/-! ## Where a handed packet comes from -/

section

variable (C : CryptoSuite)

/-- The packet is what the crypto worker left of one it has checked. -/
def CheckedFrom (p : PacketBuf) (source : HandSource) : Prop :=
  ∃ original i s v v',
    source = .checked original i s ∧ packetParse original = some v ∧
      v.encrypted = true ∧ (sessionEncCheck C v s).2 = some v' ∧ p = v'.buf

/-- The header of the packet carries the encrypted flag. -/
def Flagged (p : PacketBuf) : Prop :=
  p.data 5 &&& packetFlagEncrypted ≠ 0

/-- A packet without the flag came straight from the gates; any other was
checked. -/
structure Traced (e : Engine) : Prop where
  results : ∀ result ∈ e.resultRing, CheckedFrom C result.1 result.2
  handed :
    ∀ h ∈ e.handed,
      (h.source = .direct ∧ ¬ Flagged h.pkt) ∨ CheckedFrom C h.pkt h.source

variable {C} {e : Engine}

theorem Traced.of_same
    {e' : Engine} (traced : Traced C e) (same : SameInbound e e') :
    Traced C e' := by
  constructor
  · rw [same.resultRing]
    exact traced.results
  · rw [same.handed]
    exact traced.handed

theorem Traced.hand
    (traced : Traced C e) (env : HandlerEnv) {p : PacketBuf}
    {source : HandSource}
    (origin : (source = .direct ∧ ¬ Flagged p) ∨ CheckedFrom C p source) :
    Traced C (e.hand C env p source) := by
  unfold Engine.hand
  extract_lets record next
  have logged : Traced C next := by
    refine ⟨traced.results, fun h member => ?_⟩
    rcases List.mem_append.mp member with old | new
    · exact traced.handed h old
    · rw [List.mem_singleton.mp new]
      exact origin
  clear_value next
  split
  · exact logged.of_same (frame_handle C next true env p).toSameInbound
  · exact logged.of_same (frame_handle C next false env p).toSameInbound

theorem Traced.takeResult (traced : Traced C e) (env : HandlerEnv) :
    Traced C (e.takeResult C env) := by
  unfold Engine.takeResult
  split
  · exact traced
  · rename_i p source rest pending
    refine Traced.hand ?_ env (Or.inr ?_)
    · refine ⟨fun result member => ?_, traced.handed⟩
      exact traced.results result
        (by rw [pending]; exact List.mem_cons_of_mem _ member)
    · exact traced.results (p, source)
        (by rw [pending]; exact List.mem_cons_self)

theorem sameInbound_afterGates (e : Engine) (pre : PreCrypto) :
    SameInbound e (e.afterGates pre) := by
  unfold Engine.afterGates
  split
  · exact ⟨rfl, rfl, rfl⟩
  · exact ⟨rfl, rfl, rfl⟩

theorem sameInbound_dropControl
    (e : Engine) (now : UInt64) (p : PacketBuf) :
    SameInbound e (e.dropControl now p) := by
  unfold Engine.dropControl
  split
  · exact SameInbound.refl e
  · split
    · dsimp only
      split
      · exact ⟨rfl, rfl, rfl⟩
      · exact ⟨rfl, rfl, rfl⟩
    · split
      · exact ⟨rfl, rfl, rfl⟩
      · split
        · exact ⟨rfl, rfl, rfl⟩
        · exact SameInbound.refl e

/-- The view the gates let through has the flag of the packet. -/
theorem encrypted_of_preCrypto
    {env : InboundEnv} {filters : Filters} {sess : Option Session}
    {p : PacketBuf} {view : PacketView}
    (reached :
      (pipelineInboundPreCrypto env filters sess p).view = some view) :
    view.encrypted = true ↔ Flagged p := by
  rcases pipelineInboundPreCrypto_cases env filters sess p with
    ⟨-, none, -⟩ | ⟨s, view', s', -, -, passed, -, gates⟩
  · rw [none] at reached
    cases reached
  · rw [passed] at reached
    cases reached
    obtain ⟨raw, parsed, viewEq⟩ := gates.view_eq
    rw [viewEq]
    exact (parsedAs_of_packetParse parsed).encrypted

theorem Traced.inbound
    (traced : Traced C e) (env : PollEnv) (p : PacketBuf) :
    Traced C (e.inbound C env p) := by
  unfold Engine.inbound
  extract_lets pre next
  have gated : Traced C next :=
    traced.of_same (sameInbound_afterGates e pre)
  split
  · rename_i view i reached _
    split
    · exact ⟨gated.results, gated.handed⟩
    · rename_i plain
      refine gated.hand env.packet (Or.inl ⟨rfl, ?_⟩)
      rwa [← encrypted_of_preCrypto reached]
  · split
    · exact gated.of_same (sameInbound_dropControl _ _ _)
    · exact gated

theorem Traced.poll (traced : Traced C e) (env : PollEnv) :
    Traced C (transportEnginePoll C env e).2.2 := by
  unfold transportEnginePoll
  split
  · exact traced.of_same ⟨rfl, rfl, rfl⟩
  · have taken := traced.takeResult env.result
    dsimp only
    split
    · split
      · exact taken
      · refine Traced.inbound ?_ env _
        exact taken.of_same ⟨rfl, rfl, rfl⟩
    · exact taken.of_same (sameInbound_ticks C _ env)

theorem Traced.cryptoWork (traced : Traced C e) :
    Traced C (e.cryptoWork C) := by
  unfold Engine.cryptoWork
  split
  · exact traced
  · rename_i job rest _
    have popped : Traced C { e with cryptoRing := rest } :=
      ⟨traced.results, traced.handed⟩
    dsimp only
    split
    · exact popped
    · rename_i view parsed
      split
      · exact popped
      · rename_i flagged
        split
        · exact ⟨traced.results, traced.handed⟩
        · rename_i view' checked
          refine ⟨fun result member => ?_, traced.handed⟩
          have place :
              result ∈ e.resultRing ∨
                result =
                  (view'.buf, .checked job.p job.sess (e.pool job.sess)) := by
            simp only [ringPush] at member
            split at member
            · exact Or.inl member
            · rcases List.mem_append.mp member with old | new
              · exact Or.inl old
              · exact Or.inr (List.mem_singleton.mp new)
          rcases place with old | rfl
          · exact traced.results result old
          · exact ⟨job.p, job.sess, e.pool job.sess, view, view', rfl,
              parsed, by simpa using flagged, checked, rfl⟩

theorem Traced.step (traced : Traced C e) (act : EngineAct) :
    Traced C (e.step C act) := by
  cases act with
  | poll env => exact traced.poll env
  | cryptoWork => exact traced.cryptoWork
  | connect env port =>
      exact traced.of_same (sameInbound_connect C e env port)
  | disconnect =>
      refine traced.of_same ?_
      rw [Engine.step, transportEngineDisconnect]
      split
      · exact SameInbound.refl e
      · exact ⟨rfl, rfl, rfl⟩
  | startListener =>
      refine traced.of_same ?_
      rw [Engine.step, transportEngineStartListener]
      split
      · exact SameInbound.refl e
      · exact ⟨rfl, rfl, rfl⟩
  | sendConnectRequest address port username displayName buf =>
      exact traced.of_same
        (sameInbound_sendConnectRequest e address port username displayName
          buf)
  | acceptConnection address port buf =>
      exact traced.of_same (sameInbound_acceptConnection e address port buf)
  | declineConnection address port buf =>
      exact traced.of_same (sameInbound_declineConnection e address port buf)
  | sendChat text buf parityBuf =>
      exact traced.of_same (sameInbound_sendChat C e text buf parityBuf)
  | sendFile file buf =>
      exact traced.of_same (sameInbound_sendFile e file buf)
  | sendTyping buf =>
      exact traced.of_same (frame_sendMessage e buf _).toSameInbound
  | sendDeliveryAck msgSeq buf =>
      exact traced.of_same (frame_sendMessage e buf _).toSameInbound
  | audioCallStart =>
      refine traced.of_same ?_
      rw [Engine.step, transportEngineAudioCallStart]
      split
      · exact SameInbound.refl e
      · exact ⟨rfl, rfl, rfl⟩
  | audioCallEnd => exact traced.of_same ⟨rfl, rfl, rfl⟩
  | videoCallStart =>
      refine traced.of_same ?_
      rw [Engine.step, transportEngineVideoCallStart]
      split
      · exact SameInbound.refl e
      · exact ⟨rfl, rfl, rfl⟩
  | videoCallEnd => exact traced.of_same ⟨rfl, rfl, rfl⟩
  | portHop newPort buf =>
      exact traced.of_same (sameInbound_portHop e newPort buf)
  | setFecEnabled enabled =>
      refine traced.of_same ?_
      rw [Engine.step, transportSetFecEnabled]
      split
      · exact ⟨rfl, rfl, rfl⟩
      · exact SameInbound.refl e
  | shutdown =>
      refine traced.of_same ?_
      rw [Engine.step, transportEngineShutdown]
      split
      · exact SameInbound.refl e
      · exact ⟨rfl, rfl, rfl⟩
  | receive path p => exact traced.of_same ⟨rfl, rfl, rfl⟩
  | transmit path =>
      refine traced.of_same ?_
      rw [Engine.step, Engine.transmit]
      split
      · exact SameInbound.refl e
      · exact ⟨rfl, rfl, rfl⟩

variable (C)

theorem Traced.run (traced : Traced C e) (acts : List EngineAct) :
    Traced C (e.run C acts) := by
  induction acts generalizing e with
  | nil =>
      exact traced
  | cons act rest inductionHypothesis =>
      exact inductionHypothesis (traced.step act)

theorem traced_transportEngineInit
    (config : EngineConfig) (audio video : Bool) :
    Traced C (transportEngineInit config audio video) where
  results := by
    intro result member
    cases member
  handed := by
    intro h member
    cases member

/-! ## Authenticated delivery -/

/-- `session_enc_check` ran on the packet for session `i` and its tag
verified under the key that session had. -/
def Verified (h : Handed) (i : Nat) : Prop :=
  ∃ original s v,
    h.source = .checked original i s ∧ packetParse original = some v ∧
      s.state = .locked ∧ TagVerifies C s v

/-- The packet was checked for the session it is handed to, while that session
was locked. -/
def CheckedInLock (h : Handed) (i : Nat) : Prop :=
  ∀ original j s, h.source = .checked original j s →
    s.state = .locked ∧ j = i

/-- Decryption in place leaves the header alone. -/
theorem sessionEncCheck_header
    {original : PacketBuf} {v v' : PacketView} {s : Session}
    (parsed : packetParse original = some v)
    (checked : (sessionEncCheck C v s).2 = some v') {k : Nat}
    (header : k < 24) : v'.buf.data k = original.data k := by
  have behind : headerSize ≤ v.payload := payload_of_packetParse parsed
  have buf := (parsedAs_of_packetParse parsed).buf
  unfold sessionEncCheck at checked
  split at checked
  · cases checked
    rw [buf]
  · split at checked
    · cases checked
      rw [buf]
    · split at checked
      · cases checked
      · cases checked
        rw [buf]
        simp only [headerSize] at behind
        exact memWrite_before (by omega)

variable {C} in
theorem Traced.verified_iff
    (traced : Traced C e) {h : Handed} (member : h ∈ e.handed)
    (data : h.pkt.data 14 ≠ chControl) (i : Nat) :
    Verified C h i ↔ Flagged h.pkt ∧ CheckedInLock h i := by
  rcases traced.handed h member with
    ⟨direct, plain⟩ | ⟨original, j, s, v, v', source, parsed, encrypted,
      checked, pkt⟩
  · constructor
    · rintro ⟨original, s, v, source, -⟩
      rw [direct] at source
      cases source
    · rintro ⟨flagged, -⟩
      exact absurd flagged plain
  · have fields := parsedAs_of_packetParse parsed
    have header {k : Nat} (below : k < 24) :
        h.pkt.data k = original.data k := by
      rw [pkt]
      exact sessionEncCheck_header C parsed checked below
    constructor
    · rintro ⟨original', s', v'', source', -, locked, -⟩
      rw [source] at source'
      cases source'
      refine ⟨?_, ?_⟩
      · rw [Flagged, header (by decide)]
        exact fields.encrypted.mp encrypted
      · intro original'' j' s'' again
        rw [source] at again
        cases again
        exact ⟨locked, rfl⟩
    · rintro ⟨-, inLock⟩
      obtain ⟨locked, rfl⟩ := inLock original j s source
      have onData : v.channelId ≠ chControl := by
        rw [fields.channelId, ← header (by decide)]
        exact data
      exact ⟨original, s, v, source, parsed, locked,
        tagVerifies_of_sessionEncCheck locked onData checked⟩

/-- The pipeline accepts on a data channel of a locked session nothing but
authenticated packets exactly when the packet carries the flag or another
layer refuses it, and a packet that a run of the engine which keeps its buffers
apart hands over on such a channel is verified exactly when it carries the
flag and was checked for its session in the lock. -/
theorem delivery_authenticated_iff :
    (∀ (env : InboundEnv) (filters : Filters) (sess : Session)
        (rxq : RxQueues) (p : PacketBuf),
      sess.state = .locked → p.data 14 ≠ chControl →
        (((pipelineInboundProcess C env filters sess rxq p).1 = .ok →
            Authenticated C sess p) ↔
          (Flagged p ∨ ¬ AcceptedPlain C env filters sess rxq p))) ∧
      ∀ (config : EngineConfig) (audio video : Bool) (acts : List EngineAct),
        (transportEngineInit config audio video).BuffersApart C acts →
          ∀ (h : Handed) (i : Nat) (s : Session),
            h ∈ ((transportEngineInit config audio video).run C acts).handed →
              h.session = some (i, s) → s.state = .locked →
                h.pkt.data 14 ≠ chControl →
                  (Verified C h i ↔ Flagged h.pkt ∧ CheckedInLock h i) := by
  constructor
  · intro env filters sess rxq p locked data
    exact pipelineInboundProcess_authenticated_iff C env filters sess rxq p
      locked data
  · intro config audio video acts _ h i s member _ _ data
    exact ((traced_transportEngineInit C config audio video).run C
      acts).verified_iff member data i

end

/-! ## A chat message without the flag -/

/-- What the sample engine has handed to its handler. -/
def sampleHanded (acts : List EngineAct) : List Handed :=
  ((transportEngineInit sampleConfig false false).run sampleSuite acts).handed

/-- A session locked with the peer of the sample engine. -/
def sampleLocked : Session :=
  { sessionId := 77
    state := .locked
    addr := overlay (zeros 32) (resolvePeer sampleConnect.address 9000)
    addrLen := sockaddrIn6Size }

/-- The handed packet met a locked session. -/
def Handed.inLock (h : Handed) : Bool :=
  match h.session with
  | none => false
  | some (_, s) => s.state == .locked

theorem Handed.inLock_iff (h : Handed) :
    h.inLock = true ↔
      ∃ i s, h.session = some (i, s) ∧ s.state = .locked := by
  unfold Handed.inLock
  cases h.session with
  | none =>
      simp
  | some slot =>
      obtain ⟨i, s⟩ := slot
      simp

/-- The handed packet came straight from the gates. -/
def Handed.isDirect (h : Handed) : Bool :=
  match h.source with
  | .direct => true
  | .checked _ _ _ => false

/-- A chat packet in the clear, from the address of the peer. -/
def plainChat : PacketBuf :=
  (buildPacket default true 0 77 chChat 9 [0x68, 0x69, 0]).sendTo
    (resolvePeer sampleConnect.address 9000)

/-- It passes both receive paths of a locked session unverified. -/
theorem plainChat_delivered :
    ¬ ((pipelineInboundProcess sampleSuite samplePoll.inbound {} sampleLocked
          {} plainChat).1 = .ok →
        Authenticated sampleSuite sampleLocked plainChat) ∧
      ¬ ∀ h ∈
          sampleHanded
            (lockingActs ++ [.receive 0 plainChat, .poll samplePoll]),
        ∀ i s, h.session = some (i, s) → s.state = .locked →
          h.pkt.data 14 ≠ chControl → Verified sampleSuite h i := by
  constructor
  · intro sound
    obtain ⟨v, parsed, encrypted, -⟩ := sound (by decide +kernel)
    exact (parsedAs_of_packetParse parsed).encrypted.mp encrypted
      (by decide +kernel)
  · intro sound
    have found :
        (sampleHanded
          (lockingActs ++ [.receive 0 plainChat, .poll samplePoll])).any
          fun h => h.inLock && h.isDirect && h.pkt.data 14 == chChat := by
      decide +kernel
    obtain ⟨h, member, facts⟩ := List.any_eq_true.mp found
    obtain ⟨⟨inLock, direct⟩, channel⟩ :
        (h.inLock = true ∧ h.isDirect = true) ∧ h.pkt.data 14 = chChat := by
      simpa using facts
    obtain ⟨i, s, session, locked⟩ := h.inLock_iff.mp inLock
    obtain ⟨original, t, v, source, -⟩ :=
      sound h member i s session locked (by rw [channel]; decide)
    simp [Handed.isDirect, source] at direct

/-- The same message, sealed under the keys of a session. -/
def sealedChat (s : Session) : PacketBuf :=
  sealTx sampleSuite plainChat s

/-- A sealed packet is authenticated, and one in the clear is not. -/
theorem delivery_authenticated_sealedChat :
    Authenticated sampleSuite sampleLocked (sealedChat sampleLocked) ∧
      ∃ h ∈
          sampleHanded
            (lockingActs ++ [.receive 0 plainChat, .poll samplePoll]),
        ∃ i s, h.session = some (i, s) ∧ ¬ Verified sampleSuite h i := by
  obtain ⟨pipeline, engine⟩ := delivery_authenticated_iff sampleSuite
  constructor
  · refine
      (pipeline samplePoll.inbound {} sampleLocked {}
        (sealedChat sampleLocked) rfl (by decide +kernel)).mpr (Or.inl ?_)
        (by decide +kernel)
    unfold Flagged
    decide +kernel
  · have found :
        (sampleHanded
          (lockingActs ++ [.receive 0 plainChat, .poll samplePoll])).any
          fun h =>
            h.inLock && h.pkt.data 14 == chChat && h.pkt.data 5 == 0 := by
      decide +kernel
    obtain ⟨h, member, facts⟩ := List.any_eq_true.mp found
    obtain ⟨⟨inLock, channel⟩, plain⟩ :
        (h.inLock = true ∧ h.pkt.data 14 = chChat) ∧
          h.pkt.data 5 = 0 := by
      simpa using facts
    obtain ⟨i, s, session, locked⟩ := h.inLock_iff.mp inLock
    have apart :
        (transportEngineInit sampleConfig false false).BuffersApart sampleSuite
          (lockingActs ++ [.receive 0 plainChat, .poll samplePoll]) := by
      decide +kernel
    refine ⟨h, member, i, s, session, fun verified => ?_⟩
    obtain ⟨flagged, -⟩ :=
      (engine sampleConfig false false _ apart h i s member session locked
        (by rw [channel]; decide)).mp verified
    exact flagged (by rw [plain]; rfl)

end PqComm
