import PqComm.Engine.Listening
import PqComm.Engine.SessionMoves
import PqComm.Pipeline.Replay

/-!
# Paths of a session that has locked

`transport_engine_connect` and `transport_engine_accept_connection` register
the second path of the peer and switch multipath on.  For a session that
dials, `handshake_init_initiator` then runs `session_reset`, and
`resilience_init` switches it off again; a session that accepts keeps it, but
no handshake locks such a session.  So no session that ever locks knows more
than one path.
-/

namespace PqComm

open Lib

/-- Only a session that no handshake has started uses several paths. -/
def Session.MultipathIdle (s : Session) : Prop :=
  s.resilience.multipathEnabled = true →
    s.role = .unassigned ∧ s.state = .idle

section

variable (C : CryptoSuite) {s s' : Session}

theorem Session.MultipathIdle.of_single
    (single : s.resilience.multipathEnabled = false) : s.MultipathIdle := by
  intro multipath
  rw [single] at multipath
  cases multipath

theorem Session.MultipathIdle.single
    (idle : s.MultipathIdle) (started : s.state ≠ .idle) :
    s.resilience.multipathEnabled = false := by
  cases multipath : s.resilience.multipathEnabled with
  | false => rfl
  | true => exact absurd (idle multipath).2 started

theorem Session.MultipathIdle.of_locked
    (idle : s.MultipathIdle) (locked : s.state = .locked) :
    s.resilience.multipathEnabled = false := by
  apply idle.single
  rw [locked]
  exact nofun

/-! ## The handshake leaves the paths alone or resets them -/

theorem resilience_verifyProof (label pre msg : Bytes) :
    (verifyProof C s label pre msg).1.resilience = s.resilience := by
  unfold verifyProof
  dsimp only [deriveIdProofKey]
  split
  · rfl
  · split
    · rfl
    · rfl

theorem resilience_lockSession (derived : lockSession C s = some s') :
    s'.resilience = s.resilience := by
  obtain ⟨material, -, rfl⟩ := Option.map_eq_some_iff.mp derived
  rfl

theorem resilience_processOpcode (pre : Bytes) (opcode : UInt8) (msg : Bytes) :
    (processOpcode C s pre opcode msg).1.resilience = s.resilience := by
  have checked (label : Bytes) :=
    resilience_verifyProof C (s := s) label pre msg
  unfold processOpcode
  split
  · split
    · rfl
    · rfl
  split
  · split
    · rfl
    · rfl
  split
  · split
    · rfl
    · rfl
  split
  · split
    · rfl
    · split
      · rfl
      · rfl
  split
  · split
    · rfl
    · exact checked labelIdProof
  split
  · split
    · rfl
    · dsimp only
      split
      · exact checked labelLockProof
      · split
        · exact checked labelLockProof
        · rename_i derived
          exact (resilience_lockSession C derived).trans
            (checked labelLockProof)
  · rfl

theorem resilience_handshakeProcessMessage (v : PacketView) :
    (handshakeProcessMessage C s v).1.resilience = s.resilience := by
  unfold handshakeProcessMessage
  split
  · rfl
  · dsimp only
    split
    · rfl
    · split
      · rfl
      · exact resilience_processOpcode C _ _ _

theorem resilience_handshakeBuildProof
    (opcode : UInt8) (label : Bytes) (buf : PacketBuf) (seq : UInt32) :
    (handshakeBuildProof C s opcode label buf seq).sess.resilience =
      s.resilience := by
  unfold handshakeBuildProof
  dsimp only [deriveIdProofKey]
  split
  · rfl
  · rfl

theorem resilience_initiatorReply
    (env : HsEnv) (opcode : UInt8) (seq : UInt32) :
    (initiatorReply C env s opcode seq).sess.resilience = s.resilience := by
  unfold initiatorReply
  cases env.buf with
  | none =>
      rfl
  | some buf =>
      dsimp only
      split
      · unfold handshakeBuildKemInit
        split
        · rfl
        · split
          · rfl
          · rfl
      · split
        · have sent := resilience_handshakeBuildProof C (s := s)
            ctrlIdentityProof labelIdProof buf seq
          unfold handshakeBuildIdentity
          dsimp only
          split
          · exact sent
          · exact sent
        · rfl

theorem resilience_responderReply
    (env : HsEnv) (opcode : UInt8) (seq : UInt32) :
    (responderReply C env s opcode seq).sess.resilience = s.resilience := by
  unfold responderReply
  cases env.buf with
  | none =>
      rfl
  | some buf =>
      dsimp only
      split
      · rfl
      · split
        · unfold handshakeBuildKemResponse
          split
          · rfl
          · split
            · rfl
            · dsimp only
              split
              · rfl
              · rfl
        · split
          · have sent := resilience_handshakeBuildProof C (s := s)
              ctrlSessionLocked labelLockProof buf seq
            unfold handshakeBuildLocked
            dsimp only
            split
            · exact sent
            · split
              · exact sent
              · rename_i derived
                exact (resilience_lockSession C derived).trans sent
          · rfl

/-- A runner keeps the paths or ends in a session that was reset. -/
theorem resilience_handshakeRun
    {reply : HsEnv → Session → UInt8 → UInt32 → HsOut}
    (replies :
      ∀ (t : Session) env opcode seq,
        (reply env t opcode seq).sess.resilience = t.resilience)
    (env : HsEnv) (p : PacketBuf) (seq : UInt32) :
    (handshakeRun C reply env s p seq).sess.resilience = s.resilience ∨
      (handshakeRun C reply env s p seq).sess.resilience =
        resilienceInit := by
  unfold handshakeRun
  cases packetParse p with
  | none =>
      exact Or.inl rfl
  | some v =>
      have processed := resilience_handshakeProcessMessage C (s := s) v
      dsimp only
      split
      · exact Or.inr rfl
      · exact Or.inl processed
      · exact Or.inl ((replies _ _ _ _).trans processed)

/-! ## The handlers of a locked session keep the flag -/

section

variable {env : HandlerEnv} {p : PacketBuf} {seq : UInt32}

theorem multipath_heartbeatHandle (buf : Option PacketBuf) (now : UInt64) :
    (heartbeatHandle p s buf seq now).sess.resilience.multipathEnabled =
      s.resilience.multipathEnabled := by
  unfold heartbeatHandle
  split
  · rfl
  split
  · split
    · rfl
    · cases buf with
      | none => rfl
      | some buf => rfl
  split
  · rfl
  · rfl

theorem multipath_reconnectHandle (buf : Option PacketBuf) (now : UInt64) :
    (reconnectHandle p s buf seq now).sess.resilience.multipathEnabled =
      s.resilience.multipathEnabled := by
  unfold reconnectHandle
  split
  · rfl
  split
  · split
    · rfl
    · cases buf with
      | none => rfl
      | some buf => rfl
  split
  · split
    · rfl
    · rfl
  · rfl

theorem multipath_portHopHandle :
    (portHopHandle p s).2.resilience.multipathEnabled =
      s.resilience.multipathEnabled := by
  have registered (idx : Nat) (addr : Bytes) :
      (sessionRegisterPath s idx addr).resilience = s.resilience := by
    unfold sessionRegisterPath
    split
    · rfl
    · rfl
  unfold portHopHandle
  split
  · rfl
  split
  · split
    · rfl
    · dsimp only
      rw [registered]
  split
  · split
    · rfl
    · rfl
  · rfl

theorem multipath_portHopStep :
    (portHopStep env p s seq).sess.resilience.multipathEnabled =
      s.resilience.multipathEnabled := by
  unfold portHopStep
  dsimp only
  split
  · cases env.hopBuf with
    | none => exact multipath_portHopHandle
    | some buf => exact multipath_portHopHandle
  · exact multipath_portHopHandle

theorem multipath_rekeyHandle (renv : RekeyEnv) :
    (rekeyHandle C renv p s seq).sess.resilience = s.resilience := by
  have done := rekeyHandle_cases C renv p s seq
  generalize rekeyHandle C renv p s seq = result at done
  cases done with
  | ignored => rfl
  | switched => rfl
  | confirmed => rfl

theorem multipath_lockedInline :
    (lockedInline env p s seq).sess = s := by
  unfold lockedInline
  split
  · rfl
  split
  · rfl
  split
  · rfl
  · rfl

/-- A handler that consumes the packet or passes it on keeps the flag. -/
theorem multipath_orElse
    {r : CtlOut} {rest : Session → UInt32 → LockedOut}
    (first :
      r.sess.resilience.multipathEnabled = s.resilience.multipathEnabled)
    (others :
      ∀ t seq, (rest t seq).sess.resilience.multipathEnabled =
        t.resilience.multipathEnabled) :
    (r.orElse rest).sess.resilience.multipathEnabled =
      s.resilience.multipathEnabled := by
  unfold CtlOut.orElse
  split
  · exact first
  · exact (others _ _).trans first

theorem multipath_lockedControl :
    (lockedControl C env p s seq).sess.resilience.multipathEnabled =
      s.resilience.multipathEnabled := by
  unfold lockedControl
  apply multipath_orElse (multipath_heartbeatHandle _ _)
  intro t seq
  apply multipath_orElse (multipath_reconnectHandle _ _)
  intro t seq
  apply multipath_orElse multipath_portHopStep
  intro t seq
  apply multipath_orElse
    (congrArg Resilience.multipathEnabled (multipath_rekeyHandle C _))
  intro t seq
  rw [multipath_lockedInline]

theorem multipath_resilienceTick (r : Resilience) (now : UInt64) :
    (resilienceTick r now).multipathEnabled = r.multipathEnabled := by
  rfl

theorem multipath_heartbeatTick (buf : Option PacketBuf) (now : UInt64) :
    (heartbeatTick s buf seq now).sess.resilience.multipathEnabled =
      s.resilience.multipathEnabled := by
  unfold heartbeatTick
  split
  · rfl
  split
  · unfold heartbeatSend
    split
    · rfl
    · cases buf with
      | none => rfl
      | some buf => rfl
  · exact multipath_resilienceTick _ _

theorem multipath_reconnectTick (buf : Option PacketBuf) (now : UInt64) :
    (reconnectTick s buf seq now).sess.resilience = s.resilience := by
  have asked (t : Session) (same : t.resilience = s.resilience) :
      (reconnectSendRequest t buf seq).sess.resilience = s.resilience := by
    cases buf with
    | none => exact same
    | some buf => exact same
  unfold reconnectTick
  split
  · rfl
  split
  · rfl
  split
  · rfl
  split
  · exact asked _ rfl
  split
  · exact asked _ rfl
  · rfl

end

/-! ## The invariant -/

theorem multipathIdle_handshakeRun
    {reply : HsEnv → Session → UInt8 → UInt32 → HsOut}
    (replies :
      ∀ (t : Session) env opcode seq,
        (reply env t opcode seq).sess.resilience = t.resilience)
    (env : HsEnv) (p : PacketBuf) (seq : UInt32) (idle : s.MultipathIdle) :
    (handshakeRun C reply env s p seq).sess.MultipathIdle := by
  intro multipath
  rcases resilience_handshakeRun C (s := s) replies env p seq with
    kept | reset
  · rw [kept] at multipath
    obtain ⟨role, state⟩ := idle multipath
    obtain ⟨t, noRole, still, ran⟩ :=
      handshakeRun_unassigned C reply env p seq role state
    rw [ran]
    exact ⟨noRole, still⟩
  · rw [reset] at multipath
    cases multipath

theorem multipathIdle_move
    (s s' : Session) (move : SessionMove C s s') (idle : s.MultipathIdle) :
    s'.MultipathIdle := by
  cases move with
  | allocated _ addr =>
      exact Session.MultipathIdle.of_single rfl
  | ported _ localPort =>
      exact idle
  | opened e _ peerAddr port role state =>
      obtain ⟨sameRole, sameState⟩ := setupPaths_role e s peerAddr port
      exact fun _ => ⟨sameRole.trans role, sameState.trans state⟩
  | dialled _ key sessionId =>
      exact Session.MultipathIdle.of_single rfl
  | greeted _ buf seq =>
      cases buf with
      | none => exact idle
      | some buf => exact idle
  | reset _ =>
      exact Session.MultipathIdle.of_single rfl
  | handshake initiator env _ p seq =>
      cases initiator with
      | true =>
          exact multipathIdle_handshakeRun C
            (fun t env => resilience_initiatorReply C (s := t) env) env p seq
            idle
      | false =>
          exact multipathIdle_handshakeRun C
            (fun t env => resilience_responderReply C (s := t) env) env p seq
            idle
  | control env p _ seq locked =>
      apply Session.MultipathIdle.of_single
      rw [multipath_lockedControl]
      exact idle.of_locked locked
  | gated moved =>
      intro multipath
      rw [moved.windows.multipath] at multipath
      rw [moved.untouched.role, moved.untouched.state]
      exact idle multipath
  | checked v _ =>
      obtain ⟨hs, same⟩ := sessionEncCheck_session C v s
      rw [same]
      exact idle
  | beaten _ buf seq now =>
      by_cases locked : s.state = .locked
      · apply Session.MultipathIdle.of_single
        rw [multipath_heartbeatTick]
        exact idle.of_locked locked
      · rw [heartbeatTick, if_pos locked]
        exact idle
  | retried _ buf seq now =>
      by_cases locked : s.state = .locked
      · apply Session.MultipathIdle.of_single
        rw [multipath_reconnectTick]
        exact idle.of_locked locked
      · rw [reconnectTick, if_pos locked]
        exact idle
  | hopped _ buf seq peerAddr newPort =>
      cases buf with
      | none => exact idle
      | some buf => exact idle
  | measured _ r same =>
      intro multipath
      exact idle (same.symm.trans multipath)

/-- No session of any run has several paths when it is locked. -/
theorem singlePath_of_locked
    (config : EngineConfig) (audio video : Bool) (acts : List EngineAct)
    (i : Nat)
    (locked :
      (((transportEngineInit config audio video).run C acts).pool i).state =
        .locked) :
    (((transportEngineInit config audio video).run C acts).pool
      i).resilience.multipathEnabled = false := by
  have idle :=
    Engine.run_invariant (C := C) (P := Session.MultipathIdle)
      (Session.MultipathIdle.of_single rfl) (multipathIdle_move C) config
      audio video acts i
  exact idle.of_locked locked

/-! ## What the gate says of the two ports -/

/-- `v` is a data packet of session `s` that came from the address `addr`. -/
structure DataFrom (s : Session) (addr : Bytes) (v : PacketView) : Prop where
  channel : chAudio ≤ v.channelId ∧ v.channelId ≤ chVideo
  sessionId : v.sessionId = s.sessionId
  addr : ∃ old, v.buf.addr = overlay old addr
  addrLen : v.buf.addrLen = sockaddrIn6Size

/-- `session_check` knows both paths of the peer at `address` and `port`. -/
structure MultipathSurvives (s : Session) (address : Option Bytes)
    (port : UInt16) : Prop where
  primary :
    ∀ v, DataFrom s (resolvePeer address port) v →
      sessionCheck s v = some { v with pathIdx := 0 }
  alternative :
    ∀ v, DataFrom s (resolvePeer address (port + 2)) v →
      sessionCheck s v = some { v with pathIdx := 1 }

/-- A chat packet of session `s` from an address. -/
def chatFrom (s : Session) (addr : Bytes) : PacketView :=
  { buf :=
      { addr := overlay (zeros 32) addr
        addrLen := sockaddrIn6Size
        len := 25
        data := fun _ => 0 }
    magic := protoMagic
    version := protoVersion
    flags := 0
    sessionId := s.sessionId
    channelId := chChat
    seq := 1
    length := 1
    payload := 24
    nonce := []
    tag := []
    encrypted := false
    pathIdx := 0 }

theorem dataFrom_chatFrom (s : Session) (addr : Bytes) :
    DataFrom s addr (chatFrom s addr) :=
  ⟨show chAudio ≤ chChat ∧ chChat ≤ chVideo by decide, rfl,
    ⟨zeros 32, rfl⟩, rfl⟩

/-- With one path nothing passes on path 1. -/
theorem not_multipathSurvives_of_single
    (single : s.resilience.multipathEnabled = false) (address : Option Bytes)
    (port : UInt16) : ¬MultipathSurvives s address port := by
  intro survives
  have passes := survives.alternative _ (dataFrom_chatFrom s _)
  rcases sessionCheck_cases passes with
    ⟨control, -⟩ | ⟨-, ⟨multipath, -⟩ | ⟨-, view⟩⟩
  · exact absurd control (by simp [chatFrom, chChat, chControl])
  · rw [single] at multipath
    cases multipath
  · have index : (1 : Nat) = 0 := congrArg PacketView.pathIdx view
    cases index

/-- In no run does a session that has locked know the second port of a
peer. -/
theorem multipath_never_survives
    (config : EngineConfig) (audio video : Bool) (acts : List EngineAct)
    (i : Nat)
    (locked :
      (((transportEngineInit config audio video).run C acts).pool i).state =
        .locked)
    (address : Option Bytes) (port : UInt16) :
    ¬MultipathSurvives
      (((transportEngineInit config audio video).run C acts).pool i) address
      port :=
  not_multipathSurvives_of_single
    (singlePath_of_locked C config audio video acts i locked) address port

end

/-- Two sockets. -/
def multipathConfig : EngineConfig :=
  { sampleConfig with multipathEnabled := true, pathCount := 2 }

/-- An engine with two sockets that has connected and locked. -/
def multipathEngine : Engine :=
  (transportEngineInit multipathConfig false false).run sampleSuite
    lockingActs

theorem multipath_never_survives_sample :
    (multipathEngine.pool 0).state = .locked ∧
      ¬MultipathSurvives (multipathEngine.pool 0) sampleConnect.address
        9000 := by
  have locked : (multipathEngine.pool 0).state = .locked := by
    decide +kernel
  refine ⟨locked, ?_⟩
  unfold multipathEngine at locked ⊢
  exact
    multipath_never_survives sampleSuite multipathConfig false false
      lockingActs 0 locked sampleConnect.address 9000

/-- Connected to port 9000 and locked, the engine lets the port 9000 through
and not the port 9002. -/
theorem secondPort_refused :
    multipathEngine.socketCount = 2 ∧
      (multipathEngine.pool 0).state = .locked ∧
      (sessionCheck (multipathEngine.pool 0)
        (chatFrom (multipathEngine.pool 0)
          (resolvePeer sampleConnect.address 9000))).isSome ∧
      (sessionCheck (multipathEngine.pool 0)
        (chatFrom (multipathEngine.pool 0)
          (resolvePeer sampleConnect.address 9002))).isNone := by
  decide +kernel

end PqComm
