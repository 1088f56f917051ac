import PqComm.Engine.Handing

/-!
# What a listening engine does with strangers

A connect request reaches the user through `conn_request_handle`, which
`transport_engine_poll` calls without queues and which then does nothing.  A
connection that the user accepts gets a session without a role, for which
`session_check` lets no control packet through.  So neither a request nor the
handshake of an accepted peer has any effect, whatever arrives and however
often the engine is polled.
-/

namespace PqComm

open Lib

/-- A poll of the user, or a step of one of the threads. -/
def EngineAct.serves : EngineAct → Bool
  | .poll _ => true
  | .receive _ _ => true
  | .transmit _ => true
  | .cryptoWork => true
  | _ => false

/-! ## Connect requests -/

def Event.isConnectRequest : Event → Bool
  | .connectRequest _ _ => true
  | _ => false

section

variable (C : CryptoSuite)

/-- The event a call writes for the user. -/
def Engine.tells (e : Engine) : EngineAct → List Event
  | .poll env => (transportEnginePoll C env e).2.1.toList
  | _ => []

/-- The events the user has taken in a run, and the engine after it. -/
def Engine.listen (e : Engine) : List EngineAct → List Event × Engine
  | [] => ([], e)
  | act :: acts =>
      (e.tells C act ++ ((e.step C act).listen acts).1,
        ((e.step C act).listen acts).2)

/-- The request of `p` takes a free place of the table. -/
def Registers (before after : Engine) (p : PacketBuf)
    (username displayName : Bytes) : Prop :=
  ∃ slot time,
    slot < connRequestMaxPending ∧ before.connRequests slot = none ∧
      after.connRequests slot =
        some ⟨sin6Addr p.addr, ntohs (sinPort p.addr), username, displayName,
          time⟩

/-- Exactly one new event tells the user of the request of `p`; `events` are
those the user has taken or can still take. -/
def Announces (before : Engine) (events : List Event) (p : PacketBuf)
    (username displayName : Bytes) : Prop :=
  ∃ time time',
    events.filter Event.isConnectRequest =
      before.events.filter Event.isConnectRequest ++
        [.connectRequest time
          (some ⟨sin6Addr p.addr, ntohs (sinPort p.addr), username,
            displayName, time'⟩)]

/-- A request reaches the user when `p` is received on a path and `acts`
follow. -/
def RequestArrives (e : Engine) (path : Nat) (p : PacketBuf)
    (acts : List EngineAct) (username displayName : Bytes) : Prop :=
  let after := (e.receive path p).listen C acts
  Registers e after.2 p username displayName ∧
    Announces e (after.1 ++ after.2.events) p username displayName

/-- An engine without a session stays so, keeps its table of requests and
announces no new one. -/
structure Silent (e : Engine) (told : List Event) (e' : Engine) : Prop where
  session : e'.session = none
  requests : e'.connRequests = e.connRequests
  events :
    (told ++ e'.events).filter Event.isConnectRequest =
      e.events.filter Event.isConnectRequest

variable {e : Engine}

theorem Silent.refl (alone : e.session = none) : Silent e [] e :=
  ⟨alone, rfl, rfl⟩

theorem Engine.hand_alone
    (env : HandlerEnv) (p : PacketBuf) (source : HandSource)
    (alone : e.session = none) : Silent e [] (e.hand C env p source) := by
  have unhandled (initiator : Bool) (f : Engine) (none' : f.session = none) :
      f.handle C initiator env p = f := by
    unfold Engine.handle
    rw [none']
  unfold Engine.hand
  dsimp only
  split
  · unfold engineControlHandler
    rw [unhandled]
    · exact ⟨alone, rfl, rfl⟩
    · exact alone
  · unfold engineResponderHandler
    rw [unhandled]
    · exact ⟨alone, rfl, rfl⟩
    · exact alone

theorem Engine.takeResult_alone
    (env : HandlerEnv) (alone : e.session = none) :
    Silent e [] (e.takeResult C env) := by
  unfold Engine.takeResult
  split
  · exact Silent.refl alone
  · rename_i p source rest _
    have quiet :=
      Engine.hand_alone C env p source (e := { e with resultRing := rest })
        alone
    exact ⟨quiet.session, quiet.requests, quiet.events⟩

/-- An event other than a request is pushed. -/
theorem filter_pushEvent
    (events : List Event) {event : Event}
    (other : event.isConnectRequest = false) :
    (ringPush events event).2.filter Event.isConnectRequest =
      events.filter Event.isConnectRequest := by
  unfold ringPush
  split
  · rfl
  · simp [List.filter_append, other]

theorem Engine.dropControl_alone
    (now : UInt64) (p : PacketBuf) (alone : e.session = none) :
    Silent e [] (e.dropControl now p) := by
  unfold Engine.dropControl
  split
  · exact Silent.refl alone
  · split
    · rw [connRequestHandle_no_queue]
      exact Silent.refl alone
    · split
      · exact ⟨alone, rfl, filter_pushEvent _ rfl⟩
      · split
        · exact ⟨alone, rfl, filter_pushEvent _ rfl⟩
        · exact Silent.refl alone

theorem Engine.inbound_alone
    (env : PollEnv) (p : PacketBuf) (alone : e.session = none) :
    Silent e [] (e.inbound C env p) := by
  unfold Engine.inbound
  extract_lets pre gated
  have same :
      gated.session = none ∧ gated.connRequests = e.connRequests ∧
        gated.events = e.events := by
    simp only [gated, Engine.afterGates, alone, and_self]
  obtain ⟨session, requests, events⟩ := same
  clear_value gated
  rw [session]
  split
  · rename_i some'
    cases some'
  · split
    · have quiet := Engine.dropControl_alone env.now p session
      exact ⟨quiet.session, quiet.requests.trans requests,
        by rw [quiet.events, events]⟩
    · exact ⟨session, requests, by rw [events]; rfl⟩

theorem Engine.ticks_alone (env : PollEnv) (alone : e.session = none) :
    e.ticks C env = e.tickLoop := by
  have looped : e.tickLoop.session = none := alone
  simp only [Engine.ticks, Engine.tickAbr, Engine.tickSession,
    Engine.tickDecoy, Engine.tickAudio, Engine.tickVideo, Engine.tickFile,
    looped]

theorem Silent.poll (env : PollEnv) (alone : e.session = none) :
    Silent e (e.tells C (.poll env)) (e.step C (.poll env)) := by
  change Silent e (transportEnginePoll C env e).2.1.toList
    (transportEnginePoll C env e).2.2
  unfold transportEnginePoll
  split
  · rename_i event rest pending
    exact ⟨alone, rfl, by rw [pending]; rfl⟩
  · have taken := Engine.takeResult_alone C env.result alone
    dsimp only
    generalize e.takeResult C env.result = f at taken
    split
    · split
      · exact taken
      · rename_i i _ _ p rest _
        have quiet :=
          Engine.inbound_alone C env p
            (e := { f with rxRings := Function.update f.rxRings i rest })
            taken.session
        exact ⟨quiet.session, quiet.requests.trans taken.requests,
          quiet.events.trans taken.events⟩
    · rw [Engine.ticks_alone C env taken.session]
      exact ⟨taken.session, taken.requests, taken.events⟩

theorem Silent.cryptoWork (alone : e.session = none) :
    Silent e [] (e.cryptoWork C) := by
  unfold Engine.cryptoWork
  split
  · exact Silent.refl alone
  · dsimp only
    split
    · exact ⟨alone, rfl, rfl⟩
    · split
      · exact ⟨alone, rfl, rfl⟩
      · split
        · exact ⟨alone, rfl, rfl⟩
        · exact ⟨alone, rfl, rfl⟩

theorem Silent.step
    (alone : e.session = none) {act : EngineAct} (serves : act.serves = true) :
    Silent e (e.tells C act) (e.step C act) := by
  cases act with
  | poll env =>
      exact Silent.poll C env alone
  | receive path p =>
      exact ⟨alone, rfl, rfl⟩
  | transmit path =>
      change Silent e [] (e.transmit path)
      unfold Engine.transmit
      split
      · exact Silent.refl alone
      · exact ⟨alone, rfl, rfl⟩
  | cryptoWork =>
      exact Silent.cryptoWork C alone
  | _ =>
      cases serves

theorem Silent.listen
    (alone : e.session = none) {acts : List EngineAct}
    (serve : ∀ act ∈ acts, act.serves = true) :
    Silent e (e.listen C acts).1 (e.listen C acts).2 := by
  induction acts generalizing e with
  | nil =>
      exact Silent.refl alone
  | cons act acts hypothesis =>
      have first :=
        Silent.step C alone (serve act List.mem_cons_self)
      have rest :=
        hypothesis first.session
          fun act member => serve act (List.mem_cons_of_mem _ member)
      refine ⟨rest.session, rest.requests.trans first.requests, ?_⟩
      change ((e.tells C act ++ ((e.step C act).listen C acts).1) ++
        ((e.step C act).listen C acts).2.events).filter _ = _
      rw [List.append_assoc, List.filter_append, rest.events,
        ← List.filter_append, first.events]

theorem Silent.no_request
    {told : List Event} {e' : Engine} (silent : Silent e told e')
    (p : PacketBuf) (username displayName : Bytes) :
    ¬ Registers e e' p username displayName ∧
      ¬ Announces e (told ++ e'.events) p username displayName := by
  constructor
  · rintro ⟨slot, time, -, free, taken⟩
    rw [silent.requests, free] at taken
    cases taken
  · rintro ⟨time, time', announced⟩
    rw [silent.events] at announced
    exact absurd announced (by simp)

/-- A packet that arrives at an engine without a session registers nothing
and announces nothing, whatever the threads and the user do next. -/
theorem connect_request_never_arrives
    (e : Engine) (alone : e.session = none) (path : Nat) (p : PacketBuf)
    (acts : List EngineAct) (serve : ∀ act ∈ acts, act.serves = true)
    (username displayName : Bytes) :
    ¬ RequestArrives C e path p acts username displayName := by
  have received : (e.receive path p).session = none := alone
  have silent := Silent.listen C received serve
  have nothing :=
    (⟨silent.session, silent.requests, silent.events⟩ :
      Silent e _ _).no_request p username displayName
  exact fun arrives => nothing.1 arrives.1

end

/-- An engine that has just started to listen. -/
def listeningEngine : Engine :=
  (transportEngineStartListener
    (transportEngineInit sampleConfig false false)).2

def sampleUsername : Bytes := asciiBytes ['b', 'o', 'b']

def sampleDisplayName : Bytes := asciiBytes ['B', 'o', 'b']

def sampleRequest : Option PacketBuf :=
  (connRequestBuild sessionInit (some default) 1 sampleUsername
    sampleDisplayName).out

/-- The request as it comes in from its sender. -/
def knock : PacketBuf :=
  (sampleRequest.getD default).setAddr
    (resolvePeer sampleConnect.address 9000) sockaddrIn6Size

theorem connect_request_never_arrives_knock :
    listeningEngine.session = none ∧
      ¬ RequestArrives sampleSuite listeningEngine 0 knock [.poll samplePoll]
        sampleUsername sampleDisplayName :=
  ⟨rfl,
    connect_request_never_arrives sampleSuite listeningEngine rfl 0 knock
      [.poll samplePoll] (by decide) sampleUsername sampleDisplayName⟩

/-- A request to a listening engine with an empty table is lost in the poll
that takes it from the ring. -/
theorem knock_is_lost :
    ¬ ∀ (e : Engine) (s : Session) (buf p : PacketBuf) (seq : UInt32)
        (username displayName addr : Bytes) (polls : List PollEnv),
      e.initialized = true → e.roleInitiator = false → e.session = none →
      e.connRequests.free.isSome = true → seq ≠ 0 →
      username.length ≤ 31 → displayName.length ≤ 63 →
      (connRequestBuild s (some buf) seq username displayName).out = some p →
      ((e.receive 0 (p.setAddr addr sockaddrIn6Size)).run sampleSuite
        (polls.map .poll)).rxRing = none →
      RequestArrives sampleSuite e 0 (p.setAddr addr sockaddrIn6Size)
        (polls.map .poll) username displayName := by
  intro arrives
  have reached :=
    arrives listeningEngine sessionInit default (sampleRequest.getD default)
      1 sampleUsername sampleDisplayName
      (resolvePeer sampleConnect.address 9000) [samplePoll] rfl rfl rfl
      (by decide) (by decide) (by decide) (by decide) rfl (by decide +kernel)
  have alone : (listeningEngine.receive 0 knock).session = none := rfl
  have silent :
      Silent _ _
        ((listeningEngine.receive 0 knock).listen sampleSuite
          [.poll samplePoll]).2 :=
    Silent.listen sampleSuite alone (by decide)
  exact (silent.no_request knock sampleUsername sampleDisplayName).1
    reached.1

/-! ## The handshake after an accepted connection -/

/-- The answers to the messages of a handshake. -/
def Engine.answers (e : Engine) : List TxItem :=
  e.enqueued.filter fun item => item.origin == .handshake

/-- Each of the three messages of an initiator was answered, and the engine
has a locked session. -/
structure SessionEstablished (before after : Engine) : Prop where
  answered : before.answers.length + 3 ≤ after.answers.length
  locked : ∃ i, after.session = some i ∧ (after.pool i).state = .locked
  flag : after.sessionIsLocked = true

/-- The session of the engine has no role. -/
structure Unserved (e : Engine) (i : Nat) : Prop where
  session : e.session = some i
  role : (e.pool i).role = .unassigned
  state : (e.pool i).state = .idle
  flag : e.sessionIsLocked = false

/-- The engine stays so and answers nothing. -/
structure StaysUnserved (e e' : Engine) (i : Nat) : Prop
    extends Unserved e' i where
  answers : e'.answers = e.answers

section

variable (C : CryptoSuite) {e : Engine} {i : Nat}

theorem Unserved.refl (unserved : Unserved e i) : StaysUnserved e e i :=
  { unserved with answers := rfl }

theorem StaysUnserved.trans
    {f g : Engine} (first : StaysUnserved e f i)
    (second : StaysUnserved f g i) : StaysUnserved e g i :=
  { second with answers := second.answers.trans first.answers }

/-- The gates let nothing through to a session without a role. -/
theorem preCrypto_unassigned
    (env : InboundEnv) (filters : Filters) {s : Session} (p : PacketBuf)
    (role : s.role = .unassigned) (state : s.state = .idle) :
    (pipelineInboundPreCrypto env filters (some s) p).view = none ∧
      (pipelineInboundPreCrypto env filters (some s) p).sess = some s := by
  have refused (v : PacketView) : sessionCheck s v = none := by
    unfold sessionCheck
    simp [controlExpected, role, state]
  unfold pipelineInboundPreCrypto
  split
  · exact ⟨rfl, rfl⟩
  · dsimp only
    split
    · exact ⟨rfl, rfl⟩
    · split
      · exact ⟨rfl, rfl⟩
      · split
        · exact ⟨rfl, rfl⟩
        · split
          · exact ⟨rfl, rfl⟩
          · rw [refused]
            exact ⟨rfl, rfl⟩

theorem Unserved.pushEvent (unserved : Unserved e i) (event : Event) :
    StaysUnserved e (e.pushEvent event) i :=
  { unserved with answers := rfl }

theorem Unserved.dropControl
    (unserved : Unserved e i) (now : UInt64) (p : PacketBuf) :
    StaysUnserved e (e.dropControl now p) i := by
  unfold Engine.dropControl
  split
  · exact unserved.refl
  · split
    · rw [connRequestHandle_no_queue]
      exact unserved.refl
    · split
      · exact unserved.pushEvent _
      · split
        · exact unserved.pushEvent _
        · exact unserved.refl

theorem Unserved.inbound
    (unserved : Unserved e i) (env : PollEnv) (p : PacketBuf) :
    StaysUnserved e (e.inbound C env p) i := by
  obtain ⟨view, sess⟩ :=
    preCrypto_unassigned env.inbound e.filters p unserved.role unserved.state
  unfold Engine.inbound
  rw [unserved.session, Option.map_some]
  generalize
    pipelineInboundPreCrypto env.inbound e.filters (some (e.pool i)) p = pre
    at view sess
  have gated : StaysUnserved e (e.afterGates pre) i := by
    unfold Engine.afterGates
    rw [unserved.session, sess]
    have same : Function.update e.pool i (e.pool i) = e.pool :=
      Function.update_eq_self i e.pool
    simp only [Engine.setSession, same]
    exact { unserved with answers := rfl }
  dsimp only
  rw [view]
  dsimp only
  split
  · exact gated.trans (gated.toUnserved.dropControl env.now p)
  · exact gated

/-- A function that leaves the session without a role and sends nothing. -/
theorem Unserved.commit
    (unserved : Unserved e i) (origin : Origin) {s : Session} (seq : UInt32)
    (role : s.role = .unassigned) (state : s.state = .idle) :
    StaysUnserved e (e.commit origin i s seq none) i where
  session := unserved.session
  role := by
    change (Function.update e.pool i s i).role = _
    rw [Function.update_self]
    exact role
  state := by
    change (Function.update e.pool i s i).state = _
    rw [Function.update_self]
    exact state
  flag := unserved.flag
  answers := rfl

theorem Unserved.tickAbr (unserved : Unserved e i) (now : UInt64) :
    StaysUnserved e (e.tickAbr now) i := by
  unfold Engine.tickAbr
  rw [unserved.session]
  dsimp only
  split
  · have kept :=
      unserved.commit .control (s :=
        { e.pool i with
          resilience := (abrUpdate e.abr (e.pool i).resilience now).2 })
        e.seqCounter unserved.role unserved.state
    exact { kept with answers := rfl }
  · exact unserved.refl

/-- Heartbeats and reconnects are for locked sessions. -/
theorem Unserved.tickSession (unserved : Unserved e i) (env : PollEnv) :
    StaysUnserved e (e.tickSession env) i := by
  have unlocked : ∀ s : Session, s.state = .idle → s.state ≠ .locked := by
    intro s idle locked
    rw [idle] at locked
    cases locked
  unfold Engine.tickSession
  rw [unserved.session]
  dsimp only
  split
  · have beat :
        heartbeatTick (e.pool i) env.heartbeatBuf e.seqCounter env.now =
          { ret := 0, sess := e.pool i, seq := e.seqCounter } :=
      if_pos (unlocked _ unserved.state)
    rw [beat]
    have first :=
      unserved.commit .control e.seqCounter unserved.role unserved.state
    generalize e.commit .control i (e.pool i) e.seqCounter none = f at first
    have retry :
        reconnectTick (f.pool i) env.reconnectBuf f.seqCounter env.now =
          { ret := 0, sess := f.pool i, seq := f.seqCounter } :=
      if_pos (unlocked _ first.state)
    rw [retry]
    exact first.trans
      (first.toUnserved.commit .control f.seqCounter first.role first.state)
  · exact unserved.refl

/-- The other periodic work is for locked sessions too. -/
theorem Unserved.ticks (unserved : Unserved e i) (env : PollEnv) :
    StaysUnserved e (e.ticks C env) i := by
  have looped : StaysUnserved e e.tickLoop i :=
    { unserved with answers := rfl }
  have rated := looped.trans (looped.toUnserved.tickAbr env.now)
  have kept := rated.trans (rated.toUnserved.tickSession env)
  unfold Engine.ticks
  generalize ((e.tickLoop).tickAbr env.now).tickSession env = f at kept
  have decoy : f.tickDecoy env = f := by
    unfold Engine.tickDecoy
    split
    · simp [kept.flag]
    · rfl
  have audio : f.tickAudio C env = f := by
    unfold Engine.tickAudio
    rw [kept.session]
    simp [kept.flag]
  have video : f.tickVideo C env = f := by
    unfold Engine.tickVideo
    rw [kept.session]
    simp [kept.flag]
  have file : f.tickFile C env = f := by
    unfold Engine.tickFile
    split
    · simp [kept.flag]
    · rfl
  rw [decoy, audio, video, file]
  exact kept

/-- A message of the handshake resets a session without a role, which then
has none either. -/
theorem handshakeRun_unassigned
    (reply : HsEnv → Session → UInt8 → UInt32 → HsOut) (env : HsEnv)
    {s : Session} (p : PacketBuf) (seq : UInt32)
    (role : s.role = .unassigned) (state : s.state = .idle) :
    ∃ t : Session, t.role = .unassigned ∧ t.state = .idle ∧
      handshakeRun C reply env s p seq = { sess := t, seq := seq } := by
  rw [handshakeRun_eq]
  cases packetParse p with
  | none =>
      exact ⟨s, role, state, rfl⟩
  | some v =>
      have failed := processPayload_unassigned C role state v.payloadBytes
      refine
        ⟨sessionReset (processPayload C s v.payloadBytes).1, rfl, rfl, ?_⟩
      dsimp only [feed]
      rw [failed]

theorem Unserved.handleHandshake
    (unserved : Unserved e i) (initiator : Bool) (env : HandlerEnv)
    (p : PacketBuf) :
    StaysUnserved e (e.handleHandshake C initiator env i p) i := by
  obtain ⟨s, role, state, ran⟩ :
      ∃ s : Session, s.role = .unassigned ∧ s.state = .idle ∧
        (if initiator then
          handshakeRunAsInitiator C env.hs (e.pool i) p e.seqCounter
        else
          handshakeRunAsResponder C env.hs (e.pool i) p e.seqCounter) =
            { sess := s, seq := e.seqCounter } := by
    cases initiator with
    | true =>
        exact handshakeRun_unassigned C (initiatorReply C) env.hs p
          e.seqCounter unserved.role unserved.state
    | false =>
        exact handshakeRun_unassigned C (responderReply C) env.hs p
          e.seqCounter unserved.role unserved.state
  unfold Engine.handleHandshake
  rw [ran]
  have unlocked :
      ¬ (s.state = .locked ∧
        !(e.commit .handshake i s e.seqCounter none).sessionIsLocked) := by
    rintro ⟨locked, -⟩
    rw [state] at locked
    cases locked
  dsimp only [Option.map_none]
  rw [if_neg unlocked]
  exact unserved.commit .handshake e.seqCounter role state

theorem Unserved.handle
    (unserved : Unserved e i) (initiator : Bool) (env : HandlerEnv)
    (p : PacketBuf) : StaysUnserved e (e.handle C initiator env p) i := by
  have unlocked : (e.pool i).state ≠ .locked := by
    rw [unserved.state]
    exact nofun
  unfold Engine.handle
  rw [unserved.session]
  cases packetParse p with
  | none =>
      exact unserved.refl
  | some v =>
      dsimp only
      split
      · unfold Engine.handleData
        rw [if_pos unlocked]
        exact unserved.refl
      · unfold Engine.handleControl
        rw [if_neg unlocked]
        exact unserved.handleHandshake C initiator env p

theorem Unserved.hand
    (unserved : Unserved e i) (env : HandlerEnv) (p : PacketBuf)
    (source : HandSource) : StaysUnserved e (e.hand C env p source) i := by
  unfold Engine.hand
  extract_lets record logged
  have same : Unserved logged i := { unserved with }
  split
  · exact { same.handle C true env p with }
  · exact { same.handle C false env p with }

theorem Unserved.takeResult
    (unserved : Unserved e i) (env : HandlerEnv) :
    StaysUnserved e (e.takeResult C env) i := by
  unfold Engine.takeResult
  split
  · exact unserved.refl
  · rename_i p source rest _
    have popped : Unserved { e with resultRing := rest } i :=
      { unserved with }
    exact { popped.hand C env p source with }

/-- The crypto worker does nothing to a session that is not locked. -/
theorem Unserved.cryptoWork (unserved : Unserved e i) :
    StaysUnserved e (e.cryptoWork C) i := by
  unfold Engine.cryptoWork
  split
  · exact unserved.refl
  · rename_i job rest _
    dsimp only
    split
    · exact { unserved with answers := rfl }
    · rename_i view _
      split
      · exact { unserved with answers := rfl }
      · have kept :
            ((Function.update e.pool job.sess
              (sessionEncCheck C view (e.pool job.sess)).1) i).role =
                .unassigned ∧
              ((Function.update e.pool job.sess
                (sessionEncCheck C view (e.pool job.sess)).1) i).state =
                  .idle := by
          by_cases mine : i = job.sess
          · subst mine
            rw [Function.update_self]
            have unlocked : (e.pool job.sess).state ≠ .locked := by
              rw [unserved.state]
              exact nofun
            rw [sessionEncCheck, if_pos unlocked]
            exact ⟨unserved.role, unserved.state⟩
          · rw [Function.update_of_ne mine]
            exact ⟨unserved.role, unserved.state⟩
        split
        · exact ⟨⟨unserved.session, kept.1, kept.2, unserved.flag⟩, rfl⟩
        · exact ⟨⟨unserved.session, kept.1, kept.2, unserved.flag⟩, rfl⟩

theorem Unserved.poll (unserved : Unserved e i) (env : PollEnv) :
    StaysUnserved e (transportEnginePoll C env e).2.2 i := by
  unfold transportEnginePoll
  split
  · exact { unserved with answers := rfl }
  · have taken := unserved.takeResult C env.result
    dsimp only
    generalize e.takeResult C env.result = f at taken
    split
    · split
      · exact taken
      · rename_i path _ _ p rest _
        have popped :
            Unserved
              { f with rxRings := Function.update f.rxRings path rest } i :=
          { taken.toUnserved with }
        have handled := popped.inbound C env p
        exact { handled with answers := handled.answers.trans taken.answers }
    · exact taken.trans (taken.toUnserved.ticks C env)

theorem Unserved.step
    (unserved : Unserved e i) {act : EngineAct}
    (serves : act.serves = true) : StaysUnserved e (e.step C act) i := by
  cases act with
  | poll env =>
      exact unserved.poll C env
  | receive path p =>
      exact { unserved with answers := rfl }
  | transmit path =>
      change StaysUnserved e (e.transmit path) i
      unfold Engine.transmit
      split
      · exact unserved.refl
      · exact { unserved with answers := rfl }
  | cryptoWork =>
      exact unserved.cryptoWork C
  | _ =>
      cases serves

theorem Unserved.run
    (unserved : Unserved e i) {acts : List EngineAct}
    (serve : ∀ act ∈ acts, act.serves = true) :
    StaysUnserved e (e.run C acts) i := by
  induction acts generalizing e with
  | nil =>
      exact unserved.refl
  | cons act acts hypothesis =>
      have first := unserved.step C (serve act List.mem_cons_self)
      exact first.trans
        (hypothesis first.toUnserved
          fun act member => serve act (List.mem_cons_of_mem _ member))

/-! ### `transport_engine_accept_connection` -/

theorem setupPaths_role
    (e : Engine) (s : Session) (peerAddr : Bytes) (port : UInt16) :
    (e.setupPaths s peerAddr port).role = s.role ∧
      (e.setupPaths s peerAddr port).state = s.state := by
  have registered (addr : Bytes) :
      (sessionRegisterPath s 1 addr).role = s.role ∧
        (sessionRegisterPath s 1 addr).state = s.state := by
    unfold sessionRegisterPath
    split
    · exact ⟨rfl, rfl⟩
    · exact ⟨rfl, rfl⟩
  unfold Engine.setupPaths
  split
  · exact registered _
  · exact ⟨rfl, rfl⟩

theorem connRequestSendAccept_sess
    (s : Session) (buf : Option PacketBuf) (seq : UInt32) (addr : Bytes) :
    (connRequestSendAccept s buf seq addr).sess = s := by
  unfold connRequestSendAccept connRequestReply
  cases buf with
  | none => rfl
  | some buf => rfl

/-- A new session goes into slot `i` without a role. -/
theorem unserved_commit
    (e : Engine) {s : Session} (seq : UInt32) (out : Option PacketBuf)
    (session : e.session = some i) (flag : e.sessionIsLocked = false)
    (role : s.role = .unassigned) (state : s.state = .idle) :
    Unserved (e.commit .control i s seq out) i where
  session := (frame_commit e .control i s seq out).session.trans session
  role := by
    rw [Engine.commit_pool, Function.update_self]
    exact role
  state := by
    rw [Engine.commit_pool, Function.update_self]
    exact state
  flag := by
    cases out with
    | none => exact flag
    | some p => exact flag

/-- The session of an accepted connection has no role. -/
theorem unserved_acceptConnection
    {address : Option Bytes} {port : UInt16} {buf : Option PacketBuf}
    {e' : Engine}
    (accepted :
      transportEngineAcceptConnection address port buf e = (0, e')) :
    ∃ i, Unserved e' i := by
  unfold transportEngineAcceptConnection at accepted
  split at accepted
  · cases accepted
  · dsimp only at accepted
    unfold Engine.sessionAlloc at accepted
    split at accepted
    · cases accepted
    · rename_i i f allocated
      split at allocated
      · cases allocated
      · obtain ⟨rfl, rfl⟩ := Prod.mk.inj (Option.some.inj allocated)
        rw [← (Prod.mk.inj accepted).2]
        refine ⟨e.sessionCount, unserved_commit _ _ _ rfl rfl ?_ ?_⟩
        · rw [connRequestSendAccept_sess, (setupPaths_role _ _ _ _).1]
          simp [Engine.setSession, sessionInit]
        · rw [connRequestSendAccept_sess, (setupPaths_role _ _ _ _).2]
          simp [Engine.setSession, sessionInit]

theorem StaysUnserved.not_established
    {e' : Engine} (stays : StaysUnserved e e' i) :
    ¬ SessionEstablished e e' := by
  intro established
  have flag := established.flag
  rw [stays.flag] at flag
  cases flag

/-- After an accepted connection no packet, in particular no message of an
initiator, leads to a locked session. -/
theorem accepted_connection_never_locks
    (address : Option Bytes) (port : UInt16) (buf : Option PacketBuf)
    (e e' : Engine)
    (accepted : transportEngineAcceptConnection address port buf e = (0, e'))
    (acts : List EngineAct) (serve : ∀ act ∈ acts, act.serves = true) :
    ¬ SessionEstablished e' (e'.run C acts) := by
  obtain ⟨i, unserved⟩ := unserved_acceptConnection accepted
  exact (unserved.run C serve).not_established

end

/-- Packets from an address come in one by one, with a poll after each. -/
def deliverEach (addr : Bytes) (env : PollEnv) (messages : List PacketBuf) :
    List EngineAct :=
  messages.flatMap fun p =>
    [.receive 0 (p.setAddr addr sockaddrIn6Size), .poll env]

theorem serves_deliverEach
    (addr : Bytes) (env : PollEnv) (messages : List PacketBuf) :
    ∀ act ∈ deliverEach addr env messages, act.serves = true := by
  intro act member
  obtain ⟨p, -, here⟩ := List.mem_flatMap.mp member
  simp only [List.mem_cons, List.not_mem_nil, or_false] at here
  rcases here with rfl | rfl
  · rfl
  · rfl

/-- The sample handshake up to the IDENTITY_PROOF of the initiator. -/
def sampleDeliveries : List Delivery :=
  relay sampleSuite .responder (sampleSetup.start sampleSuite)
    (List.replicate 4 sampleEnv)

/-- What the sample initiator sends in its handshake. -/
def sampleMessages : List PacketBuf :=
  ((sampleSetup.start sampleSuite).run sampleSuite sampleDeliveries).iniSent

def acceptingEngine : Engine :=
  (transportEngineAcceptConnection sampleConnect.address 9000 (some default)
    (transportEngineInit sampleConfig false false)).2

theorem accepted_connection_never_locks_sample :
    ¬ SessionEstablished acceptingEngine
        (acceptingEngine.run sampleSuite
          (deliverEach (resolvePeer sampleConnect.address 9000) samplePoll
            sampleMessages)) :=
  accepted_connection_never_locks sampleSuite sampleConnect.address 9000
    (some default) (transportEngineInit sampleConfig false false)
    acceptingEngine rfl _ (serves_deliverEach _ _ _)

/-- The three messages of an honest initiator, in order. -/
theorem honest_handshake_ignored :
    ¬ ∀ (e e' : Engine) (address : Option Bytes) (port : UInt16)
        (buf : Option PacketBuf) (setup : HsSetup) (ds : List Delivery)
        (env : PollEnv),
      transportEngineAcceptConnection address port buf e = (0, e') →
      (setup.start sampleSuite).Genuine sampleSuite ds → setup.iniSeq ≠ 0 →
      ((setup.start sampleSuite).run sampleSuite ds).iniSent.map
          PacketBuf.opcode =
        [ctrlHello, ctrlPqKemInit, ctrlIdentityProof] →
      SessionEstablished e'
        (e'.run sampleSuite
          (deliverEach (resolvePeer address port) env
            ((setup.start sampleSuite).run sampleSuite ds).iniSent)) := by
  intro establishes
  have accepted :
      transportEngineAcceptConnection sampleConnect.address 9000
          (some default) (transportEngineInit sampleConfig false false) =
        (0, acceptingEngine) :=
    rfl
  have reached :=
    establishes _ _ _ _ _ sampleSetup sampleDeliveries samplePoll accepted
      (relay_genuine _ _ _ _) (by decide) (by decide +kernel)
  obtain ⟨i, unserved⟩ := unserved_acceptConnection accepted
  exact (unserved.run sampleSuite
    (serves_deliverEach _ _ _)).not_established reached

end PqComm
