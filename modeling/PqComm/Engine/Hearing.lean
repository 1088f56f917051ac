import PqComm.Engine.LockStability
import PqComm.Engine.PathTimeouts
import PqComm.Pipeline.Replay

/-!
# What packets do to the clocks of the paths

A packet never makes a path look older or worse: each function that takes one
leaves the times of the paths or sets them to the present, and leaves their
states or sets them to ACTIVE.  A PORT_HOP is the exception, since it adds a
path that nobody has heard on.
-/

namespace PqComm

open Lib

/-- The path is not one that silence has got at. -/
def PathState.Fine (state : PathState) : Prop :=
  state = .active ∨ state = .unknown

/-- Nothing but the receipt of packets is noted on the paths. -/
structure HearsAt (now : UInt64) (s s' : Session) : Prop where
  state : s'.state = s.state
  timing : SameTiming s.resilience s'.resilience
  beaten : s'.resilience.lastHeartbeatMs = s.resilience.lastHeartbeatMs
  fine :
    ∀ i, (s.resilience.paths i).state.Fine →
      (s'.resilience.paths i).state.Fine
  heard :
    ∀ i,
      (s'.resilience.paths i).lastActivityMs =
          (s.resilience.paths i).lastActivityMs ∨
        (s'.resilience.paths i).lastActivityMs = now

section

variable {now : UInt64} {s t u : Session} {p : PacketBuf}

theorem HearsAt.of_resilience
    (state : t.state = s.state) (same : t.resilience = s.resilience) :
    HearsAt now s t where
  state := state
  timing := by
    rw [same]
    exact SameTiming.refl s.resilience
  beaten := by rw [same]
  fine i fine := by rwa [same]
  heard i := Or.inl (by rw [same])

theorem HearsAt.refl (s : Session) : HearsAt now s s :=
  HearsAt.of_resilience rfl rfl

theorem HearsAt.trans (first : HearsAt now s t) (second : HearsAt now t u) :
    HearsAt now s u where
  state := second.state.trans first.state
  timing := first.timing.trans second.timing
  beaten := second.beaten.trans first.beaten
  fine i fine := second.fine i (first.fine i fine)
  heard i := by
    rcases second.heard i with kept | heard
    · rw [kept]
      exact first.heard i
    · exact Or.inr heard

theorem HearsAt.of_samePaths
    (state : t.state = s.state)
    (same : SamePaths s.resilience t.resilience) : HearsAt now s t where
  state := state
  timing := same.toSameTiming
  beaten := same.lastHeartbeat
  fine i fine := by rwa [same.paths]
  heard i := Or.inl (by rw [same.paths])

/-- All paths are heard of, and change their state to ACTIVE at most. -/
theorem HearsAt.of_setPaths
    {change : PathMetrics → PathMetrics} (state : t.state = s.state)
    (timing : SameTiming s.resilience t.resilience)
    (beaten : t.resilience.lastHeartbeatMs = s.resilience.lastHeartbeatMs)
    (paths : t.resilience.paths = (s.resilience.setPaths change).paths)
    (fine : ∀ path, path.state.Fine → (change path).state.Fine)
    (heard : ∀ path, (change path).lastActivityMs = now) :
    HearsAt now s t where
  state := state
  timing := timing
  beaten := beaten
  fine i was := by
    rw [paths]
    unfold Resilience.setPaths
    dsimp only
    split
    · exact fine _ was
    · exact was
  heard i := by
    rw [paths]
    unfold Resilience.setPaths
    dsimp only
    split
    · exact Or.inr (heard _)
    · exact Or.inl rfl

theorem hearsAt_heardHeartbeat : HearsAt now s (s.heardHeartbeat now) := by
  apply HearsAt.of_setPaths
  · rfl
  · exact ⟨rfl, rfl, rfl⟩
  · rfl
  · rfl
  · exact fun _ fine => fine
  · exact fun _ => rfl

theorem hearsAt_reached : HearsAt now s (s.reached now) := by
  apply HearsAt.of_setPaths
  · rfl
  · exact ⟨rfl, rfl, rfl⟩
  · rfl
  · rfl
  · exact fun _ _ => Or.inl rfl
  · exact fun _ => rfl

/-- A heartbeat message sets the time of all paths. -/
theorem heartbeatHandle_sess
    (p : PacketBuf) (s : Session) (buf : Option PacketBuf) (seq : UInt32)
    (now : UInt64) :
    (heartbeatHandle p s buf seq now).sess =
      if p.IsHeartbeat then s.heardHeartbeat now else s :=
  PathSide.step_heartbeat ⟨s, seq⟩ now 0 p buf

theorem hearsAt_heartbeatHandle (buf : Option PacketBuf) (seq : UInt32) :
    HearsAt now s (heartbeatHandle p s buf seq now).sess := by
  rw [heartbeatHandle_sess]
  split
  · exact hearsAt_heardHeartbeat
  · exact HearsAt.refl s

theorem hearsAt_reconnectHandle (buf : Option PacketBuf) (seq : UInt32) :
    HearsAt now s (reconnectHandle p s buf seq now).sess := by
  unfold reconnectHandle
  split
  · exact HearsAt.refl s
  · split
    · split
      · exact HearsAt.refl s
      · cases buf with
        | none =>
            exact hearsAt_reached
        | some buf =>
            exact hearsAt_reached
    · split
      · split
        · exact HearsAt.refl s
        · exact hearsAt_reached
      · exact HearsAt.refl s

theorem hearsAt_portHopStep
    (other : p.opcode ≠ ctrlPortHop) (env : HandlerEnv) (seq : UInt32) :
    HearsAt now s (portHopStep env p s seq).sess := by
  have idle : (portHopHandle p s).2 = s ∧ (portHopHandle p s).1 ≠ 1 := by
    have quiet (ret : Int) (not : ret ≠ 1) :
        ((ret, s) : Int × Session).2 = s ∧
          ((ret, s) : Int × Session).1 ≠ 1 :=
      ⟨rfl, not⟩
    unfold portHopHandle
    rw [if_neg other]
    split
    · exact quiet 0 (by decide)
    · split
      · split
        · exact quiet (-1) (by decide)
        · exact quiet 2 (by decide)
      · exact quiet 0 (by decide)
  unfold portHopStep
  dsimp only
  rw [if_neg idle.2]
  exact HearsAt.of_resilience (congrArg Session.state idle.1)
    (congrArg Session.resilience idle.1)

theorem hearsAt_rekeyHandle
    (C : CryptoSuite) (env : RekeyEnv) (seq : UInt32) :
    HearsAt now s (rekeyHandle C env p s seq).sess := by
  have cases' := rekeyHandle_cases C env p s seq
  generalize rekeyHandle C env p s seq = r at cases'
  cases cases' with
  | ignored => exact HearsAt.refl s
  | switched => exact HearsAt.of_resilience rfl rfl
  | confirmed => exact HearsAt.of_resilience rfl rfl

/-- One function, then the rest of the handler. -/
theorem HearsAt.orElse
    {r : CtlOut} {rest : Session → UInt32 → LockedOut}
    (first : HearsAt now s r.sess)
    (second : HearsAt now r.sess (rest r.sess r.seq).sess) :
    HearsAt now s (r.orElse rest).sess := by
  apply CtlOut.orElse_cases (P := fun out => HearsAt now s out.sess)
  · exact fun _ => first
  · exact fun _ => first.trans second

/-- What comes after `heartbeat_handle`. -/
theorem hearsAt_afterHeartbeat
    (C : CryptoSuite) (other : p.opcode ≠ ctrlPortHop) (env : HandlerEnv)
    (s : Session) (seq : UInt32) :
    HearsAt env.now s
      ((reconnectHandle p s env.reconnectBuf seq env.now).orElse
        fun s seq => (portHopStep env p s seq).orElse fun s seq =>
          (rekeyHandle C env.rekey p s seq).orElse fun s seq =>
            lockedInline env p s seq).sess := by
  apply HearsAt.orElse
  · exact hearsAt_reconnectHandle _ _
  · apply HearsAt.orElse
    · exact hearsAt_portHopStep other env _
    · apply HearsAt.orElse
      · exact hearsAt_rekeyHandle C _ _
      · rw [lockedInline_sess]
        exact HearsAt.refl _

theorem hearsAt_lockedControl
    (C : CryptoSuite) (other : p.opcode ≠ ctrlPortHop) (env : HandlerEnv)
    (seq : UInt32) :
    HearsAt env.now s (lockedControl C env p s seq).sess := by
  unfold lockedControl
  apply HearsAt.orElse
  · exact hearsAt_heartbeatHandle _ _
  · exact hearsAt_afterHeartbeat C other env _ _

theorem PacketBuf.IsHeartbeat.not_hop
    {p : PacketBuf} (beat : p.IsHeartbeat) : p.opcode ≠ ctrlPortHop := by
  rcases beat.2 with ⟨heartbeat, -⟩ | ack
  · rw [heartbeat]
    decide
  · rw [ack]
    decide

/-- A heartbeat message is a sign of life on every path. -/
theorem heard_lockedControl
    (C : CryptoSuite) (beat : p.IsHeartbeat) (env : HandlerEnv)
    (seq : UInt32) {i : Nat} (inside : i < s.resilience.pathCount) :
    ((lockedControl C env p s seq).sess.resilience.paths i).lastActivityMs =
      env.now := by
  have first :
      ((heartbeatHandle p s env.heartbeatBuf seq
        env.now).sess.resilience.paths i).lastActivityMs = env.now := by
    rw [heartbeatHandle_sess, if_pos beat]
    change (if i < _ then _ else _ : PathMetrics).lastActivityMs = env.now
    rw [if_pos inside]
  unfold lockedControl
  apply CtlOut.orElse_cases
    (P := fun r => (r.sess.resilience.paths i).lastActivityMs = env.now)
  · exact fun _ => first
  · intro _
    have rest :=
      hearsAt_afterHeartbeat C beat.not_hop env
        (heartbeatHandle p s env.heartbeatBuf seq env.now).sess
        (heartbeatHandle p s env.heartbeatBuf seq env.now).seq
    rcases rest.heard i with kept | heard
    · exact kept.trans first
    · exact heard

theorem hearsAt_resilienceRecordRx (idx : Nat) (rtt : UInt64) :
    HearsAt now s
      { s with resilience := resilienceRecordRx s.resilience idx rtt } where
  state := rfl
  timing := sameTiming_resilienceRecordRx s.resilience idx rtt
  beaten := by
    unfold resilienceRecordRx
    dsimp only
    split
    · rfl
    · rfl
  fine i fine := by
    unfold resilienceRecordRx
    dsimp only
    split
    · exact fine
    · simp only [Resilience.setPath]
      split
      · exact Or.inl rfl
      · exact fine
  heard i := Or.inl (resilienceRecordRx_lastActivityMs _ _ _ _)

theorem hearsAt_resilienceCheck
    (v : PacketView) (dataBuf parityBuf : Option PacketBuf) :
    HearsAt now s (resilienceCheck v s dataBuf parityBuf).1 := by
  by_cases locked : s.state = .locked
  · have core := (reassembles_resilienceCheck v s dataBuf parityBuf).untouched
    have recorded : HearsAt now s _ := hearsAt_resilienceRecordRx (s := s) 0 0
    apply recorded.trans
    apply HearsAt.of_samePaths
    · exact core.state
    · exact samePaths_resilienceCheck v dataBuf parityBuf locked
  · unfold resilienceCheck
    rw [if_pos locked]
    exact HearsAt.refl s

theorem hearsAt_pipelineInboundPreCrypto
    (env : InboundEnv) (filters : Filters) :
    ∀ s' ∈ (pipelineInboundPreCrypto env filters (some s) p).sess,
      HearsAt now s s' := by
  have same : ∀ s' ∈ some s, HearsAt now s s' := by
    intro s' is
    cases is
    exact HearsAt.refl s
  unfold pipelineInboundPreCrypto
  cases packetParse p with
  | none =>
      exact same
  | some raw =>
      dsimp only
      split
      · exact same
      · split
        · exact same
        · split
          · exact same
          · split
            · exact same
            · cases sessionCheck s raw with
              | none =>
                  exact same
              | some view =>
                  dsimp only
                  split
                  · intro s' is
                    cases is
                    exact hearsAt_resilienceCheck _ _ _
                  · intro s' is
                    cases is
                    exact hearsAt_resilienceCheck _ _ _

theorem hearsAt_sessionEncCheck (C : CryptoSuite) (v : PacketView) :
    HearsAt now s (sessionEncCheck C v s).1 := by
  obtain ⟨hs, same⟩ := sessionEncCheck_session C v s
  rw [same]
  exact HearsAt.of_resilience rfl rfl

/-- The replay window of a path is none of its clocks. -/
theorem hearsAt_seqCheck (v : PacketView) :
    HearsAt now s (seqCheck s v).1 := by
  unfold seqCheck
  split
  · exact HearsAt.refl s
  · split
    · refine ⟨rfl, ⟨rfl, rfl, rfl⟩, rfl, fun i fine => ?_, fun i => ?_⟩
      · dsimp only [Resilience.setPath]
        split
        · exact fine
        · exact fine
      · dsimp only [Resilience.setPath]
        split
        · exact Or.inl rfl
        · exact Or.inl rfl
    · exact HearsAt.of_resilience rfl rfl

theorem hearsAt_drainRecovered (C : CryptoSuite) :
    HearsAt now s (drainRecovered C s).1 := by
  unfold drainRecovered
  split
  · exact HearsAt.refl s
  · rename_i rec _
    have taken : HearsAt now s { s with fecRecovered := none } :=
      HearsAt.of_resilience rfl rfl
    apply taken.trans
    unfold processFecRecovered
    split
    · exact HearsAt.refl _
    · split
      · exact HearsAt.refl _
      · dsimp only
        split
        · exact hearsAt_sessionEncCheck C _
        · exact (hearsAt_sessionEncCheck C _).trans (hearsAt_seqCheck _)

theorem hearsAt_cipherStage (C : CryptoSuite) (v : PacketView) :
    HearsAt now s (cipherStage C s v).1 := by
  unfold cipherStage
  split
  · exact hearsAt_sessionEncCheck C v
  · exact HearsAt.refl s

theorem hearsAt_pipelineInboundPostCrypto
    (C : CryptoSuite) (rxq : RxQueues) (v : PacketView) :
    HearsAt now s (pipelineInboundPostCrypto C s rxq v).sess := by
  have opened : HearsAt now s (cipherStage C (drainRecovered C s).1 v).1 :=
    (hearsAt_drainRecovered C).trans (hearsAt_cipherStage C v)
  obtain ⟨-, ⟨-, -, kept⟩ | ⟨view, -, kept, -⟩⟩ :=
    pipelineInboundPostCrypto_cases C s rxq v
  · rw [kept]
    exact opened
  · rw [kept]
    exact opened.trans (hearsAt_seqCheck view)

/-- No packet in the pipeline is bad for a path. -/
theorem hearsAt_pipelineInboundProcess
    (C : CryptoSuite) (env : InboundEnv) (filters : Filters)
    (rxq : RxQueues) :
    HearsAt now s
      (pipelineInboundProcess C env filters s rxq p).2.2.sess := by
  have first :
      ∀ s' ∈ (pipelineInboundPreCrypto env filters (some s) p).sess,
        HearsAt now s s' :=
    hearsAt_pipelineInboundPreCrypto env filters
  unfold pipelineInboundProcess
  dsimp only
  split
  · rename_i s' view is _
    exact (first s' is).trans (hearsAt_pipelineInboundPostCrypto C rxq view)
  · cases is : (pipelineInboundPreCrypto env filters (some s) p).sess with
    | none =>
        exact HearsAt.refl s
    | some s' =>
        exact first s' is

end

end PqComm
