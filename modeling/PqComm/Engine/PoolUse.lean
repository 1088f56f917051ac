import PqComm.Engine.BuilderBounds

/-!
# Runs that keep their buffers apart

The packets of an engine are values here.  In the source they are buffers of
one pool, and two packets stay apart only while every buffer is given back
once and nobody writes behind the end of one.

`transport_engine_poll` gives the buffer of a parity packet back twice:
`resilience_check` returns it to the pool, and so does the branch for dropped
packets.  `transport_engine_send_chat` and `video_worker_tick` write behind
the end of a buffer when they get too much.  What is said of the packets of a
whole run is said of runs in which neither happens.
-/

namespace PqComm

open Lib

/-! ## Parity packets of a locked session -/

/-- The gates drop a packet in `resilience_check` exactly when it comes that
far, the session is locked and the packet has the flag of a parity packet. -/
theorem dropResilience_iff
    (env : InboundEnv) (filters : Filters) (sess : Option Session)
    (p : PacketBuf) :
    (pipelineInboundPreCrypto env filters sess p).result =
        .dropResilience ↔
      ∃ raw s view, packetParse p = some raw ∧ sess = some s ∧
        (offensiveCheck filters.offensive raw env.now).2 = true ∧
        (antiAnalysisCheck filters.anti raw env.now).2 = true ∧
        staticCheck raw = true ∧
        kernelFilterCheck filters.kernel raw = true ∧
        sessionCheck s raw = some view ∧ s.state = .locked ∧
        view.flags &&& packetFlagFecParity ≠ 0 := by
  unfold pipelineInboundPreCrypto
  cases parsed : packetParse p with
  | none =>
      simp
  | some raw =>
      cases offensive :
        (offensiveCheck filters.offensive raw env.now).2 with
      | false => simp [offensive]
      | true =>
      cases anti : (antiAnalysisCheck filters.anti raw env.now).2 with
      | false => simp [offensive, anti]
      | true =>
      cases static : staticCheck raw with
      | false => simp [offensive, anti, static]
      | true =>
      cases kernel : kernelFilterCheck filters.kernel raw with
      | false => simp [offensive, anti, static, kernel]
      | true =>
      cases sess with
      | none => simp [offensive, anti, static, kernel]
      | some s =>
      cases gate : sessionCheck s raw with
      | none => simp [offensive, anti, static, kernel, gate]
      | some view =>
          simp only [offensive, anti, static, kernel, gate]
          unfold resilienceCheck
          by_cases locked : s.state = .locked
          · by_cases parity : view.flags &&& packetFlagFecParity = 0
            · simp [locked, parity, gate]
            · simp [locked, parity, gate, offensive, anti, static, kernel]
          · simp [locked]

/-! ## The buffers of a call -/

instance (limit : Nat) (writes : List Write) :
    Decidable (WritesBelow limit writes) :=
  decidable_of_iff
    (∀ w ∈ writes, w.bytes = [] ∨ w.off + w.bytes.length ≤ limit) (by
      induction writes with
      | nil =>
          exact iff_of_true (List.forall_mem_nil _) (writesBelow_nil limit)
      | cons w rest inductionHypothesis =>
          rw [List.forall_mem_cons, writesBelow_cons, inductionHypothesis])

instance (u : BufferUse) : Decidable u.Inside :=
  inferInstanceAs (Decidable (_ ∧ (_ → _)))

instance (u : AccumulateUse) : Decidable u.Inside :=
  inferInstanceAs (Decidable ((∀ _ ∈ _, _) ∧ _))

instance (u : ChatUse) : Decidable u.Inside :=
  inferInstanceAs (Decidable ((∀ _ ∈ _, _) ∧ ∀ _ ∈ _, _))

/-- The packet that a poll finds on the receive rings. -/
def Engine.nextPacket (e : Engine) : Option PacketBuf :=
  e.rxRing.bind fun i => (e.rxRings i).head?

section

variable (C : CryptoSuite)

/-- What `video_worker_tick` does with its buffer in the periodic part. -/
def Engine.videoUses (e : Engine) (env : PollEnv) : List BufferUse :=
  let e :=
    (((e.tickLoop.tickAbr env.now).tickSession env).tickDecoy env).tickAudio
      C env
  match e.session with
  | none => []
  | some i =>
      if e.sessionIsLocked ∧ e.videoCallActive then
        videoWorkerUse C e.video (e.pool i) env.videoFrame env.videoBuf
          e.seqCounter
      else
        []

/-- `transport_engine_poll` takes no parity packet of a locked session, and
the frame that it sends has room. -/
def Engine.PollKeepsBuffers (e : Engine) (env : PollEnv) : Prop :=
  e.events = [] →
    let e := e.takeResult C env.result
    (∀ p ∈ e.nextPacket,
        (pipelineInboundPreCrypto env.inbound e.filters
            (e.session.map e.pool) p).result ≠ .dropResilience) ∧
      (e.nextPacket = none → ∀ u ∈ e.videoUses C env, u.Inside)

/-- The call gives no buffer back twice and writes behind the end of none. -/
def Engine.KeepsBuffers (e : Engine) : EngineAct → Prop
  | .poll env => e.PollKeepsBuffers C env
  | .sendChat text buf parityBuf => (sendChatUse C text buf parityBuf e).Inside
  | _ => True

/-- Every call of a run keeps the buffers apart. -/
def Engine.BuffersApart (e : Engine) : List EngineAct → Prop
  | [] => True
  | act :: acts => e.KeepsBuffers C act ∧ (e.step C act).BuffersApart acts

instance (e : Engine) (env : PollEnv) : Decidable (e.PollKeepsBuffers C env) :=
  inferInstanceAs (Decidable (_ → (∀ _ ∈ _, _) ∧ (_ → ∀ _ ∈ _, _)))

instance (e : Engine) : DecidablePred (e.KeepsBuffers C) := fun act =>
  match act with
  | .poll env => inferInstanceAs (Decidable (e.PollKeepsBuffers C env))
  | .sendChat text buf parityBuf =>
      inferInstanceAs
        (Decidable (sendChatUse C text buf parityBuf e).Inside)
  | .connect _ _ => isTrue trivial
  | .disconnect => isTrue trivial
  | .startListener => isTrue trivial
  | .sendConnectRequest _ _ _ _ _ => isTrue trivial
  | .acceptConnection _ _ _ => isTrue trivial
  | .declineConnection _ _ _ => isTrue trivial
  | .sendFile _ _ => isTrue trivial
  | .sendTyping _ => isTrue trivial
  | .sendDeliveryAck _ _ => isTrue trivial
  | .audioCallStart => isTrue trivial
  | .audioCallEnd => isTrue trivial
  | .videoCallStart => isTrue trivial
  | .videoCallEnd => isTrue trivial
  | .portHop _ _ => isTrue trivial
  | .setFecEnabled _ => isTrue trivial
  | .shutdown => isTrue trivial
  | .receive _ _ => isTrue trivial
  | .transmit _ => isTrue trivial
  | .cryptoWork => isTrue trivial

instance decidableBuffersApart :
    (e : Engine) → (acts : List EngineAct) →
      Decidable (e.BuffersApart C acts)
  | _, [] => isTrue trivial
  | e, act :: acts =>
      @instDecidableAnd _ _ (inferInstance : Decidable (e.KeepsBuffers C act))
        (decidableBuffersApart (e.step C act) acts)

end

end PqComm
