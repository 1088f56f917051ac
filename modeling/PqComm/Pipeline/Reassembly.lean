import PqComm.Pipeline.Replay

/-!
# What a dropped packet leaves in the reassembly

`resilience_check` runs in front of the cipher, since parity is computed over
ciphertext.  A packet that is dropped later, by `session_enc_check` or by
`seq_check`, has been tracked by then.  The stages behind `resilience_check`
add nothing to that but to take up the pending rebuilt packet.

There are `RESILIENCE_FEC_GROUP` slots.  What is tracked in a group with more
packets, or looked up for a parity of one, is not in the slots any more.
-/

namespace PqComm

open Lib

/-- The FEC receive state of a session: the slots with their numbers, the
stored parity and the rebuilt packet. -/
structure FecReceive where
  bufs : Fin resilienceFecGroup → Bytes
  seqs : Fin resilienceFecGroup → UInt32
  parity : Bytes
  haveParity : Bool
  groupStartSeq : UInt32
  groupSize : Nat
  channelId : UInt8
  recovered : Option PacketBuf

def Session.fecReceive (s : Session) : FecReceive where
  bufs := fun i => s.resilience.fecBufs i
  seqs := fun i => s.resilience.fecRxSeqs i
  parity := s.resilience.fecRxParity
  haveParity := s.resilience.fecRxHaveParity
  groupStartSeq := s.resilience.fecRxGroupStartSeq
  groupSize := s.resilience.fecRxGroupSize
  channelId := s.resilience.fecRxChannelId
  recovered := s.fecRecovered

/-- The groups of the session, that of the stored parity among them, have no
more packets than there are slots. -/
def Session.GroupsFit (s : Session) : Prop :=
  s.resilience.fecGroupSize ≤ resilienceFecGroup ∧
    (s.resilience.fecRxHaveParity = true →
      s.resilience.fecRxGroupSize ≤ resilienceFecGroup)

/-! ## The stages behind `resilience_check` -/

section

variable (C : CryptoSuite)

theorem sessionEncCheck_fecReceive (v : PacketView) (sess : Session) :
    (sessionEncCheck C v sess).1.fecReceive = sess.fecReceive := by
  obtain ⟨hs, same⟩ := sessionEncCheck_session C v sess
  rw [same]
  rfl

theorem seqCheck_fecReceive (sess : Session) (v : PacketView) :
    (seqCheck sess v).1.fecReceive = sess.fecReceive := by
  unfold seqCheck
  split
  · rfl
  · split <;> rfl

theorem cipherStage_fecReceive (sess : Session) (view : PacketView) :
    (cipherStage C sess view).1.fecReceive = sess.fecReceive := by
  unfold cipherStage
  split
  · exact sessionEncCheck_fecReceive C view sess
  · rfl

theorem processFecRecovered_fecReceive (sess : Session) (rec : PacketBuf) :
    (processFecRecovered C sess rec).1.fecReceive = sess.fecReceive := by
  unfold processFecRecovered
  cases packetParse rec with
  | none =>
      rfl
  | some view =>
      dsimp only
      split
      · rfl
      · have opened := sessionEncCheck_fecReceive C view sess
        cases (sessionEncCheck C view sess).2 with
        | none =>
            exact opened
        | some view' =>
            exact (seqCheck_fecReceive _ view').trans opened

/-- The pending rebuilt packet is taken up whatever becomes of it. -/
theorem drainRecovered_fecReceive (sess : Session) :
    (drainRecovered C sess).1.fecReceive =
      { sess.fecReceive with recovered := none } := by
  unfold drainRecovered
  cases pending : sess.fecRecovered with
  | none =>
      simp only [Session.fecReceive, pending]
  | some rec =>
      exact processFecRecovered_fecReceive C _ rec

theorem pipelineInboundPostCrypto_fecReceive
    (sess : Session) (rxq : RxQueues) (view : PacketView) :
    (pipelineInboundPostCrypto C sess rxq view).sess.fecReceive =
      { sess.fecReceive with recovered := none } := by
  rw [← drainRecovered_fecReceive C sess,
    ← cipherStage_fecReceive C (drainRecovered C sess).1 view]
  rcases (pipelineInboundPostCrypto_cases C sess rxq view).2 with
    ⟨-, -, kept⟩ | ⟨view', -, kept, -⟩
  · rw [kept]
  · rw [kept]
    exact seqCheck_fecReceive _ view'

end

/-! ## `resilience_check` itself -/

/-- The packets whose ciphertext `resilience_check` tracks. -/
def FecTracked (sess : Session) (p : PacketBuf) : Prop :=
  sess.resilience.fecEnabled = true ∧
    p.data 5 &&& packetFlagEncrypted ≠ 0 ∧ p.data 14 ≠ chControl

/-- Without stored parity there is nothing to rebuild. -/
theorem tryRebuild_fecReceive
    {sess : Session} (buf : Option PacketBuf)
    (noParity : sess.resilience.fecRxHaveParity = false) :
    (tryRebuild sess buf).fecReceive = sess.fecReceive := by
  have rebuilt : fecRxRebuild sess.resilience = (sess.resilience, none) := by
    simp [fecRxRebuild, noParity]
  simp only [tryRebuild, rebuilt]

/-- The receive state with one slot written. -/
def FecReceive.setSlot
    (f : FecReceive) (slot : Fin resilienceFecGroup) (seq : UInt32)
    (bytes : Bytes) : FecReceive :=
  { f with
    bufs := fun i => if i = slot then bytes else f.bufs i
    seqs := fun i => if i = slot then seq else f.seqs i }

theorem fecRxTrack_fecReceive
    (sess : Session) (seq : UInt32) (payload : Bytes)
    (fits : sess.resilience.fecGroupSize ≤ resilienceFecGroup) :
    let tracked : Session :=
      { sess with resilience := fecRxTrack sess.resilience seq payload }
    tracked.fecReceive = sess.fecReceive ∨
      ∃ slot : Fin resilienceFecGroup,
        slot.val = seq.toNat % sess.resilience.fecGroupSize ∧
          tracked.fecReceive =
            sess.fecReceive.setSlot slot seq (payload.take fecMaxPayload) := by
  intro tracked
  simp only [tracked, fecRxTrack]
  split
  · exact Or.inl rfl
  · rename_i on
    have positive : 0 < sess.resilience.fecGroupSize := by
      apply Nat.pos_of_ne_zero
      intro none
      simp [none] at on
    have inside :
        seq.toNat % sess.resilience.fecGroupSize < resilienceFecGroup :=
      Nat.lt_of_lt_of_le (Nat.mod_lt _ positive) fits
    refine Or.inr ⟨⟨_, inside⟩, rfl, ?_⟩
    simp only [Session.fecReceive, FecReceive.setSlot, Fin.ext_iff]

section

variable {env : InboundEnv} {filters : Filters} {sess sess' : Session}
  {p : PacketBuf} {view : PacketView}

/-- A packet that goes on to the cipher has left at most what `trackData`
does. -/
theorem PassesGates.fecReceive
    (gates : PassesGates env filters sess p view sess') :
    sess'.fecReceive = sess.fecReceive ∨
      (FecTracked sess p ∧
        sess'.fecReceive =
          (tryRebuild
            { sess with
              resilience :=
                fecRxTrack (resilienceRecordRx sess.resilience 0 0)
                  (packetSeq p) p.body } env.dataBuf).fecReceive) := by
  obtain ⟨raw, parsed, viewEq⟩ := gates.view_eq
  have fields := parsedAs_of_packetParse parsed
  have number := (seq_of_packetParse parsed).1
  have checked := gates.resilient
  unfold resilienceCheck at checked
  split at checked
  · cases checked
    exact Or.inl rfl
  · dsimp only at checked
    split at checked
    · cases checked
    · cases checked
      unfold trackData
      split
      · rename_i tracked
        simp only [Bool.and_eq_true, bne_iff_ne, ne_eq] at tracked
        obtain ⟨⟨enabled, encrypted⟩, data⟩ := tracked
        rw [viewEq] at encrypted data
        refine Or.inr ⟨⟨enabled, fields.encrypted.mp encrypted, ?_⟩, ?_⟩
        · rw [← fields.channelId]
          exact data
        · rw [viewEq, ← number, ← fields.buf]
      · exact Or.inl rfl

end

/-- What is dropped by the cipher or by the replay window has left in the
reassembly nothing unless the packet was tracked.  As long as the groups fit
the slots, it has left there what `resilience_check` left, less the pending
packet, and that is at most the slot of its number when no parity is
waiting. -/
theorem dropped_packet_reassembly
    (C : CryptoSuite) (env : InboundEnv) (filters : Filters) (sess : Session)
    (rxq : RxQueues) (p : PacketBuf)
    (dropped :
      (pipelineInboundProcess C env filters sess rxq p).1 = .dropSessionEnc ∨
        (pipelineInboundProcess C env filters sess rxq p).1 = .dropSeq) :
    (sess.GroupsFit →
        ∃ view sess',
          PassesGates env filters sess p view sess' ∧
            (pipelineInboundProcess C env filters sess rxq
              p).2.2.sess.fecReceive =
                { sess'.fecReceive with recovered := none }) ∧
      (sess.fecRecovered = none → ¬ FecTracked sess p →
        (pipelineInboundProcess C env filters sess rxq
          p).2.2.sess.fecReceive = sess.fecReceive) ∧
      (sess.GroupsFit → sess.fecRecovered = none →
        sess.resilience.fecRxHaveParity = false →
          (pipelineInboundProcess C env filters sess rxq
            p).2.2.sess.fecReceive = sess.fecReceive ∨
          ∃ slot : Fin resilienceFecGroup,
            slot.val =
                (packetSeq p).toNat % sess.resilience.fecGroupSize ∧
              (pipelineInboundProcess C env filters sess rxq
                p).2.2.sess.fecReceive =
                  sess.fecReceive.setSlot slot (packetSeq p)
                    (p.body.take fecMaxPayload)) := by
  rcases pipelineInboundProcess_cases C env filters sess rxq p with
    ⟨early, -, -⟩ | ⟨view, sess', gates, -, post⟩
  · exfalso
    rcases dropped with drop | drop
    · rw [drop] at early
      cases early
    · rw [drop] at early
      cases early
  · have left := pipelineInboundPostCrypto_fecReceive C sess' rxq view
    rw [← post] at left
    have unpending : sess.fecRecovered = none →
        { sess.fecReceive with recovered := none } = sess.fecReceive := by
      intro pending
      simp only [Session.fecReceive, pending]
    refine ⟨fun _ => ⟨view, sess', gates, left⟩, ?_, ?_⟩
    · intro pending untracked
      rcases gates.fecReceive with same | ⟨tracked, -⟩
      · rw [left, same, unpending pending]
      · exact absurd tracked untracked
    · intro fits pending noParity
      rcases gates.fecReceive with same | ⟨-, tracked⟩
      · exact Or.inl (by rw [left, same, unpending pending])
      · have waiting :
            (fecRxTrack (resilienceRecordRx sess.resilience 0 0)
              (packetSeq p) p.body).fecRxHaveParity = false := by
          unfold fecRxTrack
          split <;> exact noParity
        rw [tryRebuild_fecReceive env.dataBuf waiting] at tracked
        rcases fecRxTrack_fecReceive
            { sess with resilience := resilienceRecordRx sess.resilience 0 0 }
            (packetSeq p) p.body fits.1 with same | ⟨slot, number, written⟩
        · refine Or.inl ?_
          rw [left, tracked]
          exact (congrArg (fun f : FecReceive => { f with recovered := none })
            same).trans (unpending pending)
        · refine Or.inr ⟨slot, number, ?_⟩
          rw [left, tracked]
          refine (congrArg
            (fun f : FecReceive => { f with recovered := none })
            written).trans ?_
          simp only [FecReceive.setSlot, Session.fecReceive, pending]
          rfl

/-! ## A forged packet in the slots -/

/-- The forged packet is dropped by `session_enc_check` and has taken the slot
of its number by then. -/
theorem dropped_packet_changes_reassembly :
    (pipelineInboundProcess sampleSuite (sampleCall sampleForged).env {}
        (sampleReceiver false) {} sampleForged).1 = .dropSessionEnc ∧
      (pipelineInboundProcess sampleSuite (sampleCall sampleForged).env {}
        (sampleReceiver false) {} sampleForged).2.2.sess.fecReceive ≠
          (sampleReceiver false).fecReceive := by
  refine ⟨by decide +kernel, fun same => ?_⟩
  have slot :=
    congrArg (fun f : FecReceive => f.seqs ⟨0, by decide⟩) same
  revert slot
  decide +kernel

/-- The forged packet leaves at most what its number says, and with FEC off it
leaves no trace. -/
theorem dropped_packet_reassembly_forged :
    let dropped :=
      (pipelineInboundProcess sampleSuite (sampleCall sampleForged).env {}
        (sampleReceiver false) {} sampleForged).2.2.sess
    (dropped.fecReceive = (sampleReceiver false).fecReceive ∨
        ∃ slot : Fin resilienceFecGroup,
          slot.val = (packetSeq sampleForged).toNat % 4 ∧
            dropped.fecReceive =
              (sampleReceiver false).fecReceive.setSlot slot
                (packetSeq sampleForged)
                (sampleForged.body.take fecMaxPayload)) ∧
      Session.fecReceive
          (pipelineInboundProcess sampleSuite (sampleCall sampleForged).env {}
            { sampleReceiver false with resilience := { fecEnabled := false } }
            {} sampleForged).2.2.sess =
        Session.fecReceive
          { sampleReceiver false with
            resilience := { fecEnabled := false } } := by
  refine ⟨?_, ?_⟩
  · exact (dropped_packet_reassembly sampleSuite (sampleCall sampleForged).env
      {} (sampleReceiver false) {} sampleForged
      (Or.inl (by decide +kernel))).2.2
        ⟨by decide, fun stored => absurd stored (by decide)⟩ rfl rfl
  · exact (dropped_packet_reassembly sampleSuite (sampleCall sampleForged).env
      {} { sampleReceiver false with resilience := { fecEnabled := false } } {}
      sampleForged (Or.inl (by decide +kernel))).2.1 rfl
        (fun tracked => Bool.false_ne_true tracked.1)

end PqComm
