import PqComm.Pipeline.Ownership

/-!
# Groups that fit their slots

`resilience_t` has `RESILIENCE_FEC_GROUP` slots for the packets of a group,
and `fec_rx_track` takes the one at the remainder of the number by the size of
the groups.  Nothing on the receive side changes that size.  A run that begins
with groups that fit never leaves the slots.
-/

namespace PqComm

open Lib

/-! ## The functions of the receive side -/

/-- How many packets a group has for the receiver. -/
def RxSide.groupSize (w : RxSide) : Nat :=
  w.sess.resilience.fecGroupSize

theorem fecRxRebuild_fecGroupSize (r : Resilience) :
    (fecRxRebuild r).1.fecGroupSize = r.fecGroupSize := by
  unfold fecRxRebuild
  split
  · rfl
  · dsimp only
    split
    · rfl
    · split
      · rfl
      · rfl

theorem fecRxTrack_fecGroupSize
    (r : Resilience) (seq : UInt32) (payload : Bytes) :
    (fecRxTrack r seq payload).fecGroupSize = r.fecGroupSize := by
  unfold fecRxTrack
  split
  · rfl
  · rfl

theorem fecRxStoreParity_fecGroupSize (r : Resilience) (wire : Bytes) :
    (fecRxStoreParity r wire).fecGroupSize = r.fecGroupSize := by
  unfold fecRxStoreParity
  split
  · rfl
  · rfl

theorem seqCheck_fecGroupSize (s : Session) (v : PacketView) :
    (seqCheck s v).1.resilience.fecGroupSize = s.resilience.fecGroupSize := by
  unfold seqCheck
  split
  · rfl
  · split
    · rfl
    · rfl

namespace RxSide

theorem tryRebuild_groupSize (w : RxSide) :
    w.tryRebuild.groupSize = w.groupSize := by
  have rebuilt := fecRxRebuild_fecGroupSize w.sess.resilience
  unfold tryRebuild
  cases built : fecRxRebuild w.sess.resilience with
  | mk r packet =>
      rw [built] at rebuilt
      cases packet with
      | none =>
          exact rebuilt
      | some packet =>
          dsimp only
          cases (w.setResilience r).ledger.poolGet with
          | none =>
              exact rebuilt
          | some taken =>
              exact rebuilt

theorem trackData_groupSize (w : RxSide) (h : Nat) (v : PacketView) :
    (w.trackData h v).groupSize = w.groupSize := by
  unfold trackData
  split
  · rw [tryRebuild_groupSize]
    exact fecRxTrack_fecGroupSize w.sess.resilience v.seq (w.mem h).body
  · rfl

theorem trackParity_groupSize (w : RxSide) (h : Nat) :
    (w.trackParity h).groupSize = w.groupSize := by
  unfold trackParity
  split
  · rw [tryRebuild_groupSize]
    exact fecRxStoreParity_fecGroupSize w.sess.resilience (w.mem h).body
  · rfl

theorem resilienceCheck_groupSize (w : RxSide) (h : Nat) (v : PacketView) :
    (w.resilienceCheck h v).1.groupSize = w.groupSize := by
  have recorded :
      (w.setResilience
        (resilienceRecordRx w.sess.resilience 0 0)).groupSize =
          w.groupSize :=
    (sameFec_resilienceRecordRx w.sess.resilience 0 0).2
  unfold resilienceCheck
  split
  · rfl
  · dsimp only
    split
    · change ((RxSide.trackData _ h v).trackParity h).groupSize = _
      rw [trackParity_groupSize, trackData_groupSize, recorded]
    · rw [trackData_groupSize, recorded]

theorem pipelineInboundPreCrypto_groupSize
    (w : RxSide) (filters : Filters) (now : UInt64) (h : Nat) :
    (w.pipelineInboundPreCrypto filters now h).side.groupSize =
      w.groupSize := by
  rcases RxWorld.pipelineInboundPreCrypto_cases ⟨filters, w⟩ now h with
    ⟨-, -, -, same⟩ | ⟨view, -, checked, -, -⟩
  · exact congrArg groupSize same
  · exact (congrArg groupSize checked).trans
      (resilienceCheck_groupSize w h view)

section

variable (C : CryptoSuite)

theorem sessionEncCheck_groupSize (w : RxSide) (h : Nat) (v : PacketView) :
    (w.sessionEncCheck C h v).1.groupSize = w.groupSize := by
  obtain ⟨hs, same⟩ := sessionEncCheck_session C v w.sess
  have kept :
      (w.setSess (PqComm.sessionEncCheck C v w.sess).1).groupSize =
        w.groupSize := by
    rw [same]
    rfl
  unfold sessionEncCheck
  dsimp only
  cases (PqComm.sessionEncCheck C v w.sess).2 with
  | none =>
      exact kept
  | some opened =>
      exact kept

theorem processFecRecovered_groupSize (w : RxSide) (rec : Nat) :
    (w.processFecRecovered C rec).1.groupSize = w.groupSize := by
  unfold processFecRecovered
  cases packetParse (w.mem rec) with
  | none =>
      rfl
  | some v =>
      dsimp only
      split
      · rfl
      · have opened := sessionEncCheck_groupSize C w rec v
        cases (w.sessionEncCheck C rec v).2 with
        | none =>
            exact opened
        | some v' =>
            exact (seqCheck_fecGroupSize _ v').trans opened

theorem drainRecovered_groupSize (w : RxSide) :
    (w.drainRecovered C).1.groupSize = w.groupSize := by
  unfold drainRecovered
  cases w.ledger.fecRecovered with
  | none =>
      rfl
  | some rec =>
      dsimp only
      split
      · exact processFecRecovered_groupSize C _ rec
      · exact processFecRecovered_groupSize C _ rec

theorem pipelineInboundPostCrypto_groupSize
    (w : RxSide) (h : Nat) (v : PacketView) :
    (w.pipelineInboundPostCrypto C h v).2.1.groupSize = w.groupSize := by
  have drained := drainRecovered_groupSize C w
  have checked :
      ((w.drainRecovered C).1.cipherStage C h v).1.groupSize =
        w.groupSize := by
    unfold cipherStage
    split
    · exact (sessionEncCheck_groupSize C _ h v).trans drained
    · exact drained
  unfold pipelineInboundPostCrypto
  dsimp only
  cases ((w.drainRecovered C).1.cipherStage C h v).2 with
  | none =>
      exact checked
  | some v' =>
      have gated :=
        seqCheck_fecGroupSize
          ((w.drainRecovered C).1.cipherStage C h v).1.sess v'
      dsimp only
      split
      · exact gated.trans checked
      · exact gated.trans checked

end

theorem send_groupSize (w : RxSide) (packet : PacketBuf × Bool) :
    (w.send packet).groupSize = w.groupSize := by
  unfold send
  cases w.ledger.poolGet with
  | none =>
      rfl
  | some taken =>
      dsimp only
      split
      · rfl
      · rfl

theorem sends_groupSize (w : RxSide) (packets : List (PacketBuf × Bool)) :
    (packets.foldl send w).groupSize = w.groupSize := by
  induction packets generalizing w with
  | nil =>
      rfl
  | cons packet rest inductionHypothesis =>
      exact (inductionHypothesis (w.send packet)).trans
        (send_groupSize w packet)

theorem udpRxOnce_groupSize (w : RxSide) (datagram : Option PacketBuf) :
    (w.udpRxOnce datagram).groupSize = w.groupSize := by
  unfold udpRxOnce
  cases w.ledger.poolGet with
  | none =>
      rfl
  | some taken =>
      cases datagram with
      | none =>
          rfl
      | some p =>
          dsimp only
          split
          · rfl
          · rfl

theorem sent_groupSize (w : RxSide) (h : Nat) :
    (w.sent h).groupSize = w.groupSize := by
  unfold sent
  split
  · rfl
  · rfl

theorem dequeue_groupSize (w : RxSide) (channel : UInt8) :
    (w.dequeue channel).groupSize = w.groupSize := by
  unfold dequeue
  cases w.ledger.rxq channel with
  | nil =>
      rfl
  | cons h rest =>
      dsimp only
      split
      · rfl
      · rfl

end RxSide

/-! ## Runs -/

/-- The handler leaves the size of the groups as it is. -/
def ControlHandler.KeepsGroups (H : ControlHandler) : Prop :=
  ∀ sess p,
    (H.session sess p).resilience.fecGroupSize =
      sess.resilience.fecGroupSize

section

variable {C : CryptoSuite} {H : ControlHandler}

theorem RxSide.control_groupSize
    (keeps : H.KeepsGroups) (w : RxSide) (h : Nat) :
    (w.control H h).groupSize = w.groupSize := by
  unfold RxSide.control
  dsimp only
  rw [RxSide.sends_groupSize]
  change (List.foldl RxSide.send _ _).groupSize = _
  rw [RxSide.sends_groupSize]
  exact keeps w.sess (w.mem h)

namespace RxWorld

theorem processPacket_groupSize
    (keeps : H.KeepsGroups) (w : RxWorld) (now : UInt64) (h : Nat) :
    (w.processPacket C H now h).side.groupSize = w.side.groupSize := by
  have processed :
      (w.pipelineInboundProcess C now h).2.1.side.groupSize =
        w.side.groupSize := by
    have admitted :=
      RxSide.pipelineInboundPreCrypto_groupSize w.side w.filters now h
    unfold pipelineInboundProcess
    dsimp only
    cases (w.side.pipelineInboundPreCrypto w.filters now h).view with
    | none =>
        exact admitted
    | some v =>
        exact (RxSide.pipelineInboundPostCrypto_groupSize C _ h v).trans
          admitted
  unfold processPacket
  generalize w.pipelineInboundProcess C now h = out at processed ⊢
  have handled :
      (if out.1 = .ok then out.2.1.side.control H h
        else out.2.1.side.poolReturn h).groupSize = w.side.groupSize := by
    split
    · exact (RxSide.control_groupSize keeps _ h).trans processed
    · exact processed
  dsimp only
  cases out.2.2 with
  | none =>
      exact handled
  | some rec =>
      exact (RxSide.control_groupSize keeps _ rec).trans handled

theorem act_groupSize (keeps : H.KeepsGroups) (w : RxWorld) (act : RxAct) :
    (w.act C H act).side.groupSize = w.side.groupSize := by
  cases act with
  | udpRxOnce datagram =>
      exact RxSide.udpRxOnce_groupSize w.side datagram
  | processRing now =>
      dsimp only [RxWorld.act, processRingForEngine]
      cases w.side.ledger.rxRing with
      | nil =>
          rfl
      | cons h rest =>
          exact processPacket_groupSize keeps _ now h
  | send packet =>
      exact RxSide.send_groupSize w.side packet
  | sent h =>
      exact RxSide.sent_groupSize w.side h
  | dequeue channel =>
      exact RxSide.dequeue_groupSize w.side channel

theorem run_groupSize
    (keeps : H.KeepsGroups) (w : RxWorld) (acts : List RxAct) :
    (w.run C H acts).side.groupSize = w.side.groupSize := by
  induction acts generalizing w with
  | nil =>
      rfl
  | cons act acts inductionHypothesis =>
      exact (inductionHypothesis (w.act C H act)).trans
        (act_groupSize keeps w act)

/-- In every state of a run, the slot of any packet is one of those that
`resilience_t` has. -/
theorem run_slots_inside
    (keeps : H.KeepsGroups) {w : RxWorld} (some : 0 < w.side.groupSize)
    (fits : w.side.groupSize ≤ resilienceFecGroup) (acts : List RxAct)
    (seq : UInt32) :
    seq.toNat % (w.run C H acts).side.groupSize < resilienceFecGroup := by
  rw [run_groupSize keeps]
  exact Nat.lt_of_lt_of_le (Nat.mod_lt _ some) fits

end RxWorld

end

/-- The size that `resilience_init` sets fits. -/
example : ({} : Resilience).fecGroupSize ≤ resilienceFecGroup := by
  decide

end PqComm
