import PqComm.Engine.PathStates
import PqComm.Pipeline.Replay

/-!
# Which path a packet is credited to

`session_check` finds out on which path a packet came and writes it into the
view.  `seq_check` reads it there.  `resilience_check` does not: it records
every reception for path 0.  So the metrics are right exactly for the packets
that came on path 0.
-/

namespace PqComm

open Lib

/-- The packet comes as far as `session_check`, which accepts it. -/
def GateAccepts (env : InboundEnv) (filters : Filters) (s : Session)
    (p : PacketBuf) (view : PacketView) : Prop :=
  ∃ raw, packetParse p = some raw ∧
    (offensiveCheck filters.offensive raw env.now).2 = true ∧
    (antiAnalysisCheck filters.anti raw env.now).2 = true ∧
    staticCheck raw = true ∧
    kernelFilterCheck filters.kernel raw = true ∧
    sessionCheck s raw = some view

/-- The reception is recorded for path `i`, and the other paths are as they
were. -/
structure Credited (r r' : Resilience) (i : Nat) : Prop where
  received : (r'.paths i).packetsRecv = (r.paths i).packetsRecv + 1
  window :
    (r'.paths i).lossWindow = ((r.paths i).record false).lossWindow
  state : (r'.paths i).state = .active
  others : ∀ j, j ≠ i → r'.paths j = r.paths j

/-! ## The replay windows -/

/-- Of the paths in `moved` the replay windows have changed, and of the others
nothing. -/
structure WindowsMoved (moved : Nat → Prop) (r r' : Resilience) : Prop where
  windows :
    ∀ i, ∃ last bits,
      r'.paths i = { r.paths i with lastSeq := last, recvBitmap := bits }
  others : ∀ i, ¬ moved i → r'.paths i = r.paths i

section

variable {moved : Nat → Prop} {r s t : Resilience}

theorem WindowsMoved.refl (moved : Nat → Prop) (r : Resilience) :
    WindowsMoved moved r r :=
  ⟨fun i => ⟨(r.paths i).lastSeq, (r.paths i).recvBitmap, rfl⟩,
    fun _ _ => rfl⟩

theorem WindowsMoved.trans
    (first : WindowsMoved moved r s) (second : WindowsMoved moved s t) :
    WindowsMoved moved r t := by
  refine ⟨fun i => ?_, fun i still => ?_⟩
  · obtain ⟨_, _, early⟩ := first.windows i
    obtain ⟨last, bits, late⟩ := second.windows i
    rw [early] at late
    exact ⟨last, bits, late⟩
  · rw [second.others i still, first.others i still]

/-- `seq_check` moves the window of the path in the view. -/
theorem windowsMoved_seqCheck
    (sess : Session) {v : PacketView} (own : moved v.pathIdx) :
    WindowsMoved moved sess.resilience (seqCheck sess v).1.resilience := by
  unfold seqCheck
  split
  · exact WindowsMoved.refl moved _
  · split
    · refine ⟨fun i => ?_, fun i still => ?_⟩
      · by_cases same : i = v.pathIdx
        · exact ⟨_, _, if_pos same⟩
        · exact ⟨(sess.resilience.paths i).lastSeq,
            (sess.resilience.paths i).recvBitmap, if_neg same⟩
      · refine if_neg fun same => still ?_
        rw [same]
        exact own
    · exact WindowsMoved.refl moved _

end

section

variable (C : CryptoSuite) {moved : Nat → Prop}

theorem resilience_sessionEncCheck (v : PacketView) (sess : Session) :
    (sessionEncCheck C v sess).1.resilience = sess.resilience := by
  obtain ⟨hs, same⟩ := sessionEncCheck_session C v sess
  rw [same]

/-- A rebuilt packet counts on path 0. -/
theorem windowsMoved_drainRecovered (sess : Session) (zero : moved 0) :
    WindowsMoved moved sess.resilience
      (drainRecovered C sess).1.resilience := by
  unfold drainRecovered
  split
  · exact WindowsMoved.refl moved _
  · rename_i rec _
    unfold processFecRecovered
    cases parsed : packetParse rec with
    | none =>
        exact WindowsMoved.refl moved _
    | some view =>
        dsimp only
        split
        · exact WindowsMoved.refl moved _
        · have same := resilience_sessionEncCheck C view
            { sess with fecRecovered := none }
          cases opened :
              (sessionEncCheck C view
                { sess with fecRecovered := none }).2 with
          | none =>
              dsimp only
              rw [same]
              exact WindowsMoved.refl moved _
          | some view' =>
              have path :=
                (packetSeq_of_sessionEncCheck C parsed opened).2.1
              rw [← path] at zero
              have checked :=
                windowsMoved_seqCheck
                  (sessionEncCheck C view
                    { sess with fecRecovered := none }).1 zero
              rw [same] at checked
              exact checked

/-- Behind the gates only replay windows move: that of path 0 for a rebuilt
packet, and that of the path of the packet. -/
theorem windowsMoved_postCrypto
    (sess : Session) (rxq : RxQueues) (view : PacketView) :
    WindowsMoved (fun i => i = 0 ∨ i = view.pathIdx) sess.resilience
      (pipelineInboundPostCrypto C sess rxq view).sess.resilience := by
  have drained :
      WindowsMoved (fun i => i = 0 ∨ i = view.pathIdx) sess.resilience
        (drainRecovered C sess).1.resilience :=
    windowsMoved_drainRecovered C sess (Or.inl rfl)
  have same :
      (cipherStage C (drainRecovered C sess).1 view).1.resilience =
        (drainRecovered C sess).1.resilience := by
    unfold cipherStage
    split
    · exact resilience_sessionEncCheck C view _
    · rfl
  rw [← same] at drained
  rcases (pipelineInboundPostCrypto_cases C sess rxq view).2 with
    ⟨-, -, kept⟩ | ⟨view', opened, kept, -⟩
  · rw [kept]
    exact drained
  · rw [kept]
    exact drained.trans (windowsMoved_seqCheck _
      (Or.inr (cipherStage_view C opened).2))

/-- Of an accepted packet, path 0 records the reception, and beyond that only
replay windows move. -/
theorem windowsMoved_pipelineInboundProcess
    {env : InboundEnv} {filters : Filters} {sess : Session} {p : PacketBuf}
    {view : PacketView} (locked : sess.state = .locked)
    (accepted : GateAccepts env filters sess p view) (rxq : RxQueues) :
    WindowsMoved (fun i => i = 0 ∨ i = view.pathIdx)
      (resilienceRecordRx sess.resilience 0 0)
      (pipelineInboundProcess C env filters sess rxq p).2.2.sess.resilience
        := by
  obtain ⟨raw, parsed, offensive, anti, static, kernel, checked⟩ := accepted
  have recorded :=
    samePaths_resilienceCheck view env.dataBuf env.parityBuf locked
  have start :
      WindowsMoved (fun i => i = 0 ∨ i = view.pathIdx)
        (resilienceRecordRx sess.resilience 0 0)
        (resilienceCheck view sess env.dataBuf env.parityBuf).1.resilience :=
    ⟨fun i => ⟨_, _, by rw [recorded.paths]⟩,
      fun i _ => by rw [recorded.paths]⟩
  unfold pipelineInboundProcess
  simp only [pipelineInboundPreCrypto, parsed, offensive, anti, static,
    kernel, checked, Bool.not_true, Bool.false_eq_true, if_false]
  cases kept :
      (resilienceCheck view sess env.dataBuf env.parityBuf).2 with
  | false =>
      exact start
  | true =>
      exact start.trans (windowsMoved_postCrypto C _ rxq view)

end

/-- The reception is credited to the path of the packet, and to no other,
exactly when that is path 0. -/
theorem traffic_credited_iff
    (C : CryptoSuite) {env : InboundEnv} {filters : Filters} {sess : Session}
    {p : PacketBuf} {view : PacketView} (locked : sess.state = .locked)
    (accepted : GateAccepts env filters sess p view) (rxq : RxQueues) :
    Credited sess.resilience
        (pipelineInboundProcess C env filters sess rxq
          p).2.2.sess.resilience view.pathIdx ↔
      view.pathIdx = 0 := by
  have moves := windowsMoved_pipelineInboundProcess C locked accepted rxq
  generalize
    (pipelineInboundProcess C env filters sess rxq p).2.2.sess.resilience =
      r at moves ⊢
  obtain ⟨last, bits, zero⟩ := moves.windows 0
  have received :
      (r.paths 0).packetsRecv =
        (sess.resilience.paths 0).packetsRecv + 1 := by
    rw [zero]
    rfl
  constructor
  · intro credited
    by_contra other
    have same := credited.others 0 (Ne.symm other)
    rw [same] at received
    simp at received
  · intro own
    rw [own] at moves ⊢
    refine ⟨received, ?_, ?_, fun j apart => ?_⟩
    · rw [zero]
      rfl
    · rw [zero]
      rfl
    · rw [moves.others j (by simpa using apart)]
      exact if_neg apart

/-- A computation that shows an accepted packet and its path. -/
theorem exists_gateAccepts
    {env : InboundEnv} {filters : Filters} {sess : Session} {p : PacketBuf}
    {path : Nat}
    (passes :
      ((packetParse p).any fun raw =>
        (offensiveCheck filters.offensive raw env.now).2 &&
          (antiAnalysisCheck filters.anti raw env.now).2 &&
          staticCheck raw && kernelFilterCheck filters.kernel raw &&
          (sessionCheck sess raw).any fun view => view.pathIdx == path) =
        true) :
    ∃ view, GateAccepts env filters sess p view ∧ view.pathIdx = path := by
  simp only [Option.any_eq_true, Bool.and_eq_true, beq_iff_eq] at passes
  obtain ⟨raw, parsed, ⟨⟨⟨offensive, anti⟩, static⟩, kernel⟩, view, checked,
    own⟩ := passes
  exact ⟨view, ⟨raw, parsed, offensive, anti, static, kernel, checked⟩, own⟩

/-- A packet on the first of two paths. -/
theorem traffic_credited_iff_sample :
    Credited (sampleReceiver true).resilience
      (pipelineInboundProcess sampleSuite
        (sampleCall (sampleSealed 7000 3)).env {} (sampleReceiver true) {}
        (sampleSealed 7000 3)).2.2.sess.resilience 0 := by
  obtain ⟨view, accepted, first⟩ :
      ∃ view, GateAccepts (sampleCall (sampleSealed 7000 3)).env {}
        (sampleReceiver true) (sampleSealed 7000 3) view ∧
          view.pathIdx = 0 :=
    exists_gateAccepts (by decide +kernel)
  have credited :=
    (traffic_credited_iff sampleSuite rfl accepted {}).mpr first
  rw [first] at credited
  exact credited

/-- A packet on the second path: its reception is recorded for the first. -/
theorem second_path_not_credited :
    (∃ view, GateAccepts (sampleCall (sampleSealed 7001 3)).env {}
        (sampleReceiver true) (sampleSealed 7001 3) view ∧
          view.pathIdx = 1) ∧
      let after :=
        (pipelineInboundProcess sampleSuite
          (sampleCall (sampleSealed 7001 3)).env {} (sampleReceiver true) {}
          (sampleSealed 7001 3)).2.2.sess.resilience
      (after.paths 0).packetsRecv = 1 ∧ (after.paths 0).state = .active ∧
        (after.paths 1).packetsRecv = 0 ∧
        (after.paths 1).state = .unknown ∧
        ¬ Credited (sampleReceiver true).resilience after 1 := by
  refine ⟨exists_gateAccepts (by decide +kernel), ?_⟩
  intro after
  have second : (after.paths 1).packetsRecv = 0 := by
    decide +kernel
  refine ⟨by decide +kernel, by decide +kernel, second, by decide +kernel,
    fun credited => ?_⟩
  have received := credited.received
  rw [second] at received
  exact absurd received (by decide)

end PqComm
