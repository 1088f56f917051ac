import PqComm.Core.Resilience

/-!
# The arrays of forward error correction

The slots of `resilience_t` are `RESILIENCE_FEC_GROUP` many, and its parity
buffers are `FEC_MAX_PAYLOAD` bytes long.  The group size comes from
`abr_update` on the one side and from a byte of the wire on the other, and
the length of a parity is that of the longest payload.  Here each function is
given by the places it reads and writes, in the order of the source.
-/

namespace PqComm

open Lib

/-- An index into `fec_buf_ptrs`, `fec_buf_lens` and `fec_rx_seqs`, or the
first bytes of one of the buffers. -/
inductive FecAccess where
  | slot (i : Nat)
  | parityBuf (n : Nat)
  | rxParity (n : Nat)
  | parityOut (n : Nat)
  deriving DecidableEq

def FecAccess.InBounds : FecAccess → Prop
  | .slot i => i < resilienceFecGroup
  | .parityBuf n => n ≤ fecMaxPayload
  | .rxParity n => n ≤ fecMaxPayload
  | .parityOut n => n ≤ fecMaxPayload + 6

instance : DecidablePred FecAccess.InBounds
  | .slot i => inferInstanceAs (Decidable (i < resilienceFecGroup))
  | .parityBuf n => inferInstanceAs (Decidable (n ≤ fecMaxPayload))
  | .rxParity n => inferInstanceAs (Decidable (n ≤ fecMaxPayload))
  | .parityOut n => inferInstanceAs (Decidable (n ≤ fecMaxPayload + 6))

/-- A loop over the first `n` slots. -/
def slotsBelow (n : Nat) : List FecAccess :=
  (List.range n).map .slot

/-- `fec_tx_accumulate`. -/
def fecTxAccumulateAccesses (r : Resilience) (payload : Bytes) :
    List FecAccess :=
  if !r.fecEnabled || r.fecGroupSize == 0 then
    []
  else
    let opening : List FecAccess :=
      if r.fecGroupPos = 0 then
        .parityBuf fecMaxPayload :: slotsBelow r.fecGroupSize
      else
        []
    let parityLen :=
      max (if r.fecGroupPos = 0 then 0 else r.fecParityLen) payload.length
    let closing : List FecAccess :=
      if (r.fecGroupPos + 1) % 256 ≥ r.fecGroupSize then
        [FecAccess.parityOut 6, FecAccess.parityBuf parityLen,
            FecAccess.parityOut (6 + parityLen)] ++
          slotsBelow r.fecGroupSize
      else
        []
    opening ++
      [FecAccess.slot r.fecGroupPos,
        FecAccess.parityBuf (min payload.length fecMaxPayload)] ++
      closing

/-- `fec_rx_track`. -/
def fecRxTrackAccesses (r : Resilience) (seq : UInt32) : List FecAccess :=
  if !r.fecEnabled || r.fecGroupSize == 0 then
    []
  else
    [.slot (seq.toNat % r.fecGroupSize)]

/-- `fec_rx_store_parity`. -/
def fecRxStoreParityAccesses (wire : Bytes) : List FecAccess :=
  if wire.length < 6 then
    []
  else
    [.rxParity (min (wire.length - 6) fecMaxPayload)]

/-- `fec_rx_rebuild`, up to the point where it returns. -/
def fecRxRebuildAccesses (r : Resilience) : List FecAccess :=
  if !r.fecRxHaveParity || r.fecRxGroupSize == 0 then
    []
  else
    let slots := List.range r.fecRxGroupSize
    let filled := slots.countP r.fecSlotMatches
    let foreign :=
      slots.any fun i =>
        !r.fecSlotMatches i && decide ((r.fecBufs i).length > 0)
    slotsBelow r.fecRxGroupSize ++
      (if filled = r.fecRxGroupSize then
        slotsBelow resilienceFecGroup
      else if filled ≠ r.fecRxGroupSize - 1 ∨ foreign then
        []
      else
        .rxParity r.fecRxParity.length ::
          (slotsBelow r.fecRxGroupSize ++ slotsBelow resilienceFecGroup))

/-! ## Runs -/

/-- A `resilience_t` and its rate control, with all accesses so far. -/
structure FecEndpoint where
  res : Resilience
  abr : AbrCtx
  accesses : List FecAccess

def fecEndpointInit (abr : AbrCtx) : FecEndpoint where
  res := resilienceInit
  abr := abr
  accesses := []

inductive FecStep where
  | recordRx (idx : Nat) (rtt : UInt64)
  | recordLoss (idx : Nat)
  | abrUpdate (now : UInt64)
  | txAccumulate (payload : Bytes) (seq : UInt32) (channel : UInt8)
  | rxTrack (seq : UInt32) (payload : Bytes)
  | rxStoreParity (wire : Bytes)
  | rxRebuild

def FecEndpoint.step (s : FecEndpoint) : FecStep → FecEndpoint
  | .recordRx idx rtt =>
      { s with res := resilienceRecordRx s.res idx rtt }
  | .recordLoss idx =>
      { s with res := resilienceRecordLoss s.res idx }
  | .abrUpdate now =>
      { s with
        abr := (abrUpdate s.abr s.res now).1
        res := (abrUpdate s.abr s.res now).2 }
  | .txAccumulate payload seq channel =>
      { s with
        res := (fecTxAccumulate s.res payload seq channel).1
        accesses := s.accesses ++ fecTxAccumulateAccesses s.res payload }
  | .rxTrack seq payload =>
      { s with
        res := fecRxTrack s.res seq payload
        accesses := s.accesses ++ fecRxTrackAccesses s.res seq }
  | .rxStoreParity wire =>
      { s with
        res := fecRxStoreParity s.res wire
        accesses := s.accesses ++ fecRxStoreParityAccesses wire }
  | .rxRebuild =>
      { s with
        res := (fecRxRebuild s.res).1
        accesses := s.accesses ++ fecRxRebuildAccesses s.res }

def FecEndpoint.run (s : FecEndpoint) (steps : List FecStep) : FecEndpoint :=
  steps.foldl FecEndpoint.step s

/-- With FEC on, the group size is no larger than the array, and a payload is
no longer than the parity buffer; a stored parity names no larger group. -/
def FecStep.Fits (s : FecEndpoint) : FecStep → Prop
  | .txAccumulate payload _ _ =>
      s.res.fecOn →
        s.res.fecGroupSize ≤ resilienceFecGroup ∧
          payload.length ≤ fecMaxPayload
  | .rxTrack _ _ => s.res.fecOn → s.res.fecGroupSize ≤ resilienceFecGroup
  | .rxRebuild =>
      s.res.fecRxHaveParity = true →
        s.res.fecRxGroupSize ≤ resilienceFecGroup
  | _ => True

def FecStepsFit : FecEndpoint → List FecStep → Prop
  | _, [] => True
  | s, step :: steps => step.Fits s ∧ FecStepsFit (s.step step) steps

instance (s : FecEndpoint) : DecidablePred (FecStep.Fits s)
  | .txAccumulate _ _ _ => inferInstanceAs (Decidable (_ → _ ∧ _))
  | .rxTrack _ _ => inferInstanceAs (Decidable (_ → _))
  | .rxRebuild => inferInstanceAs (Decidable (_ → _))
  | .recordRx _ _ => isTrue trivial
  | .recordLoss _ => isTrue trivial
  | .abrUpdate _ => isTrue trivial
  | .rxStoreParity _ => isTrue trivial

instance decidableFecStepsFit :
    (s : FecEndpoint) → (steps : List FecStep) →
      Decidable (FecStepsFit s steps)
  | _, [] => isTrue trivial
  | s, step :: steps =>
      @instDecidableAnd _ _ (inferInstance : Decidable (step.Fits s))
        (decidableFecStepsFit (s.step step) steps)

/-! ## The invariant -/

structure FecLimits (r : Resilience) : Prop where
  position : r.fecGroupPos < resilienceFecGroup
  length : r.fecParityLen ≤ fecMaxPayload
  rxParity : r.fecRxParity.length ≤ fecMaxPayload

theorem fecLimits_init : FecLimits resilienceInit :=
  ⟨by decide, by decide, by decide⟩

theorem slotsBelow_inBounds
    {n : Nat} (small : n ≤ resilienceFecGroup) :
    ∀ access ∈ slotsBelow n, access.InBounds := by
  intro access member
  obtain ⟨i, inside, rfl⟩ := List.mem_map.mp member
  exact Nat.lt_of_lt_of_le (List.mem_range.mp inside) small

section

variable {r r' : Resilience}

theorem FecLimits.of_same (limits : FecLimits r) (same : SameFec r r') :
    FecLimits r' where
  position := same.position ▸ limits.position
  length := same.length ▸ limits.length
  rxParity := same.rxParity ▸ limits.rxParity

/-! ### Sending -/

theorem FecLimits.accumulated
    (limits : FecLimits r) {payload : Bytes} (seq : UInt32) (channel : UInt8)
    (fits :
      r.fecOn →
        r.fecGroupSize ≤ resilienceFecGroup ∧
          payload.length ≤ fecMaxPayload) :
    FecLimits (fecTxAccumulate r payload seq channel).1 := by
  by_cases on : r.fecOn
  · obtain ⟨small, short⟩ := fits on
    have opened :
        FecLimits (r.fecOpenGroup seq channel) ∧
          (r.fecOpenGroup seq channel).fecGroupSize = r.fecGroupSize := by
      unfold Resilience.fecOpenGroup
      split
      · exact ⟨⟨limits.position, Nat.zero_le _, limits.rxParity⟩, rfl⟩
      · exact ⟨limits, rfl⟩
    have longest :
        max (r.fecOpenGroup seq channel).fecParityLen payload.length ≤
          fecMaxPayload :=
      Nat.max_le.mpr ⟨opened.1.length, short⟩
    rw [fecTxAccumulate_on payload seq channel on]
    dsimp only
    split
    · exact ⟨Nat.zero_lt_succ 3, longest, opened.1.rxParity⟩
    · rename_i incomplete
      refine ⟨?_, longest, opened.1.rxParity⟩
      have below := Nat.not_le.mp incomplete
      change _ < (r.fecOpenGroup seq channel).fecGroupSize at below
      rw [opened.2] at below
      exact Nat.lt_of_lt_of_le below small
  · rw [fecTxAccumulate_off payload seq channel on]
    exact limits

theorem FecLimits.accumulate_inBounds
    (limits : FecLimits r) {payload : Bytes}
    (fits :
      r.fecOn →
        r.fecGroupSize ≤ resilienceFecGroup ∧
          payload.length ≤ fecMaxPayload) :
    ∀ access ∈ fecTxAccumulateAccesses r payload, access.InBounds := by
  unfold fecTxAccumulateAccesses
  split
  · intro access member
    cases member
  · rename_i enabled
    have on : r.fecOn := not_not.mp (mt Resilience.fecOn_guard.mpr enabled)
    obtain ⟨small, short⟩ := fits on
    have slots := slotsBelow_inBounds small
    have longest :
        max (if r.fecGroupPos = 0 then 0 else r.fecParityLen)
          payload.length ≤ fecMaxPayload := by
      apply Nat.max_le.mpr
      refine ⟨?_, short⟩
      split
      · exact Nat.zero_le _
      · exact limits.length
    intro access member
    rcases List.mem_append.mp member with front | closing
    · rcases List.mem_append.mp front with opening | middle
      · split at opening
        · rcases List.mem_cons.mp opening with rfl | slot
          · exact Nat.le_refl fecMaxPayload
          · exact slots access slot
        · cases opening
      · rcases List.mem_cons.mp middle with rfl | last
        · exact limits.position
        · rw [List.mem_singleton.mp last]
          exact Nat.min_le_right _ _
    · split at closing
      · rcases List.mem_append.mp closing with copies | slot
        · simp only [List.mem_cons, List.not_mem_nil, or_false] at copies
          rcases copies with rfl | rfl | rfl
          · change 6 ≤ fecMaxPayload + 6
            omega
          · exact longest
          · change 6 + _ ≤ fecMaxPayload + 6
            omega
        · exact slots access slot
      · cases closing

/-! ### Receiving -/

theorem FecLimits.track_inBounds
    (seq : UInt32) (fits : r.fecOn → r.fecGroupSize ≤ resilienceFecGroup) :
    ∀ access ∈ fecRxTrackAccesses r seq, access.InBounds := by
  unfold fecRxTrackAccesses
  split
  · intro access member
    cases member
  · rename_i enabled
    have on : r.fecOn := not_not.mp (mt Resilience.fecOn_guard.mpr enabled)
    intro access member
    rw [List.mem_singleton.mp member]
    have below : seq.toNat % r.fecGroupSize < r.fecGroupSize :=
      Nat.mod_lt _ (Nat.pos_of_ne_zero on.2)
    exact Nat.lt_of_lt_of_le below (fits on)

theorem FecLimits.storeParity_inBounds (wire : Bytes) :
    ∀ access ∈ fecRxStoreParityAccesses wire, access.InBounds := by
  unfold fecRxStoreParityAccesses
  split
  · intro access member
    cases member
  · intro access member
    rw [List.mem_singleton.mp member]
    exact Nat.min_le_right _ _

theorem FecLimits.rebuild_inBounds
    (limits : FecLimits r)
    (fits :
      r.fecRxHaveParity = true → r.fecRxGroupSize ≤ resilienceFecGroup) :
    ∀ access ∈ fecRxRebuildAccesses r, access.InBounds := by
  unfold fecRxRebuildAccesses
  split
  · intro access member
    cases member
  · rename_i stored
    have parity : r.fecRxHaveParity = true := by
      cases received : r.fecRxHaveParity with
      | true => rfl
      | false => simp [received] at stored
    have slots := slotsBelow_inBounds (fits parity)
    have cleared := slotsBelow_inBounds (Nat.le_refl resilienceFecGroup)
    intro access member
    rcases List.mem_append.mp member with scan | rest
    · exact slots access scan
    · split at rest
      · exact cleared access rest
      · split at rest
        · cases rest
        · rcases List.mem_cons.mp rest with rfl | loops
          · exact limits.rxParity
          · rcases List.mem_append.mp loops with slot | slot
            · exact slots access slot
            · exact cleared access slot

/-- Receiving leaves the sender's fields alone and clamps the parity. -/
theorem FecLimits.tracked
    (limits : FecLimits r) (seq : UInt32) (payload : Bytes) :
    FecLimits (fecRxTrack r seq payload) := by
  unfold fecRxTrack
  split
  · exact limits
  · exact ⟨limits.position, limits.length, limits.rxParity⟩

theorem FecLimits.storedParity (limits : FecLimits r) (wire : Bytes) :
    FecLimits (fecRxStoreParity r wire) := by
  unfold fecRxStoreParity
  split
  · exact limits
  · exact ⟨limits.position, limits.length, List.length_take_le _ _⟩

theorem FecLimits.rebuilt (limits : FecLimits r) :
    FecLimits (fecRxRebuild r).1 := by
  unfold fecRxRebuild
  split
  · exact limits
  · dsimp only
    split
    · exact ⟨limits.position, limits.length, limits.rxParity⟩
    · split
      · exact limits
      · exact ⟨limits.position, limits.length, limits.rxParity⟩

end

/-! ## Whole runs -/

structure FecEndpointInv (s : FecEndpoint) : Prop where
  limits : FecLimits s.res
  inBounds : ∀ access ∈ s.accesses, access.InBounds

theorem inBounds_append
    {first second : List FecAccess}
    (left : ∀ access ∈ first, access.InBounds)
    (right : ∀ access ∈ second, access.InBounds) :
    ∀ access ∈ first ++ second, access.InBounds := by
  intro access member
  rcases List.mem_append.mp member with old | new
  · exact left access old
  · exact right access new

theorem FecEndpointInv.step
    {s : FecEndpoint} (inv : FecEndpointInv s) {step : FecStep}
    (fits : step.Fits s) : FecEndpointInv (s.step step) := by
  cases step with
  | recordRx idx rtt =>
      have same := (sameFec_resilienceRecordRx s.res idx rtt).1
      exact ⟨inv.limits.of_same same, inv.inBounds⟩
  | recordLoss idx =>
      have same := (sameFec_resilienceRecordLoss s.res idx).1
      exact ⟨inv.limits.of_same same, inv.inBounds⟩
  | abrUpdate now =>
      have same := (abrUpdate_fec s.abr s.res now).1
      exact ⟨inv.limits.of_same same, inv.inBounds⟩
  | txAccumulate payload seq channel =>
      exact ⟨inv.limits.accumulated seq channel fits,
        inBounds_append inv.inBounds (inv.limits.accumulate_inBounds fits)⟩
  | rxTrack seq payload =>
      exact ⟨inv.limits.tracked seq payload,
        inBounds_append inv.inBounds (FecLimits.track_inBounds seq fits)⟩
  | rxStoreParity wire =>
      exact ⟨inv.limits.storedParity wire,
        inBounds_append inv.inBounds (FecLimits.storeParity_inBounds wire)⟩
  | rxRebuild =>
      exact ⟨inv.limits.rebuilt,
        inBounds_append inv.inBounds (inv.limits.rebuild_inBounds fits)⟩

theorem FecEndpointInv.run
    {s : FecEndpoint} (inv : FecEndpointInv s) {steps : List FecStep}
    (fit : FecStepsFit s steps) : FecEndpointInv (s.run steps) := by
  induction steps generalizing s with
  | nil =>
      exact inv
  | cons step steps hypothesis =>
      exact hypothesis (inv.step fit.1) fit.2

/-- In every run whose group sizes and payloads fit, every access is inside
its array. -/
theorem fec_accesses_in_bounds
    (abr : AbrCtx) (steps : List FecStep)
    (fit : FecStepsFit (fecEndpointInit abr) steps) :
    ∀ access ∈ ((fecEndpointInit abr).run steps).accesses,
      access.InBounds := by
  have start : FecEndpointInv (fecEndpointInit abr) :=
    ⟨fecLimits_init, fun access member => by cases member⟩
  exact (start.run fit).inBounds

/-- Heavy loss, for which the group size stays at 4. -/
def heavyLossRun : List FecStep :=
  List.replicate 7 (FecStep.recordLoss 0) ++
    ([.abrUpdate 5000, .txAccumulate [1, 2] 10 3, .txAccumulate [3] 11 3,
      .txAccumulate [4] 12 3, .txAccumulate [5] 13 3, .rxTrack 7 [9],
      .rxStoreParity [4, 0, 0, 0, 4, 3, 9], .rxRebuild] : List FecStep)

theorem fec_accesses_in_bounds_heavy_loss :
    FecStepsFit (fecEndpointInit {}) heavyLossRun ∧
      ∀ access ∈ ((fecEndpointInit {}).run heavyLossRun).accesses,
        access.InBounds := by
  have fit : FecStepsFit (fecEndpointInit {}) heavyLossRun := by
    decide +kernel
  exact ⟨fit, fec_accesses_in_bounds {} heavyLossRun fit⟩

/-- Three losses in the window make `abr_update` choose groups of 8, and the
next packet clears `fec_buf_lens[4]`. -/
theorem light_loss_leaves_the_array :
    ¬ ∀ steps : List FecStep,
        ∀ access ∈ ((fecEndpointInit {}).run steps).accesses,
          access.InBounds := by
  intro safe
  have outside :
      FecAccess.slot 4 ∈
        ((fecEndpointInit {}).run
          [.recordLoss 0, .recordLoss 0, .recordLoss 0, .abrUpdate 5000,
            .txAccumulate [1] 10 3]).accesses := by
    decide +kernel
  exact absurd (safe _ _ outside) (by decide)

end PqComm
