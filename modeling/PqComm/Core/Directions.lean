import PqComm.Core.FecBounds
import PqComm.Lib.Unwinding

/-!
# The two directions of forward error correction

One `resilience_t` serves the packets a session sends and those it receives.
The fields of the two directions are apart, but for the slots of
`fec_buf_ptrs` and their lengths, which both write.  What the sends leave in
the slots matters when `fec_rx_rebuild` looks into them: as long as it finds
there what the receiving calls alone would have left, the directions do not
disturb each other.
-/

namespace PqComm

open Lib

inductive FecCall where
  | txAccumulate (payload : Bytes) (seq : UInt32) (channel : UInt8)
  | rxTrack (seq : UInt32) (payload : Bytes)
  | rxStoreParity (wire : Bytes)
  | rxRebuild
  deriving DecidableEq

/-- The result of a call and what it writes for its caller. -/
inductive FecOutput where
  | parity (payload : Option Bytes)
  | done
  | rebuilt (packet : Option (Bytes × UInt32))
  deriving DecidableEq

def FecCall.sends : FecCall → Bool
  | .txAccumulate _ _ _ => true
  | _ => false

def FecCall.receives (call : FecCall) : Bool :=
  !call.sends

def fecCall (r : Resilience) : FecCall → Resilience × FecOutput
  | .txAccumulate payload seq channel =>
      ((fecTxAccumulate r payload seq channel).1,
        .parity (fecTxAccumulate r payload seq channel).2)
  | .rxTrack seq payload => (fecRxTrack r seq payload, .done)
  | .rxStoreParity wire => (fecRxStoreParity r wire, .done)
  | .rxRebuild => ((fecRxRebuild r).1, .rebuilt (fecRxRebuild r).2)

/-- In an interleaving each direction answers as it would without the other
one. -/
def DirectionsIndependent (r : Resilience) (calls : List FecCall) : Prop :=
  UndisturbedOn fecCall FecCall.receives r calls ∧
    UndisturbedOn fecCall FecCall.sends r calls

/-- The call stays inside the arrays of `resilience_t`. -/
def FecCall.Inside (r : Resilience) : FecCall → Prop
  | .txAccumulate payload _ _ =>
      ∀ access ∈ fecTxAccumulateAccesses r payload, access.InBounds
  | .rxTrack seq _ => ∀ access ∈ fecRxTrackAccesses r seq, access.InBounds
  | .rxStoreParity wire =>
      ∀ access ∈ fecRxStoreParityAccesses wire, access.InBounds
  | .rxRebuild => ∀ access ∈ fecRxRebuildAccesses r, access.InBounds

/-- What `fec_rx_rebuild` makes of a slot: it is empty, it holds the packet of
the stored group that belongs there, or some other packet. -/
inductive SlotRead where
  | empty
  | held (bytes : Bytes)
  | foreign
  deriving DecidableEq

def Resilience.slotRead (r : Resilience) (i : Nat) : SlotRead :=
  if (r.fecBufs i).length = 0 then
    .empty
  else if r.fecRxSeqs i = r.fecRxGroupStartSeq + UInt32.ofNat i then
    .held (r.fecBufs i)
  else
    .foreign

/-- When `fec_rx_rebuild` looks into the slots of a group, it finds there what
the receiving calls alone have left. -/
def FecCall.SlotsKept (r alone : Resilience) : FecCall → Prop
  | .rxRebuild =>
      r.fecRxHaveParity = true →
        ∀ i < r.fecRxGroupSize, r.slotRead i = alone.slotRead i
  | _ => True

/-- The condition on a call, made in the state `r` of the interleaving; the
receiving calls alone have come to `alone`. -/
def FecCall.Kept (r alone : Resilience) (call : FecCall) : Prop :=
  call.Inside r ∧ call.SlotsKept r alone

instance (r : Resilience) : DecidablePred (FecCall.Inside r)
  | .txAccumulate _ _ _ => inferInstanceAs (Decidable (∀ _ ∈ _, _))
  | .rxTrack _ _ => inferInstanceAs (Decidable (∀ _ ∈ _, _))
  | .rxStoreParity _ => inferInstanceAs (Decidable (∀ _ ∈ _, _))
  | .rxRebuild => inferInstanceAs (Decidable (∀ _ ∈ _, _))

instance (r alone : Resilience) : DecidablePred (FecCall.SlotsKept r alone)
  | .rxRebuild => inferInstanceAs (Decidable (_ → ∀ i < _, _))
  | .txAccumulate _ _ _ => isTrue trivial
  | .rxTrack _ _ => isTrue trivial
  | .rxStoreParity _ => isTrue trivial

instance (r alone : Resilience) (call : FecCall) :
    Decidable (call.Kept r alone) :=
  inferInstanceAs (Decidable (_ ∧ _))

/-- Every call of an interleaving meets the condition. -/
def KeptInterleaving (r : Resilience) (calls : List FecCall) : Prop :=
  KeptAlong fecCall FecCall.receives FecCall.Kept r r calls

instance (r : Resilience) (calls : List FecCall) :
    Decidable (KeptInterleaving r calls) :=
  inferInstanceAs (Decidable (KeptAlong _ _ _ _ _ _))

/-! ## Sending -/

/-- The fields that the sending direction reads agree. -/
structure SendsAlike (r q : Resilience) : Prop where
  enabled : r.fecEnabled = q.fecEnabled
  size : r.fecGroupSize = q.fecGroupSize
  position : r.fecGroupPos = q.fecGroupPos
  startSeq : r.fecGroupStartSeq = q.fecGroupStartSeq
  channel : r.fecChannelId = q.fecChannelId
  length : r.fecParityLen = q.fecParityLen
  parity : r.fecParityBuf = q.fecParityBuf

section

variable {r q : Resilience}

theorem SendsAlike.on (alike : SendsAlike r q) : r.fecOn ↔ q.fecOn := by
  unfold Resilience.fecOn
  rw [alike.enabled, alike.size]

theorem SendsAlike.opened
    (alike : SendsAlike r q) (seq : UInt32) (channel : UInt8) :
    SendsAlike (r.fecOpenGroup seq channel) (q.fecOpenGroup seq channel) := by
  unfold Resilience.fecOpenGroup
  rw [alike.position]
  split
  · exact ⟨alike.enabled, alike.size, rfl, rfl, rfl, rfl,
      by rw [alike.parity]⟩
  · exact alike

theorem SendsAlike.absorbed (alike : SendsAlike r q) (payload : Bytes) :
    SendsAlike (r.fecAbsorb payload) (q.fecAbsorb payload) where
  enabled := alike.enabled
  size := alike.size
  position := by
    change (r.fecGroupPos + 1) % 256 = (q.fecGroupPos + 1) % 256
    rw [alike.position]
  startSeq := alike.startSeq
  channel := alike.channel
  length := by
    change max r.fecParityLen _ = max q.fecParityLen _
    rw [alike.length]
  parity := by
    change xorInto r.fecParityBuf payload = xorInto q.fecParityBuf payload
    rw [alike.parity]

theorem SendsAlike.payload (alike : SendsAlike r q) (channel : UInt8) :
    r.fecParityPayload channel = q.fecParityPayload channel := by
  unfold Resilience.fecParityPayload
  rw [alike.startSeq, alike.size, alike.parity, alike.length]

theorem SendsAlike.accumulated
    (alike : SendsAlike r q) (payload : Bytes) (seq : UInt32)
    (channel : UInt8) :
    (fecTxAccumulate r payload seq channel).2 =
        (fecTxAccumulate q payload seq channel).2 ∧
      SendsAlike (fecTxAccumulate r payload seq channel).1
        (fecTxAccumulate q payload seq channel).1 := by
  by_cases on : r.fecOn
  · have joined := (alike.opened seq channel).absorbed payload
    rw [fecTxAccumulate_on payload seq channel on,
      fecTxAccumulate_on payload seq channel (alike.on.mp on)]
    generalize (r.fecOpenGroup seq channel).fecAbsorb payload = left
      at joined
    generalize (q.fecOpenGroup seq channel).fecAbsorb payload = right
      at joined
    dsimp only
    rw [joined.position, joined.size]
    split
    · exact ⟨congrArg some (joined.payload channel), joined.enabled, rfl,
        rfl, joined.startSeq, joined.channel, joined.length, joined.parity⟩
    · exact ⟨rfl, joined⟩
  · rw [fecTxAccumulate_off payload seq channel on,
      fecTxAccumulate_off payload seq channel (mt alike.on.mpr on)]
    exact ⟨rfl, alike⟩

/-- Receiving leaves the fields of the sending direction alone. -/
theorem SendsAlike.received
    (alike : SendsAlike r q) {call : FecCall} (receives : call.sends = false) :
    SendsAlike (fecCall r call).1 q := by
  cases call with
  | txAccumulate payload seq channel =>
      cases receives
  | rxTrack seq payload =>
      change SendsAlike (fecRxTrack r seq payload) q
      unfold fecRxTrack
      split
      · exact alike
      · exact { alike with }
  | rxStoreParity wire =>
      change SendsAlike (fecRxStoreParity r wire) q
      unfold fecRxStoreParity
      split
      · exact alike
      · exact { alike with }
  | rxRebuild =>
      change SendsAlike (fecRxRebuild r).1 q
      unfold fecRxRebuild
      split
      · exact alike
      · dsimp only
        split
        · exact { alike with }
        · split
          · exact alike
          · exact { alike with }

end

theorem unwinding_sends : Unwinding fecCall FecCall.sends SendsAlike where
  answer := by
    intro r q call alike sends
    cases call with
    | txAccumulate payload seq channel =>
        exact congrArg FecOutput.parity
          (alike.accumulated payload seq channel).1
    | _ =>
        cases sends
  keep := by
    intro r q call alike sends
    cases call with
    | txAccumulate payload seq channel =>
        exact (alike.accumulated payload seq channel).2
    | _ =>
        cases sends
  skip := fun _ _ _ alike receives => alike.received receives

/-- What is received never changes a parity packet. -/
theorem sends_undisturbed (r : Resilience) :
    Undisturbed fecCall FecCall.sends r :=
  unwinding_sends.undisturbed ⟨rfl, rfl, rfl, rfl, rfl, rfl, rfl⟩

/-! ## Receiving -/

/-- The fields that the receiving direction reads agree, but for the slots. -/
structure RebuildsAlike (r q : Resilience) : Prop where
  enabled : r.fecEnabled = q.fecEnabled
  size : r.fecGroupSize = q.fecGroupSize
  seqs : r.fecRxSeqs = q.fecRxSeqs
  startSeq : r.fecRxGroupStartSeq = q.fecRxGroupStartSeq
  rxSize : r.fecRxGroupSize = q.fecRxGroupSize
  rxChannel : r.fecRxChannelId = q.fecRxChannelId
  rxParity : r.fecRxParity = q.fecRxParity
  haveParity : r.fecRxHaveParity = q.fecRxHaveParity

section

variable {r q : Resilience}

/-- Sending leaves these fields alone. -/
theorem RebuildsAlike.sent
    (alike : RebuildsAlike r q) (payload : Bytes) (seq : UInt32)
    (channel : UInt8) :
    RebuildsAlike (fecTxAccumulate r payload seq channel).1 q := by
  by_cases on : r.fecOn
  · have opened : RebuildsAlike (r.fecOpenGroup seq channel) q := by
      unfold Resilience.fecOpenGroup
      split
      · exact { alike with }
      · exact alike
    rw [fecTxAccumulate_on payload seq channel on]
    dsimp only
    split
    · exact { opened with }
    · exact { opened with }
  · rw [fecTxAccumulate_off payload seq channel on]
    exact alike

theorem RebuildsAlike.tracked
    (alike : RebuildsAlike r q) (seq : UInt32) (payload : Bytes) :
    RebuildsAlike (fecRxTrack r seq payload) (fecRxTrack q seq payload) := by
  unfold fecRxTrack
  rw [alike.enabled, alike.size]
  split
  · exact alike
  · exact ⟨rfl, rfl, by rw [alike.seqs], alike.startSeq, alike.rxSize,
      alike.rxChannel, alike.rxParity, alike.haveParity⟩

theorem RebuildsAlike.storedParity
    (alike : RebuildsAlike r q) (wire : Bytes) :
    RebuildsAlike (fecRxStoreParity r wire) (fecRxStoreParity q wire) := by
  unfold fecRxStoreParity
  split
  · exact alike
  · exact ⟨alike.enabled, alike.size, alike.seqs, rfl, rfl, rfl, rfl, rfl⟩

theorem RebuildsAlike.cleared (alike : RebuildsAlike r q) :
    RebuildsAlike (fecRxClearGroup r) (fecRxClearGroup q) where
  enabled := alike.enabled
  size := alike.size
  seqs := by
    change (fun i => if i < resilienceFecGroup then 0 else r.fecRxSeqs i) = _
    rw [alike.seqs]
    rfl
  startSeq := alike.startSeq
  rxSize := rfl
  rxChannel := alike.rxChannel
  rxParity := alike.rxParity
  haveParity := rfl

/-- The three readings of a slot. -/
theorem slotRead_cases (r : Resilience) (i : Nat) :
    (r.slotRead i = .empty ∧ (r.fecBufs i).length = 0 ∧
        r.fecSlotMatches i = false) ∨
      (r.slotRead i = .held (r.fecBufs i) ∧ (r.fecBufs i).length ≠ 0 ∧
        r.fecSlotMatches i = true) ∨
      r.slotRead i = .foreign ∧ (r.fecBufs i).length ≠ 0 ∧
        r.fecSlotMatches i = false := by
  unfold Resilience.slotRead Resilience.fecSlotMatches
  by_cases empty : (r.fecBufs i).length = 0
  · rw [if_pos empty, empty]
    exact Or.inl ⟨rfl, rfl, rfl⟩
  · have filled : decide ((r.fecBufs i).length > 0) = true :=
      decide_eq_true (Nat.pos_of_ne_zero empty)
    rw [if_neg empty, filled, Bool.true_and]
    by_cases belongs :
        r.fecRxSeqs i = r.fecRxGroupStartSeq + UInt32.ofNat i
    · rw [if_pos belongs]
      exact Or.inr (Or.inl ⟨rfl, empty, beq_iff_eq.mpr belongs⟩)
    · rw [if_neg belongs]
      exact Or.inr (Or.inr ⟨rfl, empty, beq_eq_false_iff_ne.mpr belongs⟩)

/-- Slots that are read alike answer alike to all that `fec_rx_rebuild`
asks. -/
theorem slotRead_alike
    {i : Nat} (same : r.slotRead i = q.slotRead i) :
    r.fecSlotMatches i = q.fecSlotMatches i ∧
      ((r.fecBufs i).length = 0 ↔ (q.fecBufs i).length = 0) ∧
      (r.fecSlotMatches i = true → r.fecBufs i = q.fecBufs i) := by
  rcases slotRead_cases r i with
      ⟨read, size, matched⟩ | ⟨read, size, matched⟩ | ⟨read, size, matched⟩ <;>
    rcases slotRead_cases q i with
      ⟨read', size', matched'⟩ | ⟨read', size', matched'⟩ |
        ⟨read', size', matched'⟩ <;>
    rw [read, read'] at same
  · exact ⟨matched.trans matched'.symm, iff_of_true size size',
      fun held => absurd held (by rw [matched]; decide)⟩
  · cases same
  · cases same
  · cases same
  · exact ⟨matched.trans matched'.symm, iff_of_false size size',
      fun _ => SlotRead.held.inj same⟩
  · cases same
  · cases same
  · cases same
  · exact ⟨matched.trans matched'.symm, iff_of_false size size',
      fun held => absurd held (by rw [matched]; decide)⟩

/-! ### What `fec_rx_rebuild` asks of the slots -/

section

variable {slots : List Nat}

theorem filled_alike (same : ∀ i ∈ slots, r.slotRead i = q.slotRead i) :
    slots.countP r.fecSlotMatches = slots.countP q.fecSlotMatches := by
  apply List.countP_congr
  intro i inside
  rw [(slotRead_alike (same i inside)).1]

theorem emptySlot_alike (same : ∀ i ∈ slots, r.slotRead i = q.slotRead i) :
    slots.foldl
        (fun slot i => if (r.fecBufs i).length = 0 then i else slot) 0 =
      slots.foldl
        (fun slot i => if (q.fecBufs i).length = 0 then i else slot) 0 := by
  apply List.foldl_ext
  intro slot i inside
  simp only [(slotRead_alike (same i inside)).2.1]

theorem foreign_alike (same : ∀ i ∈ slots, r.slotRead i = q.slotRead i) :
    slots.any
        (fun i =>
          !r.fecSlotMatches i && decide ((r.fecBufs i).length > 0)) =
      slots.any
        (fun i =>
          !q.fecSlotMatches i && decide ((q.fecBufs i).length > 0)) := by
  rw [Bool.eq_iff_iff, List.any_eq_true, List.any_eq_true]
  apply exists_congr
  intro i
  apply and_congr_right
  intro inside
  have read := slotRead_alike (same i inside)
  simp only [read.1, Nat.pos_iff_ne_zero, ne_eq, gt_iff_lt, read.2.1]

theorem payload_alike
    (same : ∀ i ∈ slots, r.slotRead i = q.slotRead i) (hole : Nat)
    (start : Bytes) :
    slots.foldl
        (fun out i =>
          if i ≠ hole ∧ r.fecSlotMatches i then
            xorBytes out (r.fecBufs i)
          else
            out)
        start =
      slots.foldl
        (fun out i =>
          if i ≠ hole ∧ q.fecSlotMatches i then
            xorBytes out (q.fecBufs i)
          else
            out)
        start := by
  apply List.foldl_ext
  intro out i inside
  have read := slotRead_alike (same i inside)
  by_cases matched : r.fecSlotMatches i = true
  · rw [← read.1, read.2.2 matched]
  · have other : ¬q.fecSlotMatches i = true := by
      rw [← read.1]
      exact matched
    rw [if_neg fun both => matched both.2, if_neg fun both => other both.2]

end

/-- `fec_rx_rebuild` gives the same and leaves the same when it reads the
slots alike. -/
theorem RebuildsAlike.rebuilt
    (alike : RebuildsAlike r q)
    (kept :
      r.fecRxHaveParity = true →
        ∀ i < r.fecRxGroupSize, r.slotRead i = q.slotRead i) :
    (fecRxRebuild r).2 = (fecRxRebuild q).2 ∧
      RebuildsAlike (fecRxRebuild r).1 (fecRxRebuild q).1 := by
  by_cases idle : (!r.fecRxHaveParity || r.fecRxGroupSize == 0) = true
  · have idle' : (!q.fecRxHaveParity || q.fecRxGroupSize == 0) = true := by
      rw [← alike.haveParity, ← alike.rxSize]
      exact idle
    unfold fecRxRebuild
    rw [if_pos idle, if_pos idle']
    exact ⟨rfl, alike⟩
  · have idle' : ¬(!q.fecRxHaveParity || q.fecRxGroupSize == 0) = true := by
      rw [← alike.haveParity, ← alike.rxSize]
      exact idle
    have stored : r.fecRxHaveParity = true := by
      simp only [Bool.or_eq_true, not_or, Bool.not_eq_true,
        Bool.not_eq_false'] at idle
      exact idle.1
    have same :
        ∀ i ∈ List.range r.fecRxGroupSize, r.slotRead i = q.slotRead i :=
      fun i inside => kept stored i (List.mem_range.mp inside)
    have cleared := alike.cleared
    unfold fecRxRebuild
    rw [if_neg idle, if_neg idle']
    dsimp only
    rw [← alike.rxSize, ← filled_alike same, ← emptySlot_alike same,
      ← foreign_alike same, ← alike.rxParity, ← alike.startSeq,
      ← payload_alike same]
    split
    · exact ⟨rfl, cleared⟩
    · split
      · exact ⟨rfl, alike⟩
      · exact ⟨rfl, cleared⟩

end

theorem unwinding_receives :
    UnwindingUnder fecCall FecCall.receives FecCall.Kept RebuildsAlike where
  answer := by
    intro r q call alike kept receives
    cases call with
    | txAccumulate payload seq channel =>
        cases receives
    | rxTrack seq payload =>
        rfl
    | rxStoreParity wire =>
        rfl
    | rxRebuild =>
        exact congrArg FecOutput.rebuilt (alike.rebuilt kept.2).1
  keep := by
    intro r q call alike kept receives
    cases call with
    | txAccumulate payload seq channel =>
        cases receives
    | rxTrack seq payload =>
        exact alike.tracked seq payload
    | rxStoreParity wire =>
        exact alike.storedParity wire
    | rxRebuild =>
        exact (alike.rebuilt kept.2).2
  skip := by
    intro r q call alike _ sends
    cases call with
    | txAccumulate payload seq channel =>
        exact alike.sent payload seq channel
    | _ =>
        cases sends

/-- As long as no call leaves the arrays and `fec_rx_rebuild` finds the slots
as the receiving calls alone have left them, each direction answers as it
would without the other one. -/
theorem directions_independent
    (r : Resilience) (calls : List FecCall)
    (kept : KeptInterleaving r calls) : DirectionsIndependent r calls :=
  ⟨unwinding_receives.undisturbedOn ⟨rfl, rfl, rfl, rfl, rfl, rfl, rfl, rfl⟩
      kept,
    sends_undisturbed r calls⟩

/-- Packets go out between those that arrive, and a group begins and ends
before and after one is rebuilt. -/
def quietInterleaving : List FecCall :=
  [.txAccumulate [5] 10 3, .rxTrack 0 [1], .txAccumulate [6] 11 3,
    .rxTrack 1 [2], .rxTrack 3 [4], .rxStoreParity [0, 0, 0, 0, 4, 3, 7],
    .rxRebuild, .txAccumulate [7] 12 3, .txAccumulate [8] 13 3, .rxTrack 4 [9]]

theorem directions_independent_quietInterleaving :
    DirectionsIndependent resilienceInit quietInterleaving :=
  directions_independent resilienceInit quietInterleaving (by decide +kernel)

/-- No call turns FEC on or off. -/
theorem fecOn_fecCall (r : Resilience) (call : FecCall) :
    (fecCall r call).1.fecOn ↔ r.fecOn := by
  cases call with
  | txAccumulate payload seq channel =>
      change (fecTxAccumulate r payload seq channel).1.fecOn ↔ r.fecOn
      by_cases on : r.fecOn
      · rw [fecTxAccumulate_on payload seq channel on]
        have kept : (r.fecOpenGroup seq channel).fecOn := by
          unfold Resilience.fecOpenGroup
          split
          · exact on
          · exact on
        dsimp only
        split
        · exact iff_of_true kept on
        · exact iff_of_true kept on
      · rw [fecTxAccumulate_off payload seq channel on]
  | _ =>
      apply SendsAlike.on
      apply SendsAlike.received ⟨rfl, rfl, rfl, rfl, rfl, rfl, rfl⟩
      rfl

/-- With FEC off nothing is accumulated. -/
theorem unwinding_receives_off :
    Unwinding fecCall FecCall.receives fun r q => r = q ∧ ¬ r.fecOn where
  answer := by
    rintro r _ call ⟨rfl, -⟩ -
    rfl
  keep := by
    rintro r _ call ⟨rfl, off⟩ -
    exact ⟨rfl, mt (fecOn_fecCall r call).mp off⟩
  skip := by
    rintro r _ call ⟨rfl, off⟩ sends
    cases call with
    | txAccumulate payload seq channel =>
        refine ⟨?_, mt (fecOn_fecCall r _).mp off⟩
        change (fecTxAccumulate r payload seq channel).1 = r
        rw [fecTxAccumulate_off payload seq channel off]
    | _ =>
        cases sends

/-! ## Packets that are sent empty the slots of received ones -/

/-- An empty packet on channel 0. -/
def emptySend : FecCall :=
  .txAccumulate [] 0 0

def afterSends (n : Nat) (r : Resilience) : Resilience :=
  (List.replicate n emptySend).foldl (fun r call => (fecCall r call).1) r

/-- An empty packet at the start of a group, or one that completes a group,
leaves the first slot empty; any other moves on to the next position. -/
theorem emptySend_cases {r : Resilience} (on : r.fecOn) :
    (fecCall r emptySend).1.fecBufs 0 = [] ∨
      r.fecGroupPos ≠ 0 ∧
        (fecCall r emptySend).1.fecGroupPos = (r.fecGroupPos + 1) % 256 := by
  change (fecTxAccumulate r [] 0 0).1.fecBufs 0 = [] ∨ _ ∧
    (fecTxAccumulate r [] 0 0).1.fecGroupPos = _
  rw [fecTxAccumulate_on [] 0 0 on]
  have size : 0 < r.fecGroupSize := Nat.pos_of_ne_zero on.2
  by_cases first : r.fecGroupPos = 0
  · have emptied :
        ((r.fecOpenGroup 0 0).fecAbsorb []).fecBufs 0 = [] := by
      simp [Resilience.fecOpenGroup, Resilience.fecAbsorb, first]
    have steady :
        ((r.fecOpenGroup 0 0).fecAbsorb []).fecGroupSize = r.fecGroupSize := by
      simp [Resilience.fecOpenGroup, Resilience.fecAbsorb, first]
    left
    dsimp only
    split
    · exact if_pos (steady ▸ size)
    · exact emptied
  · have kept : r.fecOpenGroup 0 0 = r := if_neg first
    rw [kept]
    dsimp only
    split
    · left
      exact if_pos size
    · right
      exact ⟨first, rfl⟩

theorem empties_first_slot (r : Resilience) (on : r.fecOn) :
    ∃ n, (afterSends n r).fecBufs 0 = [] := by
  -- The position grows until a group is complete or the byte wraps to 0.
  have below :
      ∀ k, ∀ r : Resilience, r.fecOn → 256 - r.fecGroupPos ≤ k →
        r.fecGroupPos < 256 → ∃ n, (afterSends n r).fecBufs 0 = [] := by
    intro k
    induction k with
    | zero =>
        intro r _ near bound
        omega
    | succ k hypothesis =>
        intro r on near bound
        rcases emptySend_cases on with emptied | ⟨first, moved⟩
        · exact ⟨1, emptied⟩
        · have on' := (fecOn_fecCall r emptySend).mpr on
          by_cases wraps : r.fecGroupPos = 255
          · rw [wraps] at moved
            rcases emptySend_cases on' with emptied | ⟨first', -⟩
            · exact ⟨2, emptied⟩
            · exact absurd moved first'
          · obtain ⟨n, emptied⟩ :=
              hypothesis (fecCall r emptySend).1 on' (by omega) (by omega)
            exact ⟨n + 1, emptied⟩
  rcases emptySend_cases on with emptied | ⟨-, moved⟩
  · exact ⟨1, emptied⟩
  · have on' := (fecOn_fecCall r emptySend).mpr on
    obtain ⟨n, emptied⟩ :=
      below 256 (fecCall r emptySend).1 on' (by omega) (by omega)
    exact ⟨n + 1, emptied⟩

/-- The parity of the group that is packet 0 alone, with an empty payload. -/
def parityOfFirst : Bytes :=
  [0, 0, 0, 0, 1, 0]

theorem rebuild_present
    {r : Resilience} (present : r.fecBufs 0 = [1]) (seq : r.fecRxSeqs 0 = 0) :
    (fecRxRebuild (fecRxStoreParity r parityOfFirst)).2 = none := by
  simp [fecRxRebuild, fecRxStoreParity, parityOfFirst,
    Resilience.fecSlotMatches, present, seq, leNat]

theorem rebuild_absent {r : Resilience} (absent : r.fecBufs 0 = []) :
    (fecRxRebuild (fecRxStoreParity r parityOfFirst)).2 = some ([], 0) := by
  simp [fecRxRebuild, fecRxStoreParity, parityOfFirst,
    Resilience.fecSlotMatches, absent, leNat]

theorem not_undisturbed_receives {r : Resilience} (on : r.fecOn) :
    ¬ Undisturbed fecCall FecCall.receives r := by
  intro undisturbed
  have tracked : fecRxTrack r 0 [1] =
      { r with
        fecBufs := fun i => if i = 0 then [1] else r.fecBufs i
        fecRxSeqs := fun i => if i = 0 then 0 else r.fecRxSeqs i } := by
    unfold fecRxTrack
    rw [if_neg (mt Resilience.fecOn_guard.mp (not_not.mpr on))]
    simp [fecMaxPayload]
  have on' : (fecRxTrack r 0 [1]).fecOn :=
    (fecOn_fecCall r (.rxTrack 0 [1])).mpr on
  obtain ⟨n, emptied⟩ := empties_first_slot (fecRxTrack r 0 [1]) on'
  -- The packet is tracked, the sends empty its slot, and the parity follows.
  have same :=
    undisturbed
      ([.rxTrack 0 [1]] ++
        (List.replicate n emptySend ++
          [.rxStoreParity parityOfFirst, .rxRebuild]))
  have alone :
      ([FecCall.rxTrack 0 [1]] ++
        (List.replicate n emptySend ++
          [FecCall.rxStoreParity parityOfFirst, FecCall.rxRebuild])).filter
            FecCall.receives =
        [.rxTrack 0 [1], .rxStoreParity parityOfFirst, .rxRebuild] := by
    simp [FecCall.receives, FecCall.sends, emptySend]
  have sent : ∀ c ∈ List.replicate n emptySend, c.receives = false := by
    intro c member
    rw [List.eq_of_mem_replicate member]
    rfl
  unfold UndisturbedOn at same
  rw [alone, callTrace_append, callTrace_append, List.filter_append,
    List.filter_append, filter_callTrace_eq_nil _ sent] at same
  have outputs := congrArg (fun trace => trace.map Prod.snd) same
  change [FecOutput.done, .done,
      .rebuilt (fecRxRebuild (fecRxStoreParity
        (afterSends n (fecRxTrack r 0 [1])) parityOfFirst)).2] =
    [.done, .done,
      .rebuilt (fecRxRebuild (fecRxStoreParity
        (fecRxTrack r 0 [1]) parityOfFirst)).2] at outputs
  rw [rebuild_absent emptied,
    rebuild_present (by rw [tracked]; rfl) (by rw [tracked]; rfl)] at outputs
  simp at outputs

/-- All interleavings are independent exactly when FEC is off. -/
theorem all_independent_iff (r : Resilience) :
    (∀ calls, DirectionsIndependent r calls) ↔
      r.fecEnabled = false ∨ r.fecGroupSize = 0 := by
  have off : ¬ r.fecOn ↔ r.fecEnabled = false ∨ r.fecGroupSize = 0 := by
    unfold Resilience.fecOn
    rw [not_and_or, Bool.not_eq_true, not_not]
  rw [← off]
  constructor
  · intro independent on
    exact not_undisturbed_receives on fun calls => (independent calls).1
  · intro disabled calls
    exact ⟨unwinding_receives_off.undisturbed ⟨rfl, disabled⟩ calls,
      sends_undisturbed r calls⟩

/-- At the start of a session: packet 0 has arrived when four packets go out,
and its parity then makes it up a second time. -/
theorem sends_disturb_received_packet :
    ¬ DirectionsIndependent resilienceInit
        [.rxTrack 0 [1], .txAccumulate [5] 10 3, .txAccumulate [6] 11 3,
          .txAccumulate [7] 12 3, .txAccumulate [8] 13 3,
          .rxStoreParity [0, 0, 0, 0, 1, 3, 1], .rxRebuild] := by
  rintro ⟨same, -⟩
  unfold UndisturbedOn at same
  exact absurd same (by decide +kernel)

end PqComm
