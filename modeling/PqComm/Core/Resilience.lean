import PqComm.Core.Packet

/-!
# Path metrics and forward error correction

The state and the functions of `resilience_ctx.c` and `adaptive_bitrate.c`.

A loss rate is the exact fraction `lost / 64` of the loss window, which a
`float` represents without rounding, so `lossRate` is its numerator and the
thresholds of the source are compared as fractions.

A FEC slot of the source is a buffer with a length.  It is the byte string
of that length here, and an empty slot is one of length zero.
-/

namespace PqComm

open Lib

def resilienceMaxPaths : Nat := 4
def resilienceFecGroup : Nat := 4
def resilienceLossWindow : Nat := 64
def fecMaxPayload : Nat := 1400

inductive PathState where
  | unknown
  | active
  | degraded
  | down
  deriving DecidableEq, Repr

/-- `path_metrics_t`. -/
structure PathMetrics where
  packetsSent : UInt32 := 0
  packetsRecv : UInt32 := 0
  packetsLost : UInt32 := 0
  rttNs : UInt64 := 0
  rttMinNs : UInt64 := 0
  rttMaxNs : UInt64 := 0
  jitterNs : UInt64 := 0
  lossRate : Nat := 0
  state : PathState := .unknown
  lastActivityMs : UInt64 := 0
  lossWindow : Nat → Bool := fun _ => false
  lossWindowPos : UInt32 := 0
  lastSeq : UInt32 := 0
  recvBitmap : UInt64 := 0
  peerPort : Bytes := zeros 2

/-- `resilience_t`, as `resilience_init` leaves it when no field is given. -/
structure Resilience where
  paths : Nat → PathMetrics := fun _ => {}
  pathCount : Nat := 1
  activePath : Nat := 0
  multipathEnabled : Bool := false
  heartbeatIntervalMs : UInt32 := 1000
  reconnectTimeoutMs : UInt32 := 5000
  maxReconnectAttempts : UInt32 := 3
  lastHeartbeatMs : UInt64 := 0
  fecEnabled : Bool := true
  fecGroupSize : Nat := resilienceFecGroup
  fecGroupPos : Nat := 0
  fecParityBuf : Mem := fun _ => 0
  fecParityLen : Nat := 0
  fecGroupStartSeq : UInt32 := 0
  fecChannelId : UInt8 := 0
  fecBufs : Nat → Bytes := fun _ => []
  fecRxParity : Bytes := []
  fecRxGroupStartSeq : UInt32 := 0
  fecRxGroupSize : Nat := 0
  fecRxChannelId : UInt8 := 0
  fecRxHaveParity : Bool := false
  fecRxSeqs : Nat → UInt32 := fun _ => 0

/-- `resilience_init`. -/
def resilienceInit : Resilience := {}

/-- Update one path in place. -/
def Resilience.setPath
    (r : Resilience) (idx : Nat) (change : PathMetrics → PathMetrics) :
    Resilience :=
  { r with
    paths := fun i => if i = idx then change (r.paths i) else r.paths i }

/-- Update the paths below `path_count`. -/
def Resilience.setPaths
    (r : Resilience) (change : PathMetrics → PathMetrics) : Resilience :=
  { r with
    paths := fun i =>
      if i < r.pathCount then change (r.paths i) else r.paths i }

/-! ## Metrics -/

/-- `update_loss_rate`. -/
def updateLossRate (p : PathMetrics) : PathMetrics :=
  { p with
    lossRate := (List.range resilienceLossWindow).countP p.lossWindow }

/-- Record one event in the loss window. -/
def PathMetrics.record (p : PathMetrics) (lost : Bool) : PathMetrics :=
  let slot := p.lossWindowPos.toNat % resilienceLossWindow
  updateLossRate
    { p with
      lossWindow := fun i => if i = slot then lost else p.lossWindow i
      lossWindowPos := p.lossWindowPos + 1 }

/-- The round-trip part of `resilience_record_rx`. -/
def PathMetrics.recordRtt (p : PathMetrics) (rtt : UInt64) : PathMetrics :=
  if rtt > 0 then
    let prev := p.rttNs
    { p with
      rttMinNs :=
        if p.rttMinNs = 0 ∨ rtt < p.rttMinNs then rtt else p.rttMinNs
      rttMaxNs := if rtt > p.rttMaxNs then rtt else p.rttMaxNs
      rttNs := if prev > 0 then (prev * 7 + rtt) / 8 else rtt
      jitterNs :=
        if p.jitterNs > 0 then
          (p.jitterNs * 7 +
            (if rtt > prev then rtt - prev else prev - rtt)) / 8
        else
          0 }
  else
    p

def resilienceRecordTx (r : Resilience) (idx : Nat) : Resilience :=
  if idx ≥ resilienceMaxPaths then
    r
  else
    r.setPath idx fun p => { p with packetsSent := p.packetsSent + 1 }

def resilienceRecordRx
    (r : Resilience) (idx : Nat) (rtt : UInt64) : Resilience :=
  if idx ≥ resilienceMaxPaths then
    r
  else
    r.setPath idx fun p =>
      let counted := { p with packetsRecv := p.packetsRecv + 1 }
      { (counted.record false).recordRtt rtt with state := .active }

def resilienceRecordLoss (r : Resilience) (idx : Nat) : Resilience :=
  if idx ≥ resilienceMaxPaths then
    r
  else
    r.setPath idx fun p =>
      let q := { p with packetsLost := p.packetsLost + 1 }.record true
      let q := if 10 * q.lossRate > 3 * 64 then
        { q with state := .degraded } else q
      if 2 * q.lossRate > 64 then { q with state := .down } else q

/-- `resilience_select_path`. -/
def resilienceSelectPath (r : Resilience) : Nat :=
  if r.pathCount = 0 then
    0
  else if !r.multipathEnabled then
    r.activePath
  else
    let better (best i : Nat) : Nat :=
      if (r.paths i).state = .active ∧
          (r.paths i).lossRate < (r.paths best).lossRate then i else best
    (List.range r.pathCount).foldl better r.activePath

/-- The downgrade of one path by `resilience_tick` and `heartbeat_tick`. -/
def PathMetrics.age
    (p : PathMetrics) (now : UInt64) (interval timeout : UInt32) :
    PathMetrics :=
  let silent := now - p.lastActivityMs
  let p :=
    if p.state = .active ∧ silent > (interval * 3).toUInt64 then
      { p with state := .degraded }
    else
      p
  if p.state = .degraded ∧ silent > timeout.toUInt64 then
    { p with state := .down }
  else
    p

/-- `resilience_tick`, without its report of whether anything changed. -/
def resilienceTick (r : Resilience) (now : UInt64) : Resilience :=
  r.setPaths (·.age now r.heartbeatIntervalMs r.reconnectTimeoutMs)

/-! ## Adaptive bitrate -/

/-- `abr_ctx_t`. -/
structure AbrCtx where
  currentFecGroupSize : Nat := 4
  abrEnabled : Bool := true
  lastUpdateMs : UInt64 := 0

/-- The redundancy `abr_update` chooses for a loss rate. -/
def abrChoice (maxLoss : Nat) : Bool × Nat :=
  if 100 * maxLoss < 3 * 64 then
    (false, 0)
  else if 10 * maxLoss < 64 then
    (true, 8)
  else if 5 * maxLoss < 64 then
    (true, 4)
  else
    (true, 2)

/-- `abr_update`. -/
def abrUpdate (ctx : AbrCtx) (r : Resilience) (now : UInt64) :
    AbrCtx × Resilience :=
  if !ctx.abrEnabled then
    (ctx, r)
  else if now - ctx.lastUpdateMs < 3000 then
    (ctx, r)
  else
    let ctx := { ctx with lastUpdateMs := now }
    let maxLoss :=
      (List.range r.pathCount).foldl
        (fun worst i => max worst (r.paths i).lossRate) 0
    let (enabled, group) := abrChoice maxLoss
    if enabled ≠ r.fecEnabled ∨ group ≠ r.fecGroupSize then
      ({ ctx with currentFecGroupSize := group },
        { r with fecEnabled := enabled, fecGroupSize := group })
    else
      (ctx, r)

/-! ## FEC, sending -/

/-- Add a payload to the parity buffer, byte by byte up to its size. -/
def xorInto (mem : Mem) (payload : Bytes) : Mem :=
  fun i =>
    if i < payload.length ∧ i < fecMaxPayload then
      mem i ^^^ payload.getD i 0
    else
      mem i

/-- The start of a group in `fec_tx_accumulate`. -/
def Resilience.fecOpenGroup
    (r : Resilience) (seq : UInt32) (channel : UInt8) : Resilience :=
  if r.fecGroupPos = 0 then
    { r with
      fecGroupStartSeq := seq
      fecChannelId := channel
      fecParityLen := 0
      fecParityBuf := fun i =>
        if i < fecMaxPayload then 0 else r.fecParityBuf i
      fecBufs := fun i => if i < r.fecGroupSize then [] else r.fecBufs i }
  else
    r

/-- The payload is buffered and folded into the parity; the position is one
byte wide. -/
def Resilience.fecAbsorb (r : Resilience) (payload : Bytes) : Resilience :=
  { r with
    fecBufs := fun i =>
      if i = r.fecGroupPos then payload.take fecMaxPayload else r.fecBufs i
    fecParityBuf := xorInto r.fecParityBuf payload
    fecParityLen := max r.fecParityLen payload.length
    fecGroupPos := (r.fecGroupPos + 1) % 256 }

/-- `fec_tx_accumulate`.  The second component is the parity payload of a
group that this packet completes. -/
def fecTxAccumulate
    (r : Resilience) (payload : Bytes) (seq : UInt32) (channel : UInt8) :
    Resilience × Option Bytes :=
  if !r.fecEnabled || r.fecGroupSize == 0 then
    (r, none)
  else
    let r := (r.fecOpenGroup seq channel).fecAbsorb payload
    if r.fecGroupPos ≥ r.fecGroupSize then
      let parity :=
        leBytes 4 r.fecGroupStartSeq.toNat ++
          [UInt8.ofNat r.fecGroupSize, channel] ++
          memSlice r.fecParityBuf 0 r.fecParityLen
      ({ r with
          fecBufs := fun i =>
            if i < r.fecGroupSize then [] else r.fecBufs i
          fecGroupPos := 0 }, some parity)
    else
      (r, none)

/-! ## FEC, receiving -/

/-- `fec_rx_track`. -/
def fecRxTrack (r : Resilience) (seq : UInt32) (payload : Bytes) :
    Resilience :=
  if !r.fecEnabled || r.fecGroupSize == 0 then
    r
  else
    let pos := seq.toNat % r.fecGroupSize
    { r with
      fecBufs := fun i =>
        if i = pos then payload.take fecMaxPayload else r.fecBufs i
      fecRxSeqs := fun i => if i = pos then seq else r.fecRxSeqs i }

/-- `fec_rx_store_parity`. -/
def fecRxStoreParity (r : Resilience) (wire : Bytes) : Resilience :=
  if wire.length < 6 then
    r
  else
    { r with
      fecRxGroupStartSeq := UInt32.ofNat (leNat (wire.take 4))
      fecRxGroupSize := (wire.getD 4 0).toNat
      fecRxChannelId := wire.getD 5 0
      fecRxParity := (wire.drop 6).take fecMaxPayload
      fecRxHaveParity := true }

/-- `fec_rx_clear_group`. -/
def fecRxClearGroup (r : Resilience) : Resilience :=
  { r with
    fecRxHaveParity := false
    fecRxGroupSize := 0
    fecBufs := fun i => if i < resilienceFecGroup then [] else r.fecBufs i
    fecRxSeqs := fun i =>
      if i < resilienceFecGroup then 0 else r.fecRxSeqs i }

/-- Slot `i` holds the packet of the stored group that belongs there. -/
def Resilience.fecSlotMatches (r : Resilience) (i : Nat) : Bool :=
  decide ((r.fecBufs i).length > 0) &&
    r.fecRxSeqs i == r.fecRxGroupStartSeq + UInt32.ofNat i

/-- `fec_rx_rebuild`: the reconstructed payload and its sequence number. -/
def fecRxRebuild (r : Resilience) :
    Resilience × Option (Bytes × UInt32) :=
  if !r.fecRxHaveParity || r.fecRxGroupSize == 0 then
    (r, none)
  else
    let slots := List.range r.fecRxGroupSize
    let filled := slots.countP r.fecSlotMatches
    let emptySlot :=
      slots.foldl
        (fun slot i => if (r.fecBufs i).length = 0 then i else slot) 0
    let foreign :=
      slots.any fun i =>
        !r.fecSlotMatches i && decide ((r.fecBufs i).length > 0)
    if filled = r.fecRxGroupSize then
      (fecRxClearGroup r, none)
    else if filled ≠ r.fecRxGroupSize - 1 ∨ foreign then
      (r, none)
    else
      let payload :=
        slots.foldl
          (fun out i =>
            if i ≠ emptySlot ∧ r.fecSlotMatches i then
              xorBytes out (r.fecBufs i)
            else
              out)
          r.fecRxParity
      (fecRxClearGroup r,
        some (payload, r.fecRxGroupStartSeq + UInt32.ofNat emptySlot))

/-! ## The parity payload -/

/-- The parity of a completed group is its six-byte header and the longest
payload of the group. -/
theorem fecTxAccumulate_parity
    {r r' : Resilience} {payload parity : Bytes} {seq : UInt32}
    {channel : UInt8}
    (emitted : fecTxAccumulate r payload seq channel = (r', some parity)) :
    parity.length =
      6 + max (r.fecOpenGroup seq channel).fecParityLen payload.length := by
  unfold fecTxAccumulate at emitted
  split at emitted
  · cases emitted
  · dsimp only at emitted
    split at emitted
    · simp only [Prod.mk.injEq, Option.some.injEq] at emitted
      rw [← emitted.2]
      simp [Resilience.fecAbsorb]
      omega
    · cases emitted

/-! ## Cases of the sender -/

/-- FEC is on, so that a data packet goes into a group. -/
def Resilience.fecOn (r : Resilience) : Prop :=
  r.fecEnabled = true ∧ r.fecGroupSize ≠ 0

instance (r : Resilience) : Decidable r.fecOn :=
  inferInstanceAs (Decidable (_ ∧ _))

/-- The parity payload of the group as it is. -/
def Resilience.fecParityPayload (r : Resilience) (channel : UInt8) : Bytes :=
  leBytes 4 r.fecGroupStartSeq.toNat ++
    [UInt8.ofNat r.fecGroupSize, channel] ++
    memSlice r.fecParityBuf 0 r.fecParityLen

section

variable {r : Resilience} (payload : Bytes) (seq : UInt32) (channel : UInt8)

theorem Resilience.fecOn_guard :
    (!r.fecEnabled || r.fecGroupSize == 0) = true ↔ ¬ r.fecOn := by
  unfold Resilience.fecOn
  cases r.fecEnabled
  · simp
  · simp

theorem fecTxAccumulate_off (off : ¬ r.fecOn) :
    fecTxAccumulate r payload seq channel = (r, none) := by
  unfold fecTxAccumulate
  rw [if_pos (Resilience.fecOn_guard.mpr off)]

/-- The packet joins the group, which is complete then or stays open. -/
theorem fecTxAccumulate_on (on : r.fecOn) :
    fecTxAccumulate r payload seq channel =
      let q := (r.fecOpenGroup seq channel).fecAbsorb payload
      if q.fecGroupPos ≥ q.fecGroupSize then
        ({ q with
            fecBufs := fun i => if i < q.fecGroupSize then [] else q.fecBufs i
            fecGroupPos := 0 }, some (q.fecParityPayload channel))
      else
        (q, none) := by
  unfold fecTxAccumulate
  rw [if_neg (mt Resilience.fecOn_guard.mp (not_not.mpr on))]
  rfl

end

/-! ## What the metrics leave alone -/

/-- The state of FEC, but for the switch and the group size. -/
structure SameFec (r r' : Resilience) : Prop where
  position : r'.fecGroupPos = r.fecGroupPos
  startSeq : r'.fecGroupStartSeq = r.fecGroupStartSeq
  channel : r'.fecChannelId = r.fecChannelId
  parity : r'.fecParityBuf = r.fecParityBuf
  length : r'.fecParityLen = r.fecParityLen
  rxParity : r'.fecRxParity = r.fecRxParity

theorem SameFec.refl (r : Resilience) : SameFec r r :=
  ⟨rfl, rfl, rfl, rfl, rfl, rfl⟩

theorem sameFec_resilienceRecordRx
    (r : Resilience) (idx : Nat) (rtt : UInt64) :
    SameFec r (resilienceRecordRx r idx rtt) ∧
      (resilienceRecordRx r idx rtt).fecGroupSize = r.fecGroupSize := by
  unfold resilienceRecordRx
  split
  · exact ⟨SameFec.refl r, rfl⟩
  · exact ⟨⟨rfl, rfl, rfl, rfl, rfl, rfl⟩, rfl⟩

theorem sameFec_resilienceRecordLoss (r : Resilience) (idx : Nat) :
    SameFec r (resilienceRecordLoss r idx) ∧
      (resilienceRecordLoss r idx).fecGroupSize = r.fecGroupSize := by
  unfold resilienceRecordLoss
  split
  · exact ⟨SameFec.refl r, rfl⟩
  · exact ⟨⟨rfl, rfl, rfl, rfl, rfl, rfl⟩, rfl⟩

theorem abrChoice_group (maxLoss : Nat) : (abrChoice maxLoss).2 ≤ 8 := by
  unfold abrChoice
  split
  · exact Nat.zero_le 8
  · split
    · exact Nat.le_refl 8
    · split
      · decide
      · decide

/-- `abr_update` changes the switch and the group size only. -/
theorem abrUpdate_fec (ctx : AbrCtx) (r : Resilience) (now : UInt64) :
    SameFec r (abrUpdate ctx r now).2 ∧
      ((abrUpdate ctx r now).2.fecGroupSize = r.fecGroupSize ∨
        (abrUpdate ctx r now).2.fecGroupSize ≤ 8) := by
  unfold abrUpdate
  split
  · exact ⟨SameFec.refl r, Or.inl rfl⟩
  · split
    · exact ⟨SameFec.refl r, Or.inl rfl⟩
    · dsimp only
      split
      · exact ⟨⟨rfl, rfl, rfl, rfl, rfl, rfl⟩, Or.inr (abrChoice_group _)⟩
      · exact ⟨SameFec.refl r, Or.inl rfl⟩

/-! ## What reassembly leaves alone -/

/-- The replay windows of the paths and the fields that select one. -/
structure SameWindows (r r' : Resilience) : Prop where
  multipath : r'.multipathEnabled = r.multipathEnabled
  pathCount : r'.pathCount = r.pathCount
  lastSeq : ∀ i, (r'.paths i).lastSeq = (r.paths i).lastSeq
  recvBitmap : ∀ i, (r'.paths i).recvBitmap = (r.paths i).recvBitmap

theorem SameWindows.of_paths
    {r r' : Resilience} (multipath : r'.multipathEnabled = r.multipathEnabled)
    (pathCount : r'.pathCount = r.pathCount) (paths : r'.paths = r.paths) :
    SameWindows r r' :=
  ⟨multipath, pathCount, fun i => by rw [paths], fun i => by rw [paths]⟩

theorem SameWindows.refl (r : Resilience) : SameWindows r r :=
  SameWindows.of_paths rfl rfl rfl

theorem SameWindows.trans
    {r s t : Resilience} (first : SameWindows r s)
    (second : SameWindows s t) : SameWindows r t where
  multipath := second.multipath.trans first.multipath
  pathCount := second.pathCount.trans first.pathCount
  lastSeq := fun i => (second.lastSeq i).trans (first.lastSeq i)
  recvBitmap := fun i => (second.recvBitmap i).trans (first.recvBitmap i)

theorem sameWindows_resilienceRecordRx
    (r : Resilience) (idx : Nat) (rtt : UInt64) :
    SameWindows r (resilienceRecordRx r idx rtt) := by
  unfold resilienceRecordRx
  split
  · exact SameWindows.refl r
  · refine ⟨rfl, rfl, fun i => ?_, fun i => ?_⟩
    · simp only [Resilience.setPath, PathMetrics.record, updateLossRate,
        PathMetrics.recordRtt]
      split
      · split <;> rfl
      · rfl
    · simp only [Resilience.setPath, PathMetrics.record, updateLossRate,
        PathMetrics.recordRtt]
      split
      · split <;> rfl
      · rfl

theorem sameWindows_fecRxTrack
    (r : Resilience) (seq : UInt32) (payload : Bytes) :
    SameWindows r (fecRxTrack r seq payload) := by
  unfold fecRxTrack
  split
  · exact SameWindows.refl r
  · exact SameWindows.of_paths rfl rfl rfl

theorem sameWindows_fecRxStoreParity (r : Resilience) (wire : Bytes) :
    SameWindows r (fecRxStoreParity r wire) := by
  unfold fecRxStoreParity
  split
  · exact SameWindows.refl r
  · exact SameWindows.of_paths rfl rfl rfl

theorem sameWindows_fecRxRebuild (r : Resilience) :
    SameWindows r (fecRxRebuild r).1 := by
  unfold fecRxRebuild
  split
  · exact SameWindows.refl r
  · dsimp only
    split
    · exact SameWindows.of_paths rfl rfl rfl
    · split
      · exact SameWindows.refl r
      · exact SameWindows.of_paths rfl rfl rfl

end PqComm
