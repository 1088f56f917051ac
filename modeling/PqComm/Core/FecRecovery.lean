import Mathlib.Data.List.Nodup
import Mathlib.Tactic.IntervalCases
import PqComm.Core.Resilience
import PqComm.Lib.Parity
import PqComm.Lib.Runs

/-!
# What forward error correction recovers

The receiver keeps the packet with number `seq` in slot `seq % group size` and
looks for packet `i` of a group in slot `i`.  It takes the parity, which is as
long as the longest packet of the group, and the packets it has for the packet
it lacks.
-/

namespace PqComm

open Lib

/-! ## `fec_rx_rebuild` -/

/-- Of the group of the stored parity, packet `e` alone is not there, and its
slot is free. -/
structure MissingOnly (r : Resilience) (e : Nat) : Prop where
  inGroup : e < r.fecRxGroupSize
  free : r.fecBufs e = []
  others :
    ∀ i, i < r.fecRxGroupSize → i ≠ e → r.fecSlotMatches i = true

/-- The stored parity and the other packets of the group. -/
def Resilience.fecRebuiltPayload (r : Resilience) (e : Nat) : Bytes :=
  (((List.range r.fecRxGroupSize).filter fun i => decide (i ≠ e)).map
    r.fecBufs).foldl xorBytes r.fecRxParity

section

variable {r : Resilience} {e : Nat}

theorem fecSlotMatches_filled {i : Nat} (here : r.fecSlotMatches i = true) :
    r.fecBufs i ≠ [] ∧
      r.fecRxSeqs i = r.fecRxGroupStartSeq + UInt32.ofNat i := by
  unfold Resilience.fecSlotMatches at here
  rw [Bool.and_eq_true, decide_eq_true_eq, beq_iff_eq] at here
  exact ⟨List.ne_nil_of_length_pos here.1, here.2⟩

theorem fecSlotMatches_free {i : Nat} (free : r.fecBufs i = []) :
    r.fecSlotMatches i = false := by
  simp [Resilience.fecSlotMatches, free]

/-- The slots of the group that do not hold their packet. -/
def Resilience.fecAbsent (r : Resilience) : List Nat :=
  (List.range r.fecRxGroupSize).filter fun i => !r.fecSlotMatches i

theorem mem_fecAbsent {i : Nat} :
    i ∈ r.fecAbsent ↔ i < r.fecRxGroupSize ∧ r.fecSlotMatches i = false := by
  simp [Resilience.fecAbsent]

theorem countP_fecSlotMatches :
    (List.range r.fecRxGroupSize).countP r.fecSlotMatches +
      r.fecAbsent.length = r.fecRxGroupSize := by
  have counted :=
    List.length_eq_countP_add_countP r.fecSlotMatches
      (l := List.range r.fecRxGroupSize)
  rw [List.length_range] at counted
  rw [Resilience.fecAbsent, ← List.countP_eq_length_filter]
  simpa using counted.symm

theorem MissingOnly.absent (missing : MissingOnly r e) :
    r.fecAbsent = [e] := by
  have same :
      r.fecAbsent =
        (List.range r.fecRxGroupSize).filter fun i => decide (i = e) := by
    apply List.filter_congr
    intro i member
    by_cases here : i = e
    · rw [here, fecSlotMatches_free missing.free]
      simp
    · rw [missing.others i (List.mem_range.mp member) here]
      simp [here]
  rw [same, List.filter_eq e, List.count_range, if_pos missing.inGroup]
  rfl

/-- A slot that does not hold its packet and is not free holds another. -/
theorem missingOnly_of_absent
    (absent : r.fecAbsent = [e])
    (own :
      ∀ i, i < r.fecRxGroupSize → r.fecSlotMatches i = false →
        r.fecBufs i = []) :
    MissingOnly r e := by
  have here : e ∈ r.fecAbsent := by
    rw [absent]
    exact List.mem_singleton_self e
  obtain ⟨inGroup, lacks⟩ := mem_fecAbsent.mp here
  refine ⟨inGroup, own e inGroup lacks, fun i inside other => ?_⟩
  cases holds : r.fecSlotMatches i with
  | true => rfl
  | false =>
      have also : i ∈ r.fecAbsent := mem_fecAbsent.mpr ⟨inside, holds⟩
      rw [absent] at also
      exact absurd (List.mem_singleton.mp also) other

/-- The last free slot is the slot of the missing packet. -/
theorem MissingOnly.emptySlot (missing : MissingOnly r e) :
    (List.range r.fecRxGroupSize).foldl
        (fun slot i => if (r.fecBufs i).length = 0 then i else slot) 0 =
      e := by
  have free :
      ((List.range r.fecRxGroupSize).filter fun i =>
        decide ((r.fecBufs i).length = 0)) = [e] := by
    rw [← missing.absent]
    apply List.filter_congr
    intro i member
    by_cases here : i = e
    · rw [here, fecSlotMatches_free missing.free, missing.free]
      rfl
    · have holds := missing.others i (List.mem_range.mp member) here
      have filled := (fecSlotMatches_filled holds).1
      rw [holds]
      simpa using filled
  have picked :
      ((List.range r.fecRxGroupSize).filter fun i =>
          decide ((r.fecBufs i).length = 0)).foldl (fun _ i => i) 0 =
        _ :=
    List.foldl_filter
  rw [free] at picked
  simpa using picked.symm

theorem MissingOnly.payload (missing : MissingOnly r e) :
    (List.range r.fecRxGroupSize).foldl
        (fun out i =>
          if i ≠ e ∧ r.fecSlotMatches i then
            xorBytes out (r.fecBufs i)
          else
            out)
        r.fecRxParity =
      r.fecRebuiltPayload e := by
  unfold Resilience.fecRebuiltPayload
  rw [List.foldl_map, List.foldl_filter]
  apply List.foldl_ext
  intro out i member
  by_cases here : i = e
  · simp [here]
  · simp [here, missing.others i (List.mem_range.mp member) here]

theorem fecRxRebuild_missing
    (stored : r.fecRxHaveParity = true) (missing : MissingOnly r e) :
    fecRxRebuild r =
      (fecRxClearGroup r,
        some (r.fecRebuiltPayload e,
          r.fecRxGroupStartSeq + UInt32.ofNat e)) := by
  have inGroup := missing.inGroup
  have counted := countP_fecSlotMatches (r := r)
  rw [missing.absent, List.length_singleton] at counted
  have foreign :
      ((List.range r.fecRxGroupSize).any fun i =>
        !r.fecSlotMatches i && decide ((r.fecBufs i).length > 0)) =
        false := by
    rw [List.any_eq_false]
    intro i member
    by_cases here : i = e
    · simp [here, missing.free]
    · simp [missing.others i (List.mem_range.mp member) here]
  unfold fecRxRebuild
  rw [if_neg (by simp [stored]; omega)]
  dsimp only
  rw [if_neg (by omega), foreign, if_neg (by simp; omega), missing.emptySlot,
    missing.payload]

/-- With two packets of the group not there, nothing is done. -/
theorem fecRxRebuild_waits
    {i j : Nat} (first : i ∈ r.fecAbsent) (second : j ∈ r.fecAbsent)
    (apart : i ≠ j) : fecRxRebuild r = (r, none) := by
  have many : 2 ≤ r.fecAbsent.length := by
    by_contra few
    obtain ⟨e, only⟩ : ∃ e, r.fecAbsent = [e] := by
      apply List.length_eq_one_iff.mp
      have some := List.length_pos_of_mem first
      omega
    rw [only, List.mem_singleton] at first second
    exact apart (first.trans second.symm)
  have counted := countP_fecSlotMatches (r := r)
  unfold fecRxRebuild
  split
  · rfl
  · dsimp only
    rw [if_neg (by omega), if_pos (by left; omega)]

theorem fecRxRebuild_idle (empty : r.fecRxHaveParity = false) :
    fecRxRebuild r = (r, none) := by
  simp [fecRxRebuild, empty]

/-- What a rebuilt packet is made of. -/
theorem missingOnly_of_fecRxRebuild
    {payload : Bytes} {seq : UInt32}
    (rebuilt : (fecRxRebuild r).2 = some (payload, seq)) :
    r.fecRxHaveParity = true ∧
      ∃ e, MissingOnly r e ∧ payload = r.fecRebuiltPayload e ∧
        seq = r.fecRxGroupStartSeq + UInt32.ofNat e := by
  have stored : r.fecRxHaveParity = true := by
    cases empty : r.fecRxHaveParity with
    | true => rfl
    | false =>
        rw [fecRxRebuild_idle empty] at rebuilt
        cases rebuilt
  refine ⟨stored, ?_⟩
  have missing : ∃ e, MissingOnly r e := by
    unfold fecRxRebuild at rebuilt
    split at rebuilt
    · cases rebuilt
    · rename_i grouped
      dsimp only at rebuilt
      split at rebuilt
      · cases rebuilt
      · rename_i incomplete
        split at rebuilt
        · cases rebuilt
        · rename_i single
          simp only [not_or, ne_eq, not_not, Bool.not_eq_true,
            List.any_eq_false] at single
          have counted := countP_fecSlotMatches (r := r)
          obtain ⟨e, absent⟩ : ∃ e, r.fecAbsent = [e] := by
            apply List.length_eq_one_iff.mp
            omega
          refine ⟨e, missingOnly_of_absent absent fun i inside lacks => ?_⟩
          have own := single.2 i (List.mem_range.mpr inside)
          simpa [lacks] using own
  obtain ⟨e, missing⟩ := missing
  rw [fecRxRebuild_missing stored missing] at rebuilt
  cases rebuilt
  exact ⟨e, missing, rfl, rfl⟩

end

/-! ## The parity of a group -/

/-- The data packets of a sender: each number has one payload. -/
structure FecStream where
  text : UInt32 → Bytes
  filled : ∀ seq, text seq ≠ []
  short : ∀ seq, (text seq).length ≤ fecMaxPayload

/-- The four packets from a number on. -/
def FecStream.group (stream : FecStream) (start : UInt32) :
    List (UInt32 × Bytes) :=
  (List.range 4).map fun i =>
    (start + UInt32.ofNat i, stream.text (start + UInt32.ofNat i))

def FecStream.groupTexts (stream : FecStream) (start : UInt32) : List Bytes :=
  (List.range 4).map fun i => stream.text (start + UInt32.ofNat i)

/-- The parity payloads that consecutive calls of `fec_tx_accumulate`
return. -/
def fecParities (channel : UInt8) :
    Resilience → List (UInt32 × Bytes) → List Bytes :=
  emitted
    (fun r packet => (fecTxAccumulate r packet.2 packet.1 channel).1)
    (fun r packet => (fecTxAccumulate r packet.2 packet.1 channel).2.toList)

theorem fecParities_cons
    (channel : UInt8) (r : Resilience) (seq : UInt32) (payload : Bytes)
    (rest : List (UInt32 × Bytes)) :
    fecParities channel r ((seq, payload) :: rest) =
      (fecTxAccumulate r payload seq channel).2.toList ++
        fecParities channel (fecTxAccumulate r payload seq channel).1 rest :=
  rfl

/-- A sender with groups of four that is about to begin one. -/
structure FecReady (r : Resilience) : Prop where
  enabled : r.fecEnabled = true
  size : r.fecGroupSize = 4
  first : r.fecGroupPos = 0

/-- A group of four that begins with `start` and holds `texts` so far. -/
structure FecSending (r : Resilience) (start : UInt32) (texts : List Bytes) :
    Prop where
  enabled : r.fecEnabled = true
  size : r.fecGroupSize = 4
  position : r.fecGroupPos = texts.length
  begun :
    texts ≠ [] →
      r.fecGroupStartSeq = start ∧ r.fecParityLen = maxLength texts ∧
        ∀ k, k < fecMaxPayload → r.fecParityBuf k = parityAt texts k

/-- The payload of a parity packet. -/
def parityWire (start : UInt32) (channel : UInt8) (texts : List Bytes) :
    Bytes :=
  leBytes 4 start.toNat ++ [4, channel] ++ parityBytes texts

section

variable {r : Resilience} {start seq : UInt32} {texts : List Bytes}
  {payload : Bytes}

theorem FecReady.sending (ready : FecReady r) (start : UInt32) :
    FecSending r start [] :=
  ⟨ready.enabled, ready.size, ready.first, fun filled => absurd rfl filled⟩

theorem xorInto_eq (mem : Mem) (payload : Bytes) {k : Nat}
    (inside : k < fecMaxPayload) :
    xorInto mem payload k = mem k ^^^ payload.getD k 0 := by
  unfold xorInto
  by_cases present : k < payload.length
  · rw [if_pos ⟨present, inside⟩]
  · rw [if_neg (fun both => present both.1),
      List.getD_eq_default _ _ (Nat.not_lt.mp present), UInt8.xor_zero]

/-- The next packet of a group joins it. -/
theorem FecSending.absorb
    (sending : FecSending r start texts) (few : texts.length < 4)
    (next : texts = [] → seq = start) (channel : UInt8) (payload : Bytes) :
    FecSending ((r.fecOpenGroup seq channel).fecAbsorb payload) start
      (texts ++ [payload]) := by
  have opened :
      let q := r.fecOpenGroup seq channel
      q.fecEnabled = true ∧ q.fecGroupSize = 4 ∧
        q.fecGroupPos = texts.length ∧ q.fecGroupStartSeq = start ∧
        q.fecParityLen = maxLength texts ∧
        ∀ k, k < fecMaxPayload → q.fecParityBuf k = parityAt texts k := by
    intro q
    by_cases empty : texts = []
    · have first : r.fecGroupPos = 0 := by
        rw [sending.position, empty]
        rfl
      have new : q =
          { r with
            fecGroupStartSeq := seq
            fecChannelId := channel
            fecParityLen := 0
            fecParityBuf := fun i =>
              if i < fecMaxPayload then 0 else r.fecParityBuf i
            fecBufs := fun i =>
              if i < r.fecGroupSize then [] else r.fecBufs i } :=
        if_pos first
      rw [new, empty]
      exact ⟨sending.enabled, sending.size, first, next empty, rfl,
        fun k inside => if_pos inside⟩
    · have later : r.fecGroupPos ≠ 0 := by
        rw [sending.position]
        exact fun none => empty (List.length_eq_zero_iff.mp none)
      have same : q = r := if_neg later
      rw [same]
      exact ⟨sending.enabled, sending.size, sending.position,
        sending.begun empty⟩
  obtain ⟨enabled, size, position, first, length, sums⟩ := opened
  refine ⟨enabled, size, ?_, fun _ => ⟨first, ?_, fun k inside => ?_⟩⟩
  · change (_ + 1) % 256 = _
    rw [position, List.length_append, List.length_singleton]
    exact Nat.mod_eq_of_lt (by omega)
  · change max _ payload.length = _
    rw [length, maxLength_append]
    simp [maxLength]
  · change xorInto _ payload k = _
    rw [xorInto_eq _ _ inside, sums k inside, parityAt_append]
    simp [parityAt]

theorem FecSending.accumulate_open
    (sending : FecSending r start texts) (few : texts.length < 3)
    (next : texts = [] → seq = start) (channel : UInt8) (payload : Bytes) :
    ∃ q,
      fecTxAccumulate r payload seq channel = (q, none) ∧
        FecSending q start (texts ++ [payload]) := by
  have joined := sending.absorb (by omega) next channel payload
  have on : r.fecOn := ⟨sending.enabled, by rw [sending.size]; decide⟩
  have accumulated := fecTxAccumulate_on payload seq channel on
  dsimp only at accumulated
  rw [if_neg (by rw [joined.position, joined.size]; simp; omega)]
    at accumulated
  exact ⟨_, accumulated, joined⟩

theorem FecSending.accumulate_full
    (sending : FecSending r start texts) (few : texts.length = 3)
    (seq : UInt32) (channel : UInt8) (payload : Bytes)
    (short : ∀ text ∈ texts ++ [payload], text.length ≤ fecMaxPayload) :
    (fecTxAccumulate r payload seq channel).2 =
      some (parityWire start channel (texts ++ [payload])) := by
  have later : texts ≠ [] := fun empty => by simp [empty] at few
  have joined :
      FecSending ((r.fecOpenGroup seq channel).fecAbsorb payload) start
        (texts ++ [payload]) :=
    sending.absorb (by omega) (fun empty => absurd empty later) channel
      payload
  have on : r.fecOn := ⟨sending.enabled, by rw [sending.size]; decide⟩
  obtain ⟨first, length, sums⟩ := joined.begun (by simp)
  have accumulated := fecTxAccumulate_on payload seq channel on
  dsimp only at accumulated
  rw [if_pos (by rw [joined.position, joined.size]; simp; omega)]
    at accumulated
  rw [accumulated]
  dsimp only
  rw [Resilience.fecParityPayload, first, joined.size, length, parityWire]
  congr 2
  unfold memSlice parityBytes
  apply List.map_congr_left
  intro k member
  have inside := List.mem_range.mp member
  rw [Nat.zero_add]
  exact sums k (Nat.lt_of_lt_of_le inside (maxLength_le_iff.mpr short))

/-- The packets that fill up a group give its parity. -/
theorem FecSending.parities
    {packets : List (UInt32 × Bytes)}
    (sending : FecSending r start texts)
    (fills : texts.length + packets.length = 4) (channel : UInt8)
    (next : texts = [] → ∀ packet ∈ packets.head?, packet.1 = start)
    (some : packets ≠ [])
    (short :
      ∀ text ∈ texts ++ packets.map Prod.snd, text.length ≤ fecMaxPayload) :
    fecParities channel r packets =
      [parityWire start channel (texts ++ packets.map Prod.snd)] := by
  induction packets generalizing r texts with
  | nil =>
      exact absurd rfl some
  | cons packet rest inductionHypothesis =>
      obtain ⟨seq, payload⟩ := packet
      cases rest with
      | nil =>
          have full :=
            sending.accumulate_full (by simpa using fills) seq channel payload
              short
          rw [fecParities_cons, full]
          rfl
      | cons other rest =>
          have few : texts.length < 3 := by
            simp only [List.length_cons] at fills
            omega
          obtain ⟨q, joined, holds⟩ :=
            sending.accumulate_open few
              (fun empty => next empty (seq, payload) rfl) channel payload
          have later :=
            inductionHypothesis holds
              (by
                simp only [List.length_append, List.length_cons,
                  List.length_nil] at fills ⊢
                omega)
              (by simp) (by simp) (by simpa using short)
          rw [fecParities_cons, joined]
          simpa using later

end

/-- The sender returns one parity for a group of four. -/
theorem FecStream.parities
    (stream : FecStream) {sender : Resilience} (ready : FecReady sender)
    (start : UInt32) (channel : UInt8) :
    fecParities channel sender (stream.group start) =
      [parityWire start channel (stream.groupTexts start)] := by
  have texts :
      (stream.group start).map Prod.snd = stream.groupTexts start := by
    rw [FecStream.group, FecStream.groupTexts, List.map_map]
    rfl
  rw [← texts]
  refine (ready.sending start).parities rfl channel ?_ nofun ?_
  · rintro - packet ⟨⟩
    exact UInt32.add_zero start
  · intro text member
    rw [List.nil_append, texts, FecStream.groupTexts, List.mem_map] at member
    obtain ⟨i, -, rfl⟩ := member
    exact stream.short _

/-! ## What the receiver holds -/

/-- The calls of a receiver. -/
inductive FecRxAct where
  | track (seq : UInt32) (payload : Bytes)
  | storeParity (wire : Bytes)
  | rebuild

def fecRxStep (r : Resilience) : FecRxAct → Resilience
  | .track seq payload => fecRxTrack r seq payload
  | .storeParity wire => fecRxStoreParity r wire
  | .rebuild => (fecRxRebuild r).1

def fecRxRun (r : Resilience) (acts : List FecRxAct) : Resilience :=
  acts.foldl fecRxStep r

/-- The packets are those of the stream, and the parities are made from
them. -/
def FecStream.Genuine (stream : FecStream) : FecRxAct → Prop
  | .track seq payload => payload = stream.text seq
  | .storeParity wire =>
      ∃ sender channel start, FecReady sender ∧
        wire ∈ fecParities channel sender (stream.group start)
  | .rebuild => True

/-- A receiver of groups of four that holds nothing. -/
structure FecFresh (r : Resilience) : Prop where
  size : r.fecGroupSize = 4
  slots : ∀ i, r.fecBufs i = []
  noParity : r.fecRxHaveParity = false

/-- Every slot in use holds the packet of the number that is noted for it, and
the parity is that of its group. -/
structure FecSound (stream : FecStream) (r : Resilience) : Prop where
  slots :
    ∀ i, r.fecBufs i ≠ [] → r.fecBufs i = stream.text (r.fecRxSeqs i)
  parity :
    r.fecRxHaveParity = true →
      r.fecRxGroupSize = 4 ∧
        r.fecRxParity = parityBytes (stream.groupTexts r.fecRxGroupStartSeq)

section

variable {stream : FecStream} {r : Resilience}

theorem FecFresh.sound (fresh : FecFresh r) : FecSound stream r := by
  constructor
  · intro i filled
    exact absurd (fresh.slots i) filled
  · intro stored
    rw [fresh.noParity] at stored
    cases stored

theorem maxLength_groupTexts (stream : FecStream) (start : UInt32) :
    maxLength (stream.groupTexts start) ≤ fecMaxPayload := by
  rw [maxLength_le_iff]
  intro text member
  obtain ⟨i, -, rfl⟩ := List.mem_map.mp member
  exact stream.short _

/-- What the receiver takes from a parity payload. -/
theorem fecRxStoreParity_wire
    (r : Resilience) (start : UInt32) (channel : UInt8) {texts : List Bytes}
    (short : maxLength texts ≤ fecMaxPayload) :
    fecRxStoreParity r (parityWire start channel texts) =
      { r with
        fecRxGroupStartSeq := start
        fecRxGroupSize := 4
        fecRxChannelId := channel
        fecRxParity := parityBytes texts
        fecRxHaveParity := true } := by
  have long : ¬ (parityWire start channel texts).length < 6 := by
    simp [parityWire]
    omega
  have number :
      UInt32.ofNat (leNat ((parityWire start channel texts).take 4)) =
        start :=
    uint32_leNat_leBytes start
  have body :
      ((parityWire start channel texts).drop 6).take fecMaxPayload =
        parityBytes texts := by
    have behind : (parityWire start channel texts).drop 6 =
        parityBytes texts :=
      List.drop_left' (by simp)
    rw [behind]
    exact List.take_of_length_le (by rw [length_parityBytes]; exact short)
  unfold fecRxStoreParity
  rw [if_neg long, number, body]
  rfl

theorem FecSound.track (sound : FecSound stream r) (seq : UInt32) :
    FecSound stream (fecRxTrack r seq (stream.text seq)) := by
  have whole : (stream.text seq).take fecMaxPayload = stream.text seq :=
    List.take_of_length_le (stream.short seq)
  unfold fecRxTrack
  split
  · exact sound
  · dsimp only
    rw [whole]
    refine ⟨fun i filled => ?_, sound.parity⟩
    by_cases here : i = seq.toNat % r.fecGroupSize
    · simp only [here, if_true]
    · simp only [here, if_false] at filled ⊢
      exact sound.slots i filled

theorem FecSound.clear (sound : FecSound stream r) :
    FecSound stream (fecRxClearGroup r) := by
  refine ⟨fun i filled => ?_, nofun⟩
  unfold fecRxClearGroup at filled ⊢
  by_cases inside : i < resilienceFecGroup
  · simp only [inside, if_true] at filled
    exact absurd rfl filled
  · simp only [inside, if_false] at filled ⊢
    exact sound.slots i filled

theorem FecSound.rebuild (sound : FecSound stream r) :
    FecSound stream (fecRxRebuild r).1 := by
  unfold fecRxRebuild
  split
  · exact sound
  · dsimp only
    split
    · exact sound.clear
    · split
      · exact sound
      · exact sound.clear

theorem FecSound.step
    (sound : FecSound stream r) {act : FecRxAct}
    (genuine : stream.Genuine act) : FecSound stream (fecRxStep r act) := by
  cases act with
  | track seq payload =>
      rw [show payload = stream.text seq from genuine]
      exact sound.track seq
  | storeParity wire =>
      obtain ⟨sender, channel, start, ready, made⟩ := genuine
      rw [stream.parities ready, List.mem_singleton] at made
      rw [made]
      change FecSound stream (fecRxStoreParity r _)
      rw [fecRxStoreParity_wire r start channel
        (maxLength_groupTexts stream start)]
      exact ⟨sound.slots, fun _ => ⟨rfl, rfl⟩⟩
  | rebuild =>
      exact sound.rebuild

theorem FecSound.run
    (sound : FecSound stream r) {acts : List FecRxAct}
    (genuine : ∀ act ∈ acts, stream.Genuine act) :
    FecSound stream (fecRxRun r acts) := by
  induction acts generalizing r with
  | nil =>
      exact sound
  | cons act rest inductionHypothesis =>
      rw [List.forall_mem_cons] at genuine
      exact inductionHypothesis (sound.step genuine.1) genuine.2

/-- The group with one packet taken out. -/
theorem groupTexts_split (stream : FecStream) (start : UInt32) {e : Nat}
    (inside : e < 4) :
    ∃ before after,
      stream.groupTexts start =
          before ++ stream.text (start + UInt32.ofNat e) :: after ∧
        (((List.range 4).filter fun i => decide (i ≠ e)).map fun i =>
          stream.text (start + UInt32.ofNat i)) = before ++ after := by
  refine ⟨(List.range e).map fun i => stream.text (start + UInt32.ofNat i),
    (List.range' (e + 1) (3 - e)).map fun i =>
      stream.text (start + UInt32.ofNat i), ?_, ?_⟩
  · interval_cases e <;> rfl
  · interval_cases e <;> rfl

/-- What a sound receiver rebuilds. -/
theorem FecSound.rebuilt
    (sound : FecSound stream r) (stored : r.fecRxHaveParity = true) {e : Nat}
    (missing : MissingOnly r e) :
    r.fecRebuiltPayload e =
      padTo (maxLength (stream.groupTexts r.fecRxGroupStartSeq))
        (stream.text (r.fecRxGroupStartSeq + UInt32.ofNat e)) := by
  obtain ⟨size, parity⟩ := sound.parity stored
  have inside : e < 4 := size ▸ missing.inGroup
  have held :
      ((List.range 4).filter fun i => decide (i ≠ e)).map r.fecBufs =
        ((List.range 4).filter fun i => decide (i ≠ e)).map fun i =>
          stream.text (r.fecRxGroupStartSeq + UInt32.ofNat i) := by
    apply List.map_congr_left
    intro i member
    obtain ⟨inRange, other⟩ := List.mem_filter.mp member
    have here :=
      missing.others i (by rw [size]; exact List.mem_range.mp inRange)
        (of_decide_eq_true other)
    obtain ⟨filled, number⟩ := fecSlotMatches_filled here
    rw [sound.slots i filled, number]
  obtain ⟨before, after, whole, others⟩ :=
    groupTexts_split stream r.fecRxGroupStartSeq inside
  rw [Resilience.fecRebuiltPayload, size, held, others, parity, whole]
  exact foldl_xorBytes_parityBytes before after _

/-- Packet 4 has one byte, the others have two. -/
def sampleStream : FecStream where
  text := fun seq => if seq = 4 then [1] else [1, 2]
  filled := by
    intro seq
    split <;> simp
  short := by
    intro seq
    split <;> simp [fecMaxPayload]

theorem fecReady_resilienceInit : FecReady resilienceInit :=
  ⟨rfl, rfl, rfl⟩

theorem fecFresh_resilienceInit : FecFresh resilienceInit :=
  ⟨rfl, fun _ => rfl, rfl⟩

/-- Whatever a receiver has heard of a stream, in whatever order, what it
rebuilds is a packet of the group of its parity, up to zeros. -/
theorem fec_rebuilds_genuine
    (fresh : FecFresh r) {acts : List FecRxAct}
    (genuine : ∀ act ∈ acts, stream.Genuine act) {payload : Bytes}
    {seq : UInt32}
    (rebuilt : (fecRxRebuild (fecRxRun r acts)).2 = some (payload, seq)) :
    let start := (fecRxRun r acts).fecRxGroupStartSeq
    (∃ i, i < 4 ∧ seq = start + UInt32.ofNat i) ∧
      payload =
        padTo (maxLength (stream.groupTexts start)) (stream.text seq) := by
  intro start
  have sound : FecSound stream (fecRxRun r acts) :=
    fresh.sound.run genuine
  obtain ⟨stored, e, missing, made, number⟩ :=
    missingOnly_of_fecRxRebuild rebuilt
  have inside : e < 4 := (sound.parity stored).1 ▸ missing.inGroup
  refine ⟨⟨e, inside, number⟩, ?_⟩
  rw [made, number]
  exact sound.rebuilt stored missing

end

/-- Packets 5, 6 and 7 and the parity of the group from 4 on. -/
def sampleHeard : List FecRxAct :=
  [.track 5 [1, 2], .track 6 [1, 2],
    .storeParity (parityWire 4 1 (sampleStream.groupTexts 4)),
    .track 7 [1, 2]]

theorem fec_rebuilds_genuine_sample :
    (fecRxRebuild (fecRxRun resilienceInit sampleHeard)).2 =
        some ([1, 0], 4) ∧
      ([1, 0] : Bytes) =
        padTo (maxLength (sampleStream.groupTexts 4))
          (sampleStream.text 4) := by
  have rebuilt :
      (fecRxRebuild (fecRxRun resilienceInit sampleHeard)).2 =
        some ([1, 0], 4) := by
    decide +kernel
  have genuine : ∀ act ∈ sampleHeard, sampleStream.Genuine act := by
    have made :
        sampleStream.Genuine
          (.storeParity (parityWire 4 1 (sampleStream.groupTexts 4))) := by
      refine ⟨resilienceInit, 1, 4, fecReady_resilienceInit, ?_⟩
      rw [sampleStream.parities fecReady_resilienceInit]
      exact List.mem_singleton_self _
    simp only [sampleHeard, List.forall_mem_cons]
    exact ⟨rfl, rfl, made, rfl, List.forall_mem_nil _⟩
  exact ⟨rebuilt,
    (fec_rebuilds_genuine fecFresh_resilienceInit genuine rebuilt).2⟩

/-! ## One packet of a group missing -/

/-- A packet of a group, by its place, or the parity. -/
inductive FecArrival where
  | packet (i : Nat)
  | parity
  deriving DecidableEq

/-- What the receiver calls for an arrival. -/
def FecStream.arrival
    (stream : FecStream) (start : UInt32) (wire : Bytes) :
    FecArrival → FecRxAct
  | .packet i =>
      .track (start + UInt32.ofNat i) (stream.text (start + UInt32.ofNat i))
  | .parity => .storeParity wire

/-- The parity and the packets of a group but one. -/
def arrivalsWithout (missing : Nat) : List FecArrival :=
  .parity ::
    ((List.range 4).filter fun i => decide (i ≠ missing)).map .packet

theorem packet_mem_arrivalsWithout {i missing : Nat} :
    .packet i ∈ arrivalsWithout missing ↔ i < 4 ∧ i ≠ missing := by
  simp [arrivalsWithout]

theorem nodup_arrivalsWithout (missing : Nat) :
    (arrivalsWithout missing).Nodup := by
  refine List.nodup_cons.mpr ⟨by simp, ?_⟩
  refine List.Nodup.map ?_ (List.nodup_range.filter _)
  intro i j same
  injection same

/-- Nothing is added to a packet of the group exactly when no packet of the
group is longer. -/
theorem FecStream.padTo_maxLength_iff
    (stream : FecStream) (start : UInt32) {missing : Nat}
    (inside : missing < 4) :
    padTo (maxLength (stream.groupTexts start))
          (stream.text (start + UInt32.ofNat missing)) =
        stream.text (start + UInt32.ofNat missing) ↔
      ∀ i, i < 4 →
        (stream.text (start + UInt32.ofNat i)).length ≤
          (stream.text (start + UInt32.ofNat missing)).length := by
  have member :
      stream.text (start + UInt32.ofNat missing) ∈ stream.groupTexts start :=
    List.mem_map.mpr ⟨missing, List.mem_range.mpr inside, rfl⟩
  have fits := length_le_maxLength member
  have bounded :
      maxLength (stream.groupTexts start) ≤
          (stream.text (start + UInt32.ofNat missing)).length ↔ _ :=
    maxLength_le_iff
  rw [padTo_eq_iff fits]
  constructor
  · intro full i below
    exact bounded.mp (Nat.le_of_eq full) _
      (List.mem_map.mpr ⟨i, List.mem_range.mpr below, rfl⟩)
  · intro all
    refine Nat.le_antisymm (bounded.mpr ?_) fits
    intro text chosen
    obtain ⟨i, below, rfl⟩ := List.mem_map.mp chosen
    exact all i (List.mem_range.mp below)

/-- What the sender and the stream give is genuine, whichever arrives. -/
theorem FecReady.genuine_arrival
    {sender : Resilience} (ready : FecReady sender) (stream : FecStream)
    (start : UInt32) (channel : UInt8) (arrival : FecArrival) :
    stream.Genuine
      (stream.arrival start
        (parityWire start channel (stream.groupTexts start)) arrival) := by
  cases arrival with
  | packet i =>
      rfl
  | parity =>
      refine ⟨sender, channel, start, ready, ?_⟩
      rw [stream.parities ready]
      exact List.mem_singleton_self _

/-- What the receiver rebuilds when it tries after every call. -/
def fecRecovered : Resilience → List FecRxAct → List (Bytes × UInt32) :=
  emitted (fun r act => (fecRxRebuild (fecRxStep r act)).1)
    (fun r act => (fecRxRebuild (fecRxStep r act)).2.toList)

theorem fecRecovered_cons
    (r : Resilience) (act : FecRxAct) (rest : List FecRxAct) :
    fecRecovered r (act :: rest) =
      (fecRxRebuild (fecRxStep r act)).2.toList ++
        fecRecovered (fecRxRebuild (fecRxStep r act)).1 rest :=
  rfl

theorem toNat_add_ofNat_mod_four (start : UInt32) (i : Nat) :
    (start + UInt32.ofNat i).toNat % 4 = (start.toNat + i) % 4 := by
  rw [UInt32.toNat_add, UInt32.toNat_ofNat']
  omega

/-- The receiver has the packets and the parity that are not pending. -/
structure FecWaiting (stream : FecStream) (start : UInt32) (missing : Nat)
    (pending : List FecArrival) (r : Resilience) : Prop where
  enabled : r.fecEnabled = true
  size : r.fecGroupSize = 4
  here :
    ∀ i, i < 4 → i ≠ missing → .packet i ∉ pending →
      r.fecBufs i = stream.text (start + UInt32.ofNat i) ∧
        r.fecRxSeqs i = start + UInt32.ofNat i
  absent : ∀ i, i = missing ∨ .packet i ∈ pending → r.fecBufs i = []
  noParity : .parity ∈ pending → r.fecRxHaveParity = false
  parity :
    .parity ∉ pending →
      r.fecRxHaveParity = true ∧ r.fecRxGroupStartSeq = start ∧
        r.fecRxGroupSize = 4

section

variable {stream : FecStream} {start : UInt32} {missing : Nat}
  {r : Resilience}

theorem FecFresh.waiting
    (fresh : FecFresh r) (enabled : r.fecEnabled = true)
    {order : List FecArrival}
    (arrives : ∀ arrival, arrival ∈ order ↔
      arrival ∈ arrivalsWithout missing) :
    FecWaiting stream start missing order r where
  enabled := enabled
  size := fresh.size
  here := by
    intro i inside other absent
    refine absurd ((arrives _).mpr ?_) absent
    exact packet_mem_arrivalsWithout.mpr ⟨inside, other⟩
  absent := fun i _ => fresh.slots i
  noParity := fun _ => fresh.noParity
  parity := by
    intro absent
    refine absurd ((arrives _).mpr ?_) absent
    simp [arrivalsWithout]

/-- In a group that begins at a multiple of four, a packet goes to the slot of
its place. -/
theorem FecWaiting.tracks
    {pending : List FecArrival}
    (waiting : FecWaiting stream start missing pending r)
    (aligned : start.toNat % 4 = 0) {k : Nat} (inside : k < 4) :
    fecRxTrack r (start + UInt32.ofNat k)
        (stream.text (start + UInt32.ofNat k)) =
      { r with
        fecBufs := fun i =>
          if i = k then stream.text (start + UInt32.ofNat k)
          else r.fecBufs i
        fecRxSeqs := fun i =>
          if i = k then start + UInt32.ofNat k else r.fecRxSeqs i } := by
  have slot : (start + UInt32.ofNat k).toNat % r.fecGroupSize = k := by
    rw [waiting.size, toNat_add_ofNat_mod_four]
    omega
  have whole :
      (stream.text (start + UInt32.ofNat k)).take fecMaxPayload =
        stream.text (start + UInt32.ofNat k) :=
    List.take_of_length_le (stream.short _)
  unfold fecRxTrack
  rw [if_neg (by simp [waiting.enabled, waiting.size])]
  dsimp only
  rw [slot, whole]

/-- The next arrival is no longer pending. -/
theorem FecWaiting.step
    {arrival : FecArrival} {pending : List FecArrival}
    (waiting : FecWaiting stream start missing (arrival :: pending) r)
    (aligned : start.toNat % 4 = 0) (once : arrival ∉ pending)
    (inGroup : ∀ i, arrival = .packet i → i < 4 ∧ i ≠ missing)
    (channel : UInt8) :
    FecWaiting stream start missing pending
      (fecRxStep r
        (stream.arrival start
          (parityWire start channel (stream.groupTexts start)) arrival)) := by
  cases arrival with
  | packet k =>
      obtain ⟨inside, other⟩ := inGroup k rfl
      change FecWaiting stream start missing pending (fecRxTrack r _ _)
      rw [waiting.tracks aligned inside]
      refine ⟨waiting.enabled, waiting.size, ?_, ?_, ?_, ?_⟩
      · intro i below apart absent
        by_cases same : i = k
        · simp [same]
        · simp only [same, if_false]
          exact waiting.here i below apart (by simp [same, absent])
      · intro i away
        have same : i ≠ k := by
          rintro rfl
          exact away.elim other once
        simp only [same, if_false]
        exact waiting.absent i (away.imp_right (List.mem_cons_of_mem _))
      · intro later
        exact waiting.noParity (List.mem_cons_of_mem _ later)
      · intro absent
        exact waiting.parity (by simp [absent])
  | parity =>
      change FecWaiting stream start missing pending (fecRxStoreParity r _)
      rw [fecRxStoreParity_wire r start channel
        (maxLength_groupTexts stream start)]
      refine ⟨waiting.enabled, waiting.size, ?_, ?_, ?_, ?_⟩
      · intro i below apart absent
        exact waiting.here i below apart (by simp [absent])
      · intro i away
        exact waiting.absent i (away.imp_right (List.mem_cons_of_mem _))
      · intro later
        exact absurd later once
      · intro absent
        exact ⟨rfl, rfl, rfl⟩

/-- While something is pending, nothing can be rebuilt. -/
theorem FecWaiting.waits
    {arrival : FecArrival} {pending : List FecArrival}
    (waiting : FecWaiting stream start missing (arrival :: pending) r)
    (inside : missing < 4)
    (inGroup : ∀ i, arrival = .packet i → i < 4 ∧ i ≠ missing) :
    fecRxRebuild r = (r, none) := by
  by_cases later : .parity ∈ arrival :: pending
  · exact fecRxRebuild_idle (waiting.noParity later)
  · obtain ⟨-, -, size⟩ := waiting.parity later
    cases arrival with
    | parity =>
        exact absurd List.mem_cons_self later
    | packet k =>
        obtain ⟨below, other⟩ := inGroup k rfl
        have lacks (i : Nat) (free : r.fecBufs i = []) (small : i < 4) :
            i ∈ r.fecAbsent :=
          mem_fecAbsent.mpr ⟨by rw [size]; exact small,
            fecSlotMatches_free free⟩
        exact fecRxRebuild_waits
          (lacks k (waiting.absent k (Or.inr List.mem_cons_self)) below)
          (lacks missing (waiting.absent missing (Or.inl rfl)) inside)
          other

/-- With nothing pending, the missing packet is rebuilt. -/
theorem FecWaiting.rebuilds
    (waiting : FecWaiting stream start missing [] r)
    (sound : FecSound stream r) (inside : missing < 4) :
    (fecRxRebuild r).2 =
      some
        (padTo (maxLength (stream.groupTexts start))
          (stream.text (start + UInt32.ofNat missing)),
          start + UInt32.ofNat missing) := by
  obtain ⟨stored, number, size⟩ := waiting.parity List.not_mem_nil
  have only : MissingOnly r missing := by
    refine ⟨by rw [size]; exact inside, waiting.absent missing (Or.inl rfl),
      fun i below other => ?_⟩
    rw [size] at below
    obtain ⟨held, seq⟩ := waiting.here i below other List.not_mem_nil
    have filled : 0 < (r.fecBufs i).length := by
      rw [held]
      exact List.length_pos_iff.mpr (stream.filled _)
    simp [Resilience.fecSlotMatches, filled, seq, number]
  rw [fecRxRebuild_missing stored only, sound.rebuilt stored only, number]

/-- A group that begins at a multiple of four: the last arrival gives the
missing packet, continued with zeros. -/
theorem FecWaiting.recovers
    {pending : List FecArrival}
    (waiting : FecWaiting stream start missing pending r)
    (sound : FecSound stream r) (aligned : start.toNat % 4 = 0)
    (inside : missing < 4) (once : pending.Nodup)
    (inGroup : ∀ i, .packet i ∈ pending → i < 4 ∧ i ≠ missing)
    (some : pending ≠ []) {sender : Resilience} (ready : FecReady sender)
    (channel : UInt8) :
    fecRecovered r
        (pending.map (stream.arrival start
          (parityWire start channel (stream.groupTexts start)))) =
      [(padTo (maxLength (stream.groupTexts start))
          (stream.text (start + UInt32.ofNat missing)),
        start + UInt32.ofNat missing)] := by
  induction pending generalizing r with
  | nil =>
      exact absurd rfl some
  | cons arrival rest inductionHypothesis =>
      rw [List.nodup_cons] at once
      have taken :=
        waiting.step aligned once.1
          (by
            rintro i rfl
            exact inGroup i List.mem_cons_self)
          channel
      have next :=
        sound.step (ready.genuine_arrival stream start channel arrival)
      rw [List.map_cons, fecRecovered_cons]
      cases rest with
      | nil =>
          rw [taken.rebuilds next inside]
          rfl
      | cons second others =>
          rw [taken.waits inside (by
            rintro i rfl
            exact inGroup i (by simp))]
          exact inductionHypothesis taken next once.2
            (fun i member => inGroup i (List.mem_cons_of_mem _ member)) nofun

/-- The packets are in the slots of their numbers, and the parity is of the
group that begins with `start`. -/
structure FecPlaced (start : UInt32) (r : Resilience) : Prop where
  size : r.fecGroupSize = 4
  slots : ∀ i, r.fecBufs i ≠ [] → (r.fecRxSeqs i).toNat % 4 = i
  parity :
    r.fecRxHaveParity = true →
      r.fecRxGroupStartSeq = start ∧ r.fecRxGroupSize = 4

theorem FecFresh.placed (fresh : FecFresh r) : FecPlaced start r := by
  refine ⟨fresh.size, fun i filled => absurd (fresh.slots i) filled, ?_⟩
  intro stored
  rw [fresh.noParity] at stored
  cases stored

theorem FecPlaced.step
    (placed : FecPlaced start r) (stream : FecStream) (channel : UInt8)
    (arrival : FecArrival) :
    FecPlaced start
      (fecRxStep r
        (stream.arrival start
          (parityWire start channel (stream.groupTexts start)) arrival)) := by
  cases arrival with
  | packet k =>
      change FecPlaced start (fecRxTrack r _ _)
      unfold fecRxTrack
      split
      · exact placed
      · refine ⟨placed.size, fun i filled => ?_, placed.parity⟩
        dsimp only at filled ⊢
        rw [placed.size] at filled ⊢
        by_cases here : i = (start + UInt32.ofNat k).toNat % 4
        · rw [if_pos here]
          exact here.symm
        · rw [if_neg here] at filled ⊢
          exact placed.slots i filled
  | parity =>
      change FecPlaced start (fecRxStoreParity r _)
      rw [fecRxStoreParity_wire r start channel
        (maxLength_groupTexts stream start)]
      exact ⟨placed.size, placed.slots, fun _ => ⟨rfl, rfl⟩⟩

/-- A group that begins elsewhere: no packet is in the slot where it is looked
for. -/
theorem FecPlaced.waits
    (placed : FecPlaced start r) (unaligned : start.toNat % 4 ≠ 0) :
    fecRxRebuild r = (r, none) := by
  cases stored : r.fecRxHaveParity with
  | false =>
      exact fecRxRebuild_idle stored
  | true =>
      obtain ⟨number, size⟩ := placed.parity stored
      have lacks (i : Nat) (below : i < 4) : i ∈ r.fecAbsent := by
        rw [mem_fecAbsent, size]
        refine ⟨below, ?_⟩
        cases found : r.fecSlotMatches i with
        | false => rfl
        | true =>
            obtain ⟨filled, seq⟩ := fecSlotMatches_filled found
            have slot := placed.slots i filled
            rw [seq, number, toNat_add_ofNat_mod_four] at slot
            omega
      exact fecRxRebuild_waits (lacks 0 (by decide)) (lacks 1 (by decide))
        (by decide)

theorem FecPlaced.recovers_nothing
    (placed : FecPlaced start r) (unaligned : start.toNat % 4 ≠ 0)
    (stream : FecStream) (channel : UInt8) (order : List FecArrival) :
    fecRecovered r
        (order.map (stream.arrival start
          (parityWire start channel (stream.groupTexts start)))) = [] := by
  induction order generalizing r with
  | nil =>
      rfl
  | cons arrival rest inductionHypothesis =>
      have next := placed.step stream channel arrival
      rw [List.map_cons, fecRecovered_cons, next.waits unaligned]
      exact inductionHypothesis next

/-- The missing packet is recovered exactly when the group begins at a multiple
of four and no packet of it is longer than the missing one. -/
theorem fec_recovers_iff
    (stream : FecStream) {sender receiver : Resilience}
    (ready : FecReady sender) (fresh : FecFresh receiver)
    (enabled : receiver.fecEnabled = true) (start : UInt32)
    (channel : UInt8) :
    ∃ wire, fecParities channel sender (stream.group start) = [wire] ∧
      ∀ missing, missing < 4 →
        ∀ order : List FecArrival, order.Perm (arrivalsWithout missing) →
          (fecRecovered receiver (order.map (stream.arrival start wire)) =
              [(stream.text (start + UInt32.ofNat missing),
                start + UInt32.ofNat missing)] ↔
            start.toNat % 4 = 0 ∧
              ∀ i, i < 4 →
                (stream.text (start + UInt32.ofNat i)).length ≤
                  (stream.text (start + UInt32.ofNat missing)).length) := by
  refine ⟨_, stream.parities ready start channel, ?_⟩
  intro missing inside order arrives
  by_cases aligned : start.toNat % 4 = 0
  · have waiting : FecWaiting stream start missing order receiver :=
      fresh.waiting enabled fun _ => arrives.mem_iff
    have recovered :=
      waiting.recovers fresh.sound aligned inside
        (arrives.nodup_iff.mpr (nodup_arrivalsWithout missing))
        (fun i member =>
          packet_mem_arrivalsWithout.mp (arrives.mem_iff.mp member))
        (by
          rintro rfl
          exact absurd arrives.symm.eq_nil nofun)
        ready channel
    rw [recovered]
    simpa [aligned] using stream.padTo_maxLength_iff start inside
  · rw [fresh.placed.recovers_nothing aligned stream channel order]
    simp [aligned]

end

theorem fec_recovers_iff_sample :
    ∃ wire,
      fecParities 1 resilienceInit (sampleStream.group 4) = [wire] ∧
        fecRecovered resilienceInit
            ((arrivalsWithout 1).map (sampleStream.arrival 4 wire)) =
          [([1, 2], 5)] := by
  obtain ⟨wire, made, recovers⟩ :=
    fec_recovers_iff sampleStream fecReady_resilienceInit
      fecFresh_resilienceInit rfl 4 1
  refine ⟨wire, made, (recovers 1 (by decide) _ (List.Perm.refl _)).mpr ?_⟩
  exact ⟨by decide, by decide +kernel⟩

/-- Packets 1 to 4 with packet 1 missing: nothing is recovered.  Packets 4 to
7 with packet 4 missing: it comes with a byte more than it had. -/
theorem fec_misses_single_loss :
    (∃ wire,
      fecParities 1 resilienceInit (sampleStream.group 1) = [wire] ∧
        fecRecovered resilienceInit
            ((arrivalsWithout 0).map (sampleStream.arrival 1 wire)) = []) ∧
      ∃ wire,
        fecParities 1 resilienceInit (sampleStream.group 4) = [wire] ∧
          fecRecovered resilienceInit
              ((arrivalsWithout 0).map (sampleStream.arrival 4 wire)) =
            [([1, 0], 4)] := by
  constructor
  · refine ⟨_, sampleStream.parities fecReady_resilienceInit 1 1, ?_⟩
    decide +kernel
  · refine ⟨_, sampleStream.parities fecReady_resilienceInit 4 1, ?_⟩
    decide +kernel

end PqComm
