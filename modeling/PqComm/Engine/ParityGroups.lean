import PqComm.Engine.Api

/-!
# What a parity packet says about its group

A parity packet names its group by a first sequence number, a size and a
channel.  The receiver looks for the packets of the group at consecutive
numbers.  The sender takes its numbers from one counter that every other
packet of the engine uses too, puts packets of any channel into the open
group, and may change the group size while a group is open.
-/

namespace PqComm

open Lib

/-- A data packet that has been folded into the parity buffer. -/
structure FecMember where
  seq : UInt32
  channel : UInt8
  payload : Bytes
  deriving DecidableEq

/-- The payload of a parity packet, and the packets folded into it. -/
structure EmittedParity where
  payload : Bytes
  members : List FecMember
  deriving DecidableEq

/-- The first sequence number, as the receiver reads it. -/
def EmittedParity.startSeq (parity : EmittedParity) : UInt32 :=
  UInt32.ofNat (leNat (parity.payload.take 4))

def EmittedParity.groupSize (parity : EmittedParity) : Nat :=
  (parity.payload.getD 4 0).toNat

def EmittedParity.channelId (parity : EmittedParity) : UInt8 :=
  parity.payload.getD 5 0

/-- The sequence numbers of a group. -/
def groupSeqs (startSeq : UInt32) (size : Nat) : List UInt32 :=
  (List.range size).map fun i => startSeq + UInt32.ofNat i

/-- The exclusive or of the packets, as far as the parity buffer goes. -/
def foldParity (members : List FecMember) : Mem :=
  members.foldl (fun mem m => xorInto mem m.payload) fun _ => 0

/-- The packets folded into the parity are those its header names. -/
structure DescribesGroup (parity : EmittedParity) : Prop where
  seqs :
    parity.members.map FecMember.seq =
      groupSeqs parity.startSeq parity.groupSize
  channels : ∀ m ∈ parity.members, m.channel = parity.channelId
  folded :
    ∀ i, i < fecMaxPayload → 6 + i < parity.payload.length →
      parity.payload.getD (6 + i) 0 = foldParity parity.members i

/-! ## Runs of a sender -/

/-- The sender of a session, with the packets of the open group and the
parity packets sent so far. -/
structure FecSender where
  sess : Session
  abr : AbrCtx
  seqCounter : UInt32
  members : List FecMember
  parities : List EmittedParity

def fecSenderInit (s : Session) (abr : AbrCtx) (seq : UInt32) :
    FecSender where
  sess := { s with resilience := resilienceInit }
  abr := abr
  seqCounter := seq
  members := []
  parities := []

inductive FecAct where
  | drawSeq
  | send
      (channel : UInt8) (p : PacketBuf) (buf : Option PacketBuf)
      (peerAddr : Bytes)
  | recordRx (idx : Nat) (rtt : UInt64)
  | recordLoss (idx : Nat)
  | abrUpdate (now : UInt64)

/-- The packets in the group that a data packet joins. -/
def FecSender.joined (s : FecSender) (channel : UInt8) (p : PacketBuf) :
    List FecMember :=
  (if s.sess.resilience.fecGroupPos = 0 then [] else s.members) ++
    [⟨s.seqCounter, channel, p.body⟩]

def FecSender.act (s : FecSender) : FecAct → FecSender
  | .drawSeq => { s with seqCounter := s.seqCounter + 1 }
  | .send channel p buf peerAddr =>
      let r := fecTxAfterEncrypt p s.sess channel s.seqCounter buf peerAddr
      let members :=
        if s.sess.resilience.fecOn then s.joined channel p else s.members
      { s with
        sess := r.1
        seqCounter := s.seqCounter + 1
        members := members
        parities :=
          s.parities ++ r.2.toList.map fun q => ⟨q.body, members⟩ }
  | .recordRx idx rtt =>
      { s with
        sess :=
          { s.sess with
            resilience := resilienceRecordRx s.sess.resilience idx rtt } }
  | .recordLoss idx =>
      { s with
        sess :=
          { s.sess with
            resilience := resilienceRecordLoss s.sess.resilience idx } }
  | .abrUpdate now =>
      let r := abrUpdate s.abr s.sess.resilience now
      { s with abr := r.1, sess := { s.sess with resilience := r.2 } }

def FecSender.run (s : FecSender) (acts : List FecAct) : FecSender :=
  acts.foldl FecSender.act s

/-- A data packet that joins an open group has the next sequence number and
the channel of the group, and the group is not complete at the current group
size. -/
def CleanSend (s : FecSender) : FecAct → Prop
  | .send channel _ _ _ =>
      let r := s.sess.resilience
      r.fecOn → r.fecGroupPos ≠ 0 →
        s.seqCounter = r.fecGroupStartSeq + UInt32.ofNat r.fecGroupPos ∧
          channel = r.fecChannelId ∧ r.fecGroupPos < r.fecGroupSize
  | _ => True

def CleanSends : FecSender → List FecAct → Prop
  | _, [] => True
  | s, act :: acts => CleanSend s act ∧ CleanSends (s.act act) acts

instance (s : FecSender) : DecidablePred (CleanSend s)
  | .send _ _ _ _ => inferInstanceAs (Decidable (_ → _ → _))
  | .drawSeq => isTrue trivial
  | .recordRx _ _ => isTrue trivial
  | .recordLoss _ => isTrue trivial
  | .abrUpdate _ => isTrue trivial

instance decidableCleanSends :
    (s : FecSender) → (acts : List FecAct) → Decidable (CleanSends s acts)
  | _, [] => isTrue trivial
  | s, act :: acts =>
      @instDecidableAnd _ _ (inferInstance : Decidable (CleanSend s act))
        (decidableCleanSends (s.act act) acts)

/-! ## The open group -/

theorem groupSeqs_succ (startSeq : UInt32) (size : Nat) :
    groupSeqs startSeq (size + 1) =
      groupSeqs startSeq size ++ [startSeq + UInt32.ofNat size] := by
  simp [groupSeqs, List.range_succ]

theorem foldParity_concat (members : List FecMember) (m : FecMember) :
    foldParity (members ++ [m]) = xorInto (foldParity members) m.payload := by
  simp [foldParity]

/-- The packets of the group that is open so far. -/
structure FecGroup (r : Resilience) (members : List FecMember) : Prop where
  seqs :
    members.map FecMember.seq = groupSeqs r.fecGroupStartSeq r.fecGroupPos
  channels : ∀ m ∈ members, m.channel = r.fecChannelId
  folded :
    ∀ i, i < fecMaxPayload → r.fecParityBuf i = foldParity members i

section

variable {r : Resilience} {members : List FecMember} {payload : Bytes}
  {seq : UInt32} {channel : UInt8}

theorem FecGroup.opened (first : r.fecGroupPos = 0) :
    FecGroup (r.fecOpenGroup seq channel) [] := by
  unfold Resilience.fecOpenGroup
  rw [if_pos first]
  constructor
  · simp [groupSeqs, first]
  · intro m member
    cases member
  · intro i inside
    simp [foldParity, inside]

/-- The next packet of the group's channel joins. -/
theorem FecGroup.absorbed
    (group : FecGroup r members) (room : r.fecGroupPos < 255)
    (next : seq = r.fecGroupStartSeq + UInt32.ofNat r.fecGroupPos)
    (same : channel = r.fecChannelId) :
    FecGroup (r.fecAbsorb payload) (members ++ [⟨seq, channel, payload⟩]) := by
  have position : (r.fecAbsorb payload).fecGroupPos = r.fecGroupPos + 1 :=
    Nat.mod_eq_of_lt (by omega)
  constructor
  · rw [position, List.map_append, group.seqs]
    change _ = groupSeqs r.fecGroupStartSeq _
    rw [groupSeqs_succ, next]
    rfl
  · intro m member
    rcases List.mem_append.mp member with old | new
    · exact group.channels m old
    · rw [List.mem_singleton.mp new]
      exact same
  · intro i inside
    rw [foldParity_concat]
    change xorInto r.fecParityBuf payload i = _
    simp only [xorInto, group.folded i inside]

/-- The parity of a group that is as long as the group size describes it. -/
theorem FecGroup.describes
    (group : FecGroup r members) (full : r.fecGroupPos = r.fecGroupSize)
    (small : r.fecGroupSize < 256) (same : channel = r.fecChannelId) :
    DescribesGroup ⟨r.fecParityPayload channel, members⟩ := by
  have startSeq :
      EmittedParity.startSeq ⟨r.fecParityPayload channel, members⟩ =
        r.fecGroupStartSeq :=
    uint32_leNat_leBytes r.fecGroupStartSeq
  have groupSize :
      EmittedParity.groupSize ⟨r.fecParityPayload channel, members⟩ =
        r.fecGroupSize :=
    UInt8.toNat_ofNat_of_lt' small
  constructor
  · rw [startSeq, groupSize, ← full]
    exact group.seqs
  · intro m member
    exact (group.channels m member).trans same.symm
  · intro i inside present
    rw [← group.folded i inside]
    have bound : i < r.fecParityLen := by
      simp [Resilience.fecParityPayload] at present
      omega
    have behind :
        (r.fecParityPayload channel).getD (6 + i) 0 =
          (memSlice r.fecParityBuf 0 r.fecParityLen).getD i 0 := by
      unfold Resilience.fecParityPayload
      rw [List.getD_append_right _ _ _ _ (by simp)]
      congr 1
      simp
    rw [behind, getD_memSlice bound, Nat.zero_add]

/-! ## The invariant -/

/-- What a run keeps. -/
structure ParityInv (s : FecSender) : Prop where
  size : s.sess.resilience.fecGroupSize ≤ 8
  position : s.sess.resilience.fecGroupPos < 8
  group :
    s.sess.resilience.fecGroupPos ≠ 0 → FecGroup s.sess.resilience s.members
  emitted : ∀ parity ∈ s.parities, DescribesGroup parity

theorem parityInv_init (s : Session) (abr : AbrCtx) (seq : UInt32) :
    ParityInv (fecSenderInit s abr seq) where
  size := show resilienceFecGroup ≤ 8 by decide
  position := Nat.zero_lt_succ 7
  group := fun opened => absurd rfl opened
  emitted := fun parity member => by cases member

theorem FecGroup.of_same {r' : Resilience}
    (group : FecGroup r members) (same : SameFec r r') :
    FecGroup r' members where
  seqs := by
    rw [same.startSeq, same.position]
    exact group.seqs
  channels := by
    rw [same.channel]
    exact group.channels
  folded := by
    rw [same.parity]
    exact group.folded

theorem ParityInv.of_same {s : FecSender}
    (inv : ParityInv s) (abr : AbrCtx) {r' : Resilience}
    (same : SameFec s.sess.resilience r') (size : r'.fecGroupSize ≤ 8) :
    ParityInv
      { s with abr := abr, sess := { s.sess with resilience := r' } } where
  size := size
  position := by
    change r'.fecGroupPos < 8
    rw [same.position]
    exact inv.position
  group := by
    intro opened
    change r'.fecGroupPos ≠ 0 at opened
    rw [same.position] at opened
    exact (inv.group opened).of_same same
  emitted := inv.emitted

end

/-! ## One data packet -/

theorem body_buildPacket
    (buf : PacketBuf) (clear : Bool) (flags : UInt8) (sessionId : UInt64)
    (channel : UInt8) (seq : UInt32) (payload : Bytes) :
    (buildPacket buf clear flags sessionId channel seq payload).body =
      payload := by
  have length :
      (buildPacket buf clear flags sessionId channel seq payload).len -
        headerSize = payload.length := by
    rw [buildPacket_len]
    exact Nat.add_sub_cancel_left 24 payload.length
  rw [PacketBuf.body, length,
    buildPacket_slice _ _ _ _ _ _ _ (by simp [headerSize])]
  simp [headerSize]

section

variable {s : Session} (p : PacketBuf) (channel : UInt8) (seq : UInt32)
  (buf : Option PacketBuf) (peerAddr : Bytes)

theorem fecTxAfterEncrypt_off (off : ¬ s.resilience.fecOn) :
    fecTxAfterEncrypt p s channel seq buf peerAddr = (s, none) := by
  unfold fecTxAfterEncrypt
  split
  · rfl
  · rw [fecTxAccumulate_off _ _ _ off]

theorem fecTxAfterEncrypt_on (on : s.resilience.fecOn) :
    (fecTxAfterEncrypt p s channel seq buf peerAddr).1 =
        { s with
          resilience :=
            (fecTxAccumulate s.resilience p.body seq channel).1 } ∧
      ∀ q, (fecTxAfterEncrypt p s channel seq buf peerAddr).2 = some q →
        (fecTxAccumulate s.resilience p.body seq channel).2 =
          some q.body := by
  unfold fecTxAfterEncrypt
  rw [if_neg (by simp [on.1])]
  dsimp only
  split
  · rename_i parity room completed
    refine ⟨rfl, fun q pushed => ?_⟩
    cases pushed
    rw [completed]
    exact congrArg some (body_buildPacket ..).symm
  · exact ⟨rfl, fun q pushed => by cases pushed⟩

end

section

variable {s : FecSender} {channel : UInt8} {p : PacketBuf}
  {buf : Option PacketBuf} {peerAddr : Bytes}

/-- The group after the packet has joined it. -/
theorem ParityInv.joined
    (inv : ParityInv s) (clean : CleanSend s (.send channel p buf peerAddr))
    (on : s.sess.resilience.fecOn) :
    let opened := s.sess.resilience.fecOpenGroup s.seqCounter channel
    FecGroup (opened.fecAbsorb p.body) (s.joined channel p) ∧
      opened.fecGroupPos < opened.fecGroupSize ∧
      opened.fecGroupPos = s.sess.resilience.fecGroupPos ∧
      opened.fecGroupSize = s.sess.resilience.fecGroupSize ∧
      channel = opened.fecChannelId := by
  intro opened
  have position := inv.position
  by_cases first : s.sess.resilience.fecGroupPos = 0
  · -- A new group starts with this packet.
    have fresh : opened.fecGroupPos = 0 := by
      simp only [opened, Resilience.fecOpenGroup, if_pos first]
      exact first
    have size : opened.fecGroupSize = s.sess.resilience.fecGroupSize := by
      simp only [opened, Resilience.fecOpenGroup, if_pos first]
    have startSeq : opened.fecGroupStartSeq = s.seqCounter := by
      simp only [opened, Resilience.fecOpenGroup, if_pos first]
    have same : channel = opened.fecChannelId := by
      simp only [opened, Resilience.fecOpenGroup, if_pos first]
    refine ⟨?_, ?_, fresh.trans first.symm, size, same⟩
    · unfold FecSender.joined
      rw [if_pos first]
      apply FecGroup.absorbed (FecGroup.opened first)
      · change opened.fecGroupPos < 255
        omega
      · change _ = opened.fecGroupStartSeq + UInt32.ofNat opened.fecGroupPos
        rw [fresh, startSeq]
        exact (UInt32.add_zero s.seqCounter).symm
      · exact same
    · rw [fresh, size]
      exact Nat.pos_of_ne_zero on.2
  · have kept : opened = s.sess.resilience := if_neg first
    obtain ⟨next, same, below⟩ := clean on first
    rw [kept]
    refine ⟨?_, below, rfl, rfl, same⟩
    unfold FecSender.joined
    rw [if_neg first]
    exact (inv.group first).absorbed (by omega) next same

/-- The packet is accumulated: the group stays open with it, or its parity
describes the group. -/
theorem ParityInv.accumulated
    (inv : ParityInv s) (clean : CleanSend s (.send channel p buf peerAddr))
    (on : s.sess.resilience.fecOn) :
    let acc :=
      fecTxAccumulate s.sess.resilience p.body s.seqCounter channel
    acc.1.fecGroupSize ≤ 8 ∧ acc.1.fecGroupPos < 8 ∧
      (acc.1.fecGroupPos ≠ 0 → FecGroup acc.1 (s.joined channel p)) ∧
      ∀ parity, acc.2 = some parity →
        DescribesGroup ⟨parity, s.joined channel p⟩ := by
  obtain ⟨group, below, position, size, same⟩ := inv.joined clean on
  have small := inv.size
  have few := inv.position
  rw [fecTxAccumulate_on p.body s.seqCounter channel on]
  generalize s.sess.resilience.fecOpenGroup s.seqCounter channel = opened
    at group below position size same
  have moved :
      (opened.fecAbsorb p.body).fecGroupPos = opened.fecGroupPos + 1 :=
    Nat.mod_eq_of_lt (by omega)
  have steady :
      (opened.fecAbsorb p.body).fecGroupSize = opened.fecGroupSize := rfl
  have kept :
      (opened.fecAbsorb p.body).fecChannelId = opened.fecChannelId := rfl
  generalize opened.fecAbsorb p.body = q at group moved steady kept
  have bound : q.fecGroupSize ≤ 8 := by omega
  dsimp only
  split
  · refine ⟨bound, Nat.zero_lt_succ 7, fun opened => absurd rfl opened, ?_⟩
    intro parity emitted
    cases emitted
    exact group.describes (by omega) (by omega) (same.trans kept.symm)
  · rename_i incomplete
    have position' : q.fecGroupPos < 8 := by omega
    refine ⟨bound, position', fun _ => group, ?_⟩
    intro parity emitted
    cases emitted

theorem ParityInv.send
    (inv : ParityInv s)
    (clean : CleanSend s (.send channel p buf peerAddr)) :
    ParityInv (s.act (.send channel p buf peerAddr)) := by
  unfold FecSender.act
  dsimp only
  by_cases on : s.sess.resilience.fecOn
  · obtain ⟨size, position, group, describes⟩ := inv.accumulated clean on
    obtain ⟨after, emits⟩ :=
      fecTxAfterEncrypt_on p channel s.seqCounter buf peerAddr on
    rw [if_pos on, after]
    refine ⟨size, position, group, ?_⟩
    intro parity member
    rcases List.mem_append.mp member with old | new
    · exact inv.emitted parity old
    · obtain ⟨q, pushed, rfl⟩ := List.mem_map.mp new
      exact describes q.body (emits q (Option.mem_toList.mp pushed))
  · rw [fecTxAfterEncrypt_off p channel s.seqCounter buf peerAddr on,
      if_neg on]
    refine ⟨inv.size, inv.position, inv.group, ?_⟩
    intro parity member
    rcases List.mem_append.mp member with old | new
    · exact inv.emitted parity old
    · cases new

/-! ## Runs -/

theorem ParityInv.act
    (inv : ParityInv s) {act : FecAct} (clean : CleanSend s act) :
    ParityInv (s.act act) := by
  cases act with
  | drawSeq =>
      exact ⟨inv.size, inv.position, inv.group, inv.emitted⟩
  | send channel p buf peerAddr =>
      exact inv.send clean
  | recordRx idx rtt =>
      obtain ⟨same, size⟩ :=
        sameFec_resilienceRecordRx s.sess.resilience idx rtt
      exact inv.of_same s.abr same (size ▸ inv.size)
  | recordLoss idx =>
      obtain ⟨same, size⟩ :=
        sameFec_resilienceRecordLoss s.sess.resilience idx
      exact inv.of_same s.abr same (size ▸ inv.size)
  | abrUpdate now =>
      obtain ⟨same, kept | chosen⟩ :=
        abrUpdate_fec s.abr s.sess.resilience now
      · exact inv.of_same _ same (kept ▸ inv.size)
      · exact inv.of_same _ same chosen

theorem ParityInv.run
    (inv : ParityInv s) {acts : List FecAct} (clean : CleanSends s acts) :
    ParityInv (s.run acts) := by
  induction acts generalizing s with
  | nil =>
      exact inv
  | cons act acts hypothesis =>
      exact hypothesis (inv.act clean.1) clean.2

end

/-- In every run in which each packet that joins an open group continues it,
every parity packet describes the packets folded into it. -/
theorem parity_describes_group
    (s : Session) (abr : AbrCtx) (seq : UInt32) (acts : List FecAct)
    (clean : CleanSends (fecSenderInit s abr seq) acts) :
    ∀ parity ∈ ((fecSenderInit s abr seq).run acts).parities,
      DescribesGroup parity :=
  ((parityInv_init s abr seq).run clean).emitted

def chatOf (text : Bytes) : FecAct :=
  .send chChat (buildPacket default true 0 7 chChat 0 text) (some default)
    (zeros 28)

/-- Four chat packets in a row, heartbeats before and after them. -/
theorem parity_describes_group_chats :
    ∃ parity,
      ((fecSenderInit sessionInit {} 10).run
        [.drawSeq, chatOf [1], chatOf [2, 3], chatOf [4], chatOf [5],
          .drawSeq]).parities = [parity] ∧
      DescribesGroup parity := by
  refine ⟨_, rfl, ?_⟩
  apply parity_describes_group sessionInit {} 10
    [.drawSeq, chatOf [1], chatOf [2, 3], chatOf [4], chatOf [5], .drawSeq]
  · decide +kernel
  · exact List.mem_singleton.mpr rfl

/-- A heartbeat that takes its number while a group is open. -/
theorem heartbeat_splits_group :
    ¬ ∀ acts : List FecAct,
        ∀ parity ∈ ((fecSenderInit sessionInit {} 10).run acts).parities,
          DescribesGroup parity := by
  intro describes
  have wrong :
      (((fecSenderInit sessionInit {} 10).run
        [chatOf [1], chatOf [2], .drawSeq, chatOf [3], chatOf [4]]).parities.any
          fun parity =>
            decide (parity.members.map FecMember.seq ≠
              groupSeqs parity.startSeq parity.groupSize)) = true := by
    decide +kernel
  obtain ⟨parity, member, differs⟩ := List.any_eq_true.mp wrong
  exact of_decide_eq_true differs (describes _ parity member).seqs

end PqComm
