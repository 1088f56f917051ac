import Mathlib.Data.List.Perm.Subperm
import PqComm.Engine.FileTransfer
import PqComm.Lib.Runs

/-!
# Files and their chunks

What `file_send_start` says of a file, when `file_recv_chunk` reports that a
file is complete, and what `file_recv_finish` leaves of the chunks.

The receiver writes every chunk to its place and counts the calls.  The places
make the file independent of the order of the chunks.  The count does not tell
a chunk from its repetition, so it can be reached before the file is complete.
The sender keeps the size in 32 bits and adds before it divides, so that files
from `2 ^ 32 - 1023` bytes on are described wrongly.
-/

namespace PqComm

open Lib

/-! ## Writing at a place -/

section

variable (content data : Bytes) (off : Nat)

theorem length_writeAt :
    (writeAt content off data).length =
      max (off + data.length) content.length := by
  simp only [writeAt, List.length_append, List.length_take, List.length_drop,
    length_zeros]
  omega

/-- Before the place, a gap reads as zeros. -/
theorem getElem?_writeAt_before {j : Nat} (before : j < off) :
    (writeAt content off data)[j]? = some (content.getD j 0) := by
  have inside :
      j < ((content ++ zeros (off - content.length)).take off).length := by
    simp only [List.length_take, List.length_append, length_zeros]
    omega
  rw [writeAt, List.append_assoc, List.getElem?_append_left inside,
    List.getElem?_take_of_lt before]
  by_cases old : j < content.length
  · rw [List.getElem?_append_left old, List.getD_eq_getElem?_getD,
      List.getElem?_eq_getElem old]
    rfl
  · rw [List.getElem?_append_right (Nat.not_lt.mp old), zeros,
      List.getElem?_replicate_of_lt (by omega), List.getD_eq_getElem?_getD,
      List.getElem?_eq_none (Nat.not_lt.mp old)]
    rfl

/-- From the place on stand the data, and behind them what was there. -/
theorem getElem?_writeAt_from {j : Nat} (behind : off ≤ j) :
    (writeAt content off data)[j]? =
      if j < off + data.length then data[j - off]? else content[j]? := by
  have size :
      ((content ++ zeros (off - content.length)).take off).length = off := by
    simp only [List.length_take, List.length_append, length_zeros]
    omega
  rw [writeAt, List.append_assoc,
    List.getElem?_append_right (by rw [size]; exact behind), size]
  by_cases inside : j < off + data.length
  · rw [if_pos inside, List.getElem?_append_left (by omega)]
  · rw [if_neg inside, List.getElem?_append_right (by omega),
      List.getElem?_drop]
    congr 1
    omega

end

/-! ## Receiving -/

/-- A call of `file_recv_chunk`. -/
structure ChunkCall where
  data : Bytes
  chunkSeq : UInt32

def ChunkCall.number (call : ChunkCall) : Nat :=
  call.chunkSeq.toNat

/-- The result of a call and the table after it. -/
def receiveChunk (left : Bytes) (idx : Nat) (recvs : List FileRecv)
    (call : ChunkCall) : Int × List FileRecv :=
  fileRecvChunk recvs idx left call.data call.chunkSeq

def receiveChunks (left : Bytes) (idx : Nat) (recvs : List FileRecv)
    (calls : List ChunkCall) : List FileRecv :=
  calls.foldl (fun recvs call => (receiveChunk left idx recvs call).2) recvs

/-- A transfer after `n` successful calls. -/
def receiving (info : FileMeta) (part : Option Bytes) (n : Nat) : FileRecv :=
  { details := info, part := part, chunksRecvd := UInt32.ofNat n }

section

variable {recvs started : List FileRecv} {info : FileMeta} {idx n : Nat}
  {part : Option Bytes}

theorem fileRecvStart_started
    (start : fileRecvStart recvs info = some started) :
    started[recvs.length]? = some (receiving info none 0) ∧
      info.totalChunks.toNat ≤ fileMaxChunks := by
  unfold fileRecvStart at start
  split at start
  · cases start
  · rename_i room
    cases start
    exact ⟨List.getElem?_concat_length, by omega⟩

/-- A call with the number of a chunk of the file. -/
theorem receiveChunk_taken
    (found : recvs[idx]? = some (receiving info part n)) {call : ChunkCall}
    (below : call.chunkSeq < info.totalChunks) (left : Bytes) :
    (receiveChunk left idx recvs call).1 =
        (if UInt32.ofNat (n + 1) ≥ info.totalChunks then 1 else 0) ∧
      (receiveChunk left idx recvs call).2[idx]? =
        some
          (receiving info
            (some
              (writeAt (part.getD left) (call.chunkSeq * 1024).toNat
                call.data))
            (n + 1)) := by
  have inside : idx < recvs.length :=
    (List.getElem?_eq_some_iff.mp found).1
  unfold receiveChunk fileRecvChunk
  rw [found]
  have passes :
      (!(receiving info part n).active ||
        decide (call.chunkSeq ≥ (receiving info part n).details.totalChunks))
          = false := by
    simpa [receiving] using below
  have next : UInt32.ofNat (n + 1) = UInt32.ofNat n + 1 :=
    UInt32.ofNat_add n 1
  dsimp only
  rw [passes, if_neg (by decide), next]
  refine ⟨rfl, ?_⟩
  rw [List.getElem?_set_self inside, receiving, receiving, next]

/-- A call with another number fails and changes nothing. -/
theorem receiveChunk_refused
    (found : recvs[idx]? = some (receiving info part n)) {call : ChunkCall}
    (beyond : ¬ call.chunkSeq < info.totalChunks) (left : Bytes) :
    receiveChunk left idx recvs call = (-1, recvs) := by
  unfold receiveChunk fileRecvChunk
  rw [found]
  dsimp only
  rw [if_pos]
  simpa [receiving] using beyond

/-- However the calls end, the transfer stays what it was opened as. -/
theorem receiveChunks_found
    (found : recvs[idx]? = some (receiving info part n)) (left : Bytes)
    (calls : List ChunkCall) :
    ∃ later, (receiveChunks left idx recvs calls)[idx]? =
      some
        (receiving info later
          (n + calls.countP fun call =>
            decide (call.chunkSeq < info.totalChunks))) := by
  induction calls generalizing recvs part n with
  | nil =>
      exact ⟨part, found⟩
  | cons call rest inductionHypothesis =>
      rw [List.countP_cons]
      by_cases below : call.chunkSeq < info.totalChunks
      · obtain ⟨later, holds⟩ :=
          inductionHypothesis (receiveChunk_taken found below left).2
        refine ⟨later, ?_⟩
        rw [decide_eq_true below, if_pos rfl, Nat.add_comm _ 1,
          ← Nat.add_assoc]
        exact holds
      · obtain ⟨later, holds⟩ := inductionHypothesis found
        refine ⟨later, ?_⟩
        rw [decide_eq_false below, if_neg Bool.false_ne_true, Nat.add_zero]
        change (receiveChunks left idx
          (receiveChunk left idx recvs call).2 rest)[idx]? = _
        rw [receiveChunk_refused found below left]
        exact holds

end

/-! ## When the file is complete -/

section

variable {total : Nat} {seqs : List Nat}

/-- Every chunk of the file is among those received. -/
def Covers (total : Nat) (seqs : List Nat) : Prop :=
  ∀ i, i < total → i ∈ seqs

theorem Covers.length_le (covers : Covers total seqs) :
    total ≤ seqs.length := by
  have sub : (List.range total).Subperm seqs :=
    List.subperm_of_subset List.nodup_range fun i inside =>
      covers i (List.mem_range.mp inside)
  have length := sub.length_le
  rw [List.length_range] at length
  exact length

/-- As many numbers as there are chunks cover the file exactly when no number
is repeated. -/
theorem covers_iff_nodup
    (below : ∀ seq ∈ seqs, seq < total) (length : seqs.length = total) :
    Covers total seqs ↔ seqs.Nodup := by
  constructor
  · intro covers
    have sub : (List.range total).Subperm seqs :=
      List.subperm_of_subset List.nodup_range fun i inside =>
        covers i (List.mem_range.mp inside)
    have perm := sub.perm_of_length_le (by rw [List.length_range, length])
    exact perm.nodup_iff.mp List.nodup_range
  · intro distinct i inside
    have sub : seqs.Subperm (List.range total) :=
      List.subperm_of_subset distinct fun seq member =>
        List.mem_range.mpr (below seq member)
    have perm := sub.perm_of_length_le (by rw [List.length_range, length])
    exact perm.mem_iff.mpr (List.mem_range.mpr inside)

/-- The count of 32 bits shows when the file is covered exactly when it does
not wrap and the calls that first reach it repeat no number. -/
theorem count_covers_iff
    (below : ∀ seq ∈ seqs, seq < total) (small : total < 2 ^ 32) :
    (∀ k, k < seqs.length →
        (total ≤ (k + 1) % 2 ^ 32 ↔ Covers total (seqs.take (k + 1)))) ↔
      seqs.length < 2 ^ 32 ∧
        (seqs.length < total ∨ (seqs.take total).Nodup) := by
  have firstBelow (k : Nat) : ∀ seq ∈ seqs.take k, seq < total :=
    fun seq member => below seq (List.mem_of_mem_take member)
  constructor
  · intro tells
    by_cases few : seqs.length < total
    · exact ⟨few.trans small, Or.inl few⟩
    · rcases Nat.eq_zero_or_pos total with none | some
      · have empty : seqs = [] :=
          List.eq_nil_iff_forall_not_mem.mpr fun seq member =>
            absurd (below seq member) (by omega)
        rw [empty, List.take_nil]
        exact ⟨by decide, Or.inr List.nodup_nil⟩
      · have complete : Covers total (seqs.take total) := by
          have said := tells (total - 1) (by omega)
          rw [Nat.sub_add_cancel some, Nat.mod_eq_of_lt small] at said
          exact said.mp (Nat.le_refl total)
        refine ⟨?_, Or.inr ((covers_iff_nodup (firstBelow total)
          (List.length_take_of_le (Nat.not_lt.mp few))).mp complete)⟩
        by_contra long
        have said := tells (2 ^ 32 - 1) (by omega)
        rw [Nat.sub_add_cancel (by decide), Nat.mod_self] at said
        have early :=
          said.mpr fun i inside =>
            List.take_subset_take_left seqs small.le (complete i inside)
        omega
  · intro both k inside
    obtain ⟨short, distinct⟩ := both
    rw [Nat.mod_eq_of_lt (by omega)]
    constructor
    · intro reached
      have once := distinct.resolve_left (by omega)
      have complete :=
        (covers_iff_nodup (firstBelow total)
          (List.length_take_of_le (by omega))).mpr once
      intro i small
      exact List.take_subset_take_left seqs reached (complete i small)
    · intro complete
      have length := complete.length_le
      rw [List.length_take] at length
      omega

end

section

variable {recvs started : List FileRecv} {info : FileMeta}
  {calls : List ChunkCall}

/-- The calls that succeed are those with the number of a chunk. -/
theorem successful_iff
    (start : fileRecvStart recvs info = some started) (left : Bytes) :
    (∀ before call after, calls = before ++ call :: after →
        (receiveChunk left recvs.length
          (receiveChunks left recvs.length started before) call).1 ≠ -1) ↔
      ∀ call ∈ calls, call.chunkSeq < info.totalChunks := by
  have opened := (fileRecvStart_started start).1
  constructor
  · intro successful call member
    obtain ⟨before, after, split⟩ := List.append_of_mem member
    obtain ⟨part, found⟩ := receiveChunks_found opened left before
    by_contra beyond
    refine successful before call after split ?_
    rw [receiveChunk_refused found beyond left]
  · intro below before call after split
    obtain ⟨part, found⟩ := receiveChunks_found opened left before
    have member : call ∈ calls := by
      rw [split]
      exact List.mem_append_right before List.mem_cons_self
    rw [(receiveChunk_taken found (below call member) left).1]
    split
    · decide
    · decide

/-- What the call after `before` returns. -/
theorem receiveChunk_after
    (start : fileRecvStart recvs info = some started) (left : Bytes)
    (before : List ChunkCall) (call : ChunkCall)
    (below : ∀ other ∈ before ++ [call], other.chunkSeq < info.totalChunks) :
    (receiveChunk left recvs.length
        (receiveChunks left recvs.length started before) call).1 = 1 ↔
      info.totalChunks.toNat ≤ (before.length + 1) % 2 ^ 32 := by
  rw [List.forall_mem_append, List.forall_mem_singleton] at below
  obtain ⟨part, found⟩ :=
    receiveChunks_found (fileRecvStart_started start).1 left before
  have all :
      before.countP (fun other =>
        decide (other.chunkSeq < info.totalChunks)) = before.length :=
    List.countP_eq_length.mpr fun other member =>
      decide_eq_true (below.1 other member)
  rw [all, Nat.zero_add] at found
  have compared :
      UInt32.ofNat (before.length + 1) ≥ info.totalChunks ↔
        info.totalChunks.toNat ≤ (before.length + 1) % 2 ^ 32 := by
    rw [ge_iff_le, UInt32.le_iff_toNat_le, UInt32.toNat_ofNat']
  rw [(receiveChunk_taken found below.2 left).1, ← compared]
  split
  · rename_i reached
    exact iff_of_true rfl reached
  · rename_i unfinished
    exact iff_of_false (by decide) unfinished

/-- Successful calls report the end of the file exactly when it is complete
just when there are fewer than `2 ^ 32` of them, and they are fewer than the
chunks or the first of them, as many as there are chunks, carry distinct
numbers. -/
theorem completion_exact_iff
    (start : fileRecvStart recvs info = some started) (left : Bytes)
    (successful : ∀ before call after, calls = before ++ call :: after →
      (receiveChunk left recvs.length
        (receiveChunks left recvs.length started before) call).1 ≠ -1) :
    (∀ before call after, calls = before ++ call :: after →
        ((receiveChunk left recvs.length
            (receiveChunks left recvs.length started before) call).1 = 1 ↔
          ∀ i, i < info.totalChunks.toNat →
            ∃ other ∈ before ++ [call], other.number = i)) ↔
      calls.length < 2 ^ 32 ∧
        (calls.length < info.totalChunks.toNat ∨
          ((calls.take info.totalChunks.toNat).map
            ChunkCall.number).Nodup) := by
  have below := (successful_iff start left).mp successful
  have few : info.totalChunks.toNat < 2 ^ 32 := info.totalChunks.toNat_lt
  have numbers :
      ∀ seq ∈ calls.map ChunkCall.number,
        seq < info.totalChunks.toNat := by
    intro seq member
    obtain ⟨call, listed, rfl⟩ := List.mem_map.mp member
    exact UInt32.lt_iff_toNat_lt.mp (below call listed)
  have counted := count_covers_iff numbers few
  rw [List.length_map] at counted
  rw [List.map_take, ← counted]
  refine forall_split_iff_take.trans (forall_congr' fun k =>
    forall_congr' fun inside => ?_)
  have joined : calls.take k ++ [calls[k]] = calls.take (k + 1) :=
    List.take_append_getElem inside
  have said :=
    receiveChunk_after start left (calls.take k) calls[k] (by
      rw [joined]
      exact fun call member => below call (List.mem_of_mem_take member))
  rw [said, joined, List.length_take_of_le inside.le, ← List.map_take]
  simp only [Covers, List.mem_map]

end

/-- A file of two chunks. -/
def sampleMeta : FileMeta :=
  { filename := [0x61], totalSize := 2048, totalChunks := 2, checksum := 0 }

def sampleCalls (order : List UInt32) : List ChunkCall :=
  order.map fun seq => { data := [1], chunkSeq := seq }

/-- The second of three calls completes it. -/
theorem completion_exact_iff_sample :
    (receiveChunk [] 0
        (receiveChunks [] 0 [receiving sampleMeta none 0] (sampleCalls [1]))
        { data := [1], chunkSeq := 0 }).1 = 1 ↔
      ∀ i, i < 2 → ∃ other ∈ sampleCalls [1, 0], other.number = i := by
  have start :
      fileRecvStart [] sampleMeta = some [receiving sampleMeta none 0] := by
    rfl
  have below :
      ∀ call ∈ sampleCalls [1, 0, 1],
        call.chunkSeq < sampleMeta.totalChunks := by
    simp [sampleCalls, sampleMeta]
  have distinct :
      ((sampleCalls [1, 0, 1]).take sampleMeta.totalChunks.toNat).map
          ChunkCall.number = [1, 0] := by
    rfl
  refine (completion_exact_iff start []
    ((successful_iff start []).mpr below)).mpr ⟨by decide, Or.inr ?_⟩
    (sampleCalls [1]) { data := [1], chunkSeq := 0 } (sampleCalls [1]) rfl
  rw [distinct]
  decide

/-- The first chunk twice: the second call reports the end of a file whose
second chunk is missing. -/
theorem repeated_chunk_completes :
    let recvs := [receiving sampleMeta none 0]
    let calls := sampleCalls [0, 0]
    fileRecvStart [] sampleMeta = some recvs ∧
      (receiveChunk [] 0 recvs calls[0]).1 = 0 ∧
      (receiveChunk [] 0 (receiveChunks [] 0 recvs [calls[0]]) calls[1]).1 =
        1 ∧
      ¬ ∃ call ∈ calls, call.number = 1 := by
  refine ⟨rfl, by decide, by decide, by decide⟩

/-! ## Putting the chunks together -/

/-- The chunk of a file with this number. -/
def fileChunk (content : Bytes) (i : Nat) : Bytes :=
  (content.drop (i * fileChunkSize)).take fileChunkSize

/-- The call that carries a chunk of the file. -/
def chunkCall (content : Bytes) (chunkSeq : UInt32) : ChunkCall :=
  { data := fileChunk content chunkSeq.toNat, chunkSeq := chunkSeq }

/-- The part is no longer than the file, and agrees with it on the chunks that
were written. -/
structure PartOf (content : Bytes) (written : List Nat) (part : Bytes) :
    Prop where
  short : part.length ≤ content.length
  agrees :
    ∀ i ∈ written, ∀ j, i * fileChunkSize ≤ j →
      j < i * fileChunkSize + fileChunkSize → part[j]? = content[j]?

section

variable {content part : Bytes} {written : List Nat}

theorem PartOf.nil (content : Bytes) : PartOf content [] [] :=
  ⟨Nat.zero_le _, fun _ member => absurd member List.not_mem_nil⟩

theorem length_fileChunk {i : Nat} :
    (fileChunk content i).length =
      min fileChunkSize (content.length - i * fileChunkSize) := by
  rw [fileChunk, List.length_take, List.length_drop]

/-- A chunk that is written agrees with the file, and so does what agreed
before. -/
theorem getElem?_writeChunk
    (short : part.length ≤ content.length) {i : Nat}
    (inside : i * fileChunkSize < content.length) {j : Nat}
    (agrees :
      i * fileChunkSize ≤ j ∧ j < i * fileChunkSize + fileChunkSize ∨
        part[j]? = content[j]?) :
    (writeAt part (i * fileChunkSize) (fileChunk content i))[j]? =
      content[j]? := by
  have size : (fileChunk content i).length = _ := length_fileChunk
  by_cases before : j < i * fileChunkSize
  · have same := agrees.resolve_left (by omega)
    rw [getElem?_writeAt_before _ _ _ before, List.getD_eq_getElem?_getD,
      same, List.getElem?_eq_getElem (before.trans inside)]
    rfl
  · rw [getElem?_writeAt_from _ _ _ (Nat.not_lt.mp before)]
    by_cases new : j < i * fileChunkSize + (fileChunk content i).length
    · rw [if_pos new, fileChunk, List.getElem?_take_of_lt (by omega),
        List.getElem?_drop, Nat.add_sub_of_le (Nat.not_lt.mp before)]
    · rw [if_neg new]
      rcases agrees with own | same
      · -- The last chunk ends with the file.
        rw [List.getElem?_eq_none (by omega),
          List.getElem?_eq_none (by omega)]
      · exact same

theorem PartOf.write
    (partOf : PartOf content written part) {i : Nat}
    (inside : i * fileChunkSize < content.length) :
    PartOf content (written ++ [i])
      (writeAt part (i * fileChunkSize) (fileChunk content i)) := by
  constructor
  · have size : (fileChunk content i).length = _ := length_fileChunk
    have short := partOf.short
    rw [length_writeAt]
    omega
  · intro other member j low high
    refine getElem?_writeChunk partOf.short inside ?_
    rw [List.mem_append, List.mem_singleton] at member
    rcases member with old | rfl
    · exact Or.inr (partOf.agrees other old j low high)
    · exact Or.inl ⟨low, high⟩

/-- With all chunks written, the part is the file. -/
theorem PartOf.eq
    (partOf : PartOf content written part)
    (covers :
      Covers ((content.length + fileChunkSize - 1) / fileChunkSize) written) :
    part = content := by
  refine List.ext_getElem? fun j => ?_
  by_cases inside : j < content.length
  · have positive : 0 < fileChunkSize := by
      decide
    have member := covers (j / fileChunkSize) (by
      rw [Nat.div_lt_iff_lt_mul positive]
      have divided := Nat.div_add_mod (content.length + fileChunkSize - 1)
        fileChunkSize
      have rest := Nat.mod_lt (content.length + fileChunkSize - 1) positive
      rw [Nat.mul_comm]
      omega)
    have divided := Nat.div_add_mod j fileChunkSize
    have rest := Nat.mod_lt j positive
    rw [Nat.mul_comm] at divided
    exact partOf.agrees _ member j (by omega) (by omega)
  · have short := partOf.short
    rw [List.getElem?_eq_none (by omega), List.getElem?_eq_none (by omega)]

/-- Chunks of the file that arrive in any order. -/
theorem receiveChunks_genuine
    {recvs : List FileRecv} {idx n : Nat} {info : FileMeta}
    {kept : Option Bytes}
    (found : recvs[idx]? = some (receiving info kept n))
    (partOf : PartOf content written (kept.getD []))
    (small : content.length < 2 ^ 32)
    (inside : ∀ seq : UInt32, seq < info.totalChunks →
      seq.toNat * fileChunkSize < content.length)
    {order : List UInt32} (below : ∀ seq ∈ order, seq < info.totalChunks) :
    ∃ later,
      (receiveChunks [] idx recvs (order.map (chunkCall content)))[idx]? =
          some (receiving info later (n + order.length)) ∧
        PartOf content (written ++ order.map UInt32.toNat)
          (later.getD []) ∧
        (order ≠ [] ∨ kept.isSome = true → later.isSome = true) := by
  induction order generalizing recvs n kept written with
  | nil =>
      refine ⟨kept, found, ?_, fun some => some.resolve_left fun h => h rfl⟩
      rw [List.map_nil, List.append_nil]
      exact partOf
  | cons seq rest inductionHypothesis =>
      rw [List.forall_mem_cons] at below
      have fits := inside seq below.1
      have place : (seq * 1024).toNat = seq.toNat * fileChunkSize := by
        rw [UInt32.toNat_mul]
        exact Nat.mod_eq_of_lt (fits.trans small)
      have taken :
          (receiveChunk [] idx recvs (chunkCall content seq)).2[idx]? = _ :=
        (receiveChunk_taken found below.1 []).2
      have wrote := partOf.write fits
      rw [← place] at wrote
      obtain ⟨later, holds, whole, some⟩ :=
        inductionHypothesis taken wrote below.2
      refine ⟨later, ?_, ?_, fun _ => some (Or.inr rfl)⟩
      · rw [List.length_cons, Nat.add_comm rest.length, ← Nat.add_assoc]
        exact holds
      · rw [List.map_cons, List.append_cons]
        exact whole

/-- The file is saved when it is whole, its checksum is right and the calls
were enough. -/
theorem fileRecvFinish_whole
    {recvs : List FileRecv} {idx n : Nat} {info : FileMeta}
    (found : recvs[idx]? = some (receiving info (some content) n))
    (size : info.totalSize.toNat = content.length)
    (sum : info.checksum = fileChecksumLoop content.length content 0)
    (enough : info.totalChunks ≤ UInt32.ofNat n) :
    fileRecvFinish recvs idx = some content := by
  have passes :
      (!(receiving info (some content) n).active ||
        decide ((receiving info (some content) n).chunksRecvd <
          (receiving info (some content) n).details.totalChunks)) =
        false :=
    decide_eq_false (UInt32.not_lt.mpr enough)
  unfold fileRecvFinish
  rw [found]
  dsimp only
  rw [passes, if_neg (by decide)]
  simp [receiving, size, sum]

/-- Chunks of a file in any order and with any repetitions give the file, when
every chunk is among them and the count of the calls does not wrap. -/
theorem chunks_reassemble
    {recvs : List FileRecv} (room : recvs.length < fileTransferMax)
    {info : FileMeta} (nonempty : 0 < content.length)
    (small : content.length ≤ 2 ^ 32 - 1024)
    (size : info.totalSize.toNat = content.length)
    (chunks :
      info.totalChunks.toNat =
        (content.length + fileChunkSize - 1) / fileChunkSize)
    (sum : info.checksum = fileChecksumLoop content.length content 0)
    {order : List UInt32} (below : ∀ seq ∈ order, seq < info.totalChunks)
    (complete : ∀ seq, seq < info.totalChunks → seq ∈ order)
    (few : order.length < 2 ^ 32) :
    ∃ started, fileRecvStart recvs info = some started ∧
      fileRecvFinish
          (receiveChunks [] recvs.length started
            (order.map (chunkCall content)))
          recvs.length = some content := by
  have allowed : info.totalChunks.toNat ≤ fileMaxChunks := by
    rw [chunks, fileMaxChunks, fileChunkSize]
    omega
  have start :
      fileRecvStart recvs info = some (recvs ++ [{ details := info }]) := by
    unfold fileRecvStart
    rw [if_neg (by omega)]
  refine ⟨_, start, ?_⟩
  have inside (seq : UInt32) (chunk : seq < info.totalChunks) :
      seq.toNat * fileChunkSize < content.length := by
    have number := UInt32.lt_iff_toNat_lt.mp chunk
    rw [chunks, fileChunkSize] at number
    rw [fileChunkSize]
    omega
  obtain ⟨later, found, whole, some⟩ :=
    receiveChunks_genuine (fileRecvStart_started start).1
      (PartOf.nil content) (by omega) inside below
  rw [List.nil_append] at whole
  rw [Nat.zero_add] at found
  have covers : Covers info.totalChunks.toNat (order.map UInt32.toNat) := by
    intro i number
    have bound := info.totalChunks.toNat_lt
    have value : (UInt32.ofNat i).toNat = i :=
      UInt32.toNat_ofNat_of_lt' (number.trans bound)
    refine List.mem_map.mpr ⟨UInt32.ofNat i, complete _ ?_, value⟩
    rw [UInt32.lt_iff_toNat_lt, value]
    exact number
  have enough := covers.length_le
  rw [List.length_map] at enough
  have called : order ≠ [] := by
    rintro rfl
    rw [chunks, fileChunkSize, List.length_nil] at enough
    omega
  obtain ⟨part, rfl⟩ := Option.isSome_iff_exists.mp (some (Or.inl called))
  rw [chunks] at covers
  have same : part = content := whole.eq covers
  rw [same] at found
  refine fileRecvFinish_whole found size sum ?_
  rw [UInt32.le_iff_toNat_le, UInt32.toNat_ofNat_of_lt' few]
  exact enough

end

/-- A file of 1025 bytes, whose last chunk comes first and twice. -/
theorem chunks_reassemble_sample :
    let content : Bytes := List.replicate 1025 7
    let info : FileMeta :=
      { filename := [0x61], totalSize := 1025, totalChunks := 2
        checksum := fileChecksumLoop content.length content 0 }
    ∃ started, fileRecvStart [] info = some started ∧
      fileRecvFinish
          (receiveChunks [] 0 started
            (([1, 0, 1] : List UInt32).map (chunkCall content))) 0 =
        some content := by
  intro content info
  have length : content.length = 1025 := List.length_replicate
  have two (seq : UInt32) : seq < info.totalChunks ↔ seq = 0 ∨ seq = 1 := by
    change seq < 2 ↔ _
    rw [UInt32.lt_iff_toNat_lt, ← UInt32.toNat_inj, ← UInt32.toNat_inj]
    change seq.toNat < 2 ↔ seq.toNat = 0 ∨ seq.toNat = 1
    omega
  refine chunks_reassemble (by decide) (by rw [length]; decide)
    (by rw [length]; decide) (by rw [length]; rfl) (by rw [length]; rfl)
    (by simp only [info]) ?_ ?_ (by decide)
  · simp [two]
  · intro seq chunk
    rcases (two seq).mp chunk with rfl | rfl
    · simp
    · simp

/-! ## What the sender says of a file -/

/-- The size, the number of chunks and the checksum are those of the whole
file. -/
structure Describes (content : Bytes) (info : FileMeta) : Prop where
  size : info.totalSize.toNat = content.length
  chunks :
    info.totalChunks.toNat =
      (content.length + fileChunkSize - 1) / fileChunkSize
  some : 1 ≤ info.totalChunks.toNat
  checksum : info.checksum = fileChecksumLoop content.length content 0

/-- The table of the sender after a call of `file_send_start`. -/
def sendsAfter (sends : List FileSend) (file : Option DiskFile) :
    List FileSend :=
  (fileSendStart sends file).getD sends

/-- The call describes the file, or fails and adds no transfer. -/
def StartsOrFails (sends : List FileSend) (file : DiskFile) : Prop :=
  (∃ send, fileSendStart sends (some file) = some (sends ++ [send]) ∧
      sendsAfter sends (some file) = sends ++ [send] ∧
      Describes file.content send.details) ∨
    (fileSendStart sends (some file) = none ∧
      (sendsAfter sends (some file)).length = sends.length)

/-- The meta data of a nonempty file. -/
def sendMeta (file : DiskFile) : FileMeta :=
  let size := UInt32.ofNat file.content.length
  let read := file.content.take size.toNat
  { filename := file.basename.take 255
    totalSize := size
    totalChunks := (size + 1024 - 1) / 1024
    checksum := fileChecksumLoop read.length read 0 }

section

variable {sends : List FileSend} {file : DiskFile}

theorem fileSendStart_full (full : fileTransferMax ≤ sends.length)
    (given : Option DiskFile) : fileSendStart sends given = none := by
  unfold fileSendStart
  rw [if_pos full]

theorem fileSendStart_room
    (room : sends.length < fileTransferMax)
    (nonempty : file.content.length ≠ 0) :
    fileSendStart sends (some file) =
      some (sends ++ [{ details := sendMeta file }]) := by
  unfold fileSendStart
  rw [if_neg (Nat.not_le.mpr room)]
  dsimp only
  rw [if_neg nonempty]
  rfl

/-- The meta data are right up to `2 ^ 32 - 1024` bytes. -/
theorem describes_sendMeta_iff (nonempty : file.content.length ≠ 0) :
    Describes file.content (sendMeta file) ↔
      file.content.length ≤ 2 ^ 32 - 1024 := by
  have size :
      (sendMeta file).totalSize.toNat = file.content.length % 2 ^ 32 :=
    UInt32.toNat_ofNat'
  have chunks :
      (sendMeta file).totalChunks.toNat =
        (file.content.length % 2 ^ 32 + 1023) % 2 ^ 32 / 1024 := by
    change ((UInt32.ofNat file.content.length + 1024 - 1) / 1024).toNat = _
    rw [UInt32.toNat_div, UInt32.toNat_sub, UInt32.toNat_add,
      UInt32.toNat_ofNat']
    change (2 ^ 32 - 1 + (file.content.length % 2 ^ 32 + 1024) % 2 ^ 32) %
      2 ^ 32 / 1024 = _
    omega
  constructor
  · intro described
    have right := described.size
    have number := described.chunks
    have some := described.some
    rw [size] at right
    rw [chunks] at number some
    omega
  · intro small
    have whole : file.content.length % 2 ^ 32 = file.content.length :=
      Nat.mod_eq_of_lt (by omega)
    rw [whole] at size chunks
    refine ⟨size, ?_, ?_, ?_⟩
    · rw [chunks, fileChunkSize, Nat.mod_eq_of_lt (by omega)]
      rfl
    · rw [chunks, Nat.mod_eq_of_lt (by omega)]
      omega
    · have read :
          file.content.take (UInt32.ofNat file.content.length).toNat =
            file.content :=
        List.take_of_length_le (Nat.le_of_eq size.symm)
      change fileChecksumLoop
        (file.content.take
          (UInt32.ofNat file.content.length).toNat).length _ 0 = _
      rw [read]

/-- With room in the table a nonempty file is announced. -/
theorem startsOrFails_iff
    (room : sends.length < fileTransferMax)
    (nonempty : file.content.length ≠ 0) :
    StartsOrFails sends file ↔ Describes file.content (sendMeta file) := by
  have starts := fileSendStart_room room nonempty
  constructor
  · intro outcome
    rcases outcome with ⟨send, started, -, described⟩ | ⟨failed, -⟩
    · rw [starts] at started
      have same := List.append_cancel_left (Option.some_inj.mp started)
      injection same with same
      rw [← same] at described
      exact described
    · rw [starts] at failed
      cases failed
  · intro described
    refine Or.inl ⟨_, starts, ?_, described⟩
    rw [sendsAfter, starts]
    rfl

/-- `file_send_start` describes a file or fails exactly when the table is full
or the file has at most `2 ^ 32 - 1024` bytes. -/
theorem file_metadata_iff (sends : List FileSend) (file : DiskFile) :
    StartsOrFails sends file ↔
      fileTransferMax ≤ sends.length ∨
        file.content.length ≤ 2 ^ 32 - 1024 := by
  by_cases full : fileTransferMax ≤ sends.length
  · have fails := fileSendStart_full full (some file)
    refine iff_of_true (Or.inr ⟨fails, ?_⟩) (Or.inl full)
    rw [sendsAfter, fails]
    rfl
  · by_cases empty : file.content.length = 0
    · have fails : fileSendStart sends (some file) = none := by
        unfold fileSendStart
        rw [if_neg full]
        dsimp only
        rw [if_pos empty]
      refine iff_of_true (Or.inr ⟨fails, ?_⟩) (Or.inr (by omega))
      rw [sendsAfter, fails]
      rfl
    · rw [startsOrFails_iff (Nat.not_le.mp full) empty,
        describes_sendMeta_iff empty]
      exact (or_iff_right full).symm

end

/-- A file of zeros. -/
def zeroFile (size : Nat) : DiskFile :=
  { basename := asciiBytes ['a'], content := List.replicate size 0 }

/-- A file of `2 ^ 32 - 1` bytes is announced with no chunk, and one of
`2 ^ 32` bytes as empty. -/
theorem large_file_misdescribed :
    ((sendMeta (zeroFile (2 ^ 32 - 1))).totalChunks = 0 ∧
        fileSendStart [] (some (zeroFile (2 ^ 32 - 1))) =
          some [{ details := sendMeta (zeroFile (2 ^ 32 - 1)) }] ∧
        ¬ StartsOrFails [] (zeroFile (2 ^ 32 - 1))) ∧
      (sendMeta (zeroFile (2 ^ 32))).totalSize = 0 ∧
        fileSendStart [] (some (zeroFile (2 ^ 32))) =
          some [{ details := sendMeta (zeroFile (2 ^ 32)) }] ∧
        ¬ StartsOrFails [] (zeroFile (2 ^ 32)) := by
  have length (size : Nat) : (zeroFile size).content.length = size :=
    List.length_replicate
  have fails (size : Nat) (large : 2 ^ 32 - 1024 < size) :
      fileSendStart [] (some (zeroFile size)) =
          some [{ details := sendMeta (zeroFile size) }] ∧
        ¬ StartsOrFails [] (zeroFile size) := by
    have some : (zeroFile size).content.length ≠ 0 := by
      rw [length]
      omega
    refine ⟨fileSendStart_room (by decide) some, ?_⟩
    rw [startsOrFails_iff (by decide) some, describes_sendMeta_iff some,
      length]
    omega
  refine ⟨⟨?_, fails _ (by decide)⟩, ?_, fails _ (by decide)⟩
  · change (UInt32.ofNat (zeroFile (2 ^ 32 - 1)).content.length + 1024 - 1) /
      1024 = 0
    rw [length]
    decide
  · change UInt32.ofNat (zeroFile (2 ^ 32)).content.length = 0
    rw [length]
    decide

end PqComm
