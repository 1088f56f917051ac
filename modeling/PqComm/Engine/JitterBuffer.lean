import PqComm.Lib.CircularBuffer
import PqComm.Lib.Runs

/-!
# The jitter buffer

`jitter_init`, `jitter_push` and `jitter_pop` of `audio_pipeline.c`.

A pop takes the frame at the read cursor and moves the cursor on.  A push
writes `count` places behind the write cursor, which nothing ever moves, and
not behind the read cursor.  So a frame comes to the end of the queue only when
the two cursors agree, that is when the read cursor has come round to zero.
-/

namespace PqComm

open Lib

/-! ## `audio_pipeline.c` -/

def audioFrameMs : Nat := 20
def jitterMaxMs : Nat := 100
def jitterMaxFrames : Nat := jitterMaxMs / audioFrameMs

/-- `audio_frame_t`. -/
structure PcmFrame where
  samples : List Int16
  seq : UInt64
  timestampMs : UInt64
  deriving DecidableEq

/-- The frame that `memset` leaves. -/
def zeroFrame : PcmFrame :=
  { samples := List.replicate 960 0, seq := 0, timestampMs := 0 }

/-- `jitter_buffer_t`. -/
structure JitterBuffer where
  buffer : Nat → PcmFrame := fun _ => zeroFrame
  count : Nat := 0
  readCursor : Nat := 0
  writeCursor : Nat := 0
  targetFrames : Nat

def jitterInit (targetMs : UInt32) : JitterBuffer :=
  let target := targetMs.toNat / audioFrameMs
  let target := if target < 1 then 1 else target
  { targetFrames :=
      if target > jitterMaxFrames then jitterMaxFrames else target }

/-- `jitter_push`; `false` stands for -1. -/
def jitterPush (jb : JitterBuffer) (frame : PcmFrame) :
    Bool × JitterBuffer :=
  if jb.count ≥ jitterMaxFrames then
    (false, jb)
  else
    let pos := (jb.writeCursor + jb.count) % jitterMaxFrames
    (true,
      { jb with
        buffer := writeSlot jb.buffer pos frame
        count := jb.count + 1 })

/-- `jitter_pop`: the frame, or `none` for -1. -/
def jitterPop (jb : JitterBuffer) : Option PcmFrame × JitterBuffer :=
  if jb.count = 0 then
    (none, jb)
  else if jb.count < jb.targetFrames then
    (none, jb)
  else
    (some (jb.buffer jb.readCursor),
      { jb with
        readCursor := (jb.readCursor + 1) % jitterMaxFrames
        count := jb.count - 1 })

/-! ## Runs -/

inductive JitterAct where
  | push (frame : PcmFrame)
  | pop

namespace JitterBuffer

def step (jb : JitterBuffer) : JitterAct → JitterBuffer
  | .push frame => (jitterPush jb frame).2
  | .pop => (jitterPop jb).2

def run (jb : JitterBuffer) (acts : List JitterAct) : JitterBuffer :=
  acts.foldl step jb

/-- The frames of the pushes that succeed. -/
def accepted : JitterBuffer → List JitterAct → List PcmFrame :=
  emitted step fun jb act =>
    match act with
    | .push frame => if (jitterPush jb frame).1 then [frame] else []
    | .pop => []

/-- The frames of the pops that succeed. -/
def returned : JitterBuffer → List JitterAct → List PcmFrame :=
  emitted step fun jb act =>
    match act with
    | .push _ => []
    | .pop => (jitterPop jb).1.toList

/-- Frames come out in the order in which they went in, and the count says how
many are inside. -/
structure Fifo (jb : JitterBuffer) (acts : List JitterAct) : Prop where
  order : jb.returned acts <+: jb.accepted acts
  count :
    (jb.run acts).count + (jb.returned acts).length =
      (jb.accepted acts).length

/-- A push that succeeds writes behind the read cursor. -/
def Aligned (jb : JitterBuffer) : JitterAct → Prop
  | .push _ =>
      jb.count < jitterMaxFrames → jb.readCursor = jb.writeCursor
  | .pop => True

/-! ## The queue -/

/-- The frames that wait, from the read cursor on. -/
structure Waiting (jb : JitterBuffer) (frames : List PcmFrame) : Prop where
  circular : Circular jitterMaxFrames jb.buffer jb.readCursor frames
  cursor : jb.readCursor < jitterMaxFrames
  count : jb.count = frames.length

theorem waiting_init (targetMs : UInt32) : (jitterInit targetMs).Waiting [] :=
  ⟨Circular.nil _ _ _, (by decide : 0 < jitterMaxFrames), rfl⟩

section

variable {jb : JitterBuffer} {frames : List PcmFrame}

/-- A push appends its frame, or fails in a full buffer. -/
theorem Waiting.push
    (waiting : jb.Waiting frames) (frame : PcmFrame)
    (aligned : jb.Aligned (.push frame)) :
    (jitterPush jb frame).2.Waiting
      (frames ++ if (jitterPush jb frame).1 then [frame] else []) := by
  unfold jitterPush
  by_cases full : jb.count ≥ jitterMaxFrames
  · rw [if_pos full]
    simpa using waiting
  · rw [if_neg full]
    have room : frames.length < jitterMaxFrames := by
      rw [← waiting.count]
      exact Nat.not_le.mp full
    have pushed := waiting.circular.push room frame
    rw [← waiting.count, aligned (Nat.not_le.mp full)] at pushed
    refine ⟨?_, waiting.cursor, ?_⟩
    · change Circular _ _ jb.readCursor _
      rw [aligned (Nat.not_le.mp full)]
      exact pushed
    · simp [waiting.count]

/-- A pop takes the first frame, or fails. -/
theorem Waiting.pop (waiting : jb.Waiting frames) :
    ∃ rest, frames = (jitterPop jb).1.toList ++ rest ∧
      (jitterPop jb).2.Waiting rest := by
  unfold jitterPop
  by_cases empty : jb.count = 0
  · rw [if_pos empty]
    exact ⟨frames, rfl, waiting⟩
  · rw [if_neg empty]
    by_cases few : jb.count < jb.targetFrames
    · rw [if_pos few]
      exact ⟨frames, rfl, waiting⟩
    · rw [if_neg few]
      cases frames with
      | nil =>
          exact absurd waiting.count empty
      | cons first rest =>
          have head := waiting.circular.head
          rw [Nat.mod_eq_of_lt waiting.cursor] at head
          refine ⟨rest, ?_, ?_, Nat.mod_lt _ (by decide), ?_⟩
          · rw [head]
            rfl
          · exact waiting.circular.pop.congr_start (Nat.mod_mod _ _)
          · change jb.count - 1 = rest.length
            rw [waiting.count]
            rfl

/-- What went in is what came out and what still waits. -/
theorem Waiting.run
    (waiting : jb.Waiting frames) {acts : List JitterAct}
    (aligned : ∀ before act after, acts = before ++ act :: after →
      (jb.run before).Aligned act) :
    ∃ rest, frames ++ jb.accepted acts = jb.returned acts ++ rest ∧
      (jb.run acts).Waiting rest := by
  induction acts generalizing jb frames with
  | nil =>
      exact ⟨frames, List.append_nil frames, waiting⟩
  | cons act acts inductionHypothesis =>
      rw [forall_split_cons] at aligned
      obtain ⟨first, later⟩ := aligned
      cases act with
      | push frame =>
          obtain ⟨rest, moved, waits⟩ :=
            inductionHypothesis (waiting.push frame first) later
          rw [List.append_assoc] at moved
          exact ⟨rest, moved, waits⟩
      | pop =>
          obtain ⟨left, shape, waits⟩ := waiting.pop
          obtain ⟨rest, moved, waits⟩ := inductionHypothesis waits later
          refine ⟨rest, ?_, waits⟩
          change frames ++ ([] ++ (jitterPop jb).2.accepted acts) =
            (jitterPop jb).1.toList ++ (jitterPop jb).2.returned acts ++ rest
          rw [List.nil_append, shape, List.append_assoc, moved,
            List.append_assoc]

end

/-- As long as every push that succeeds finds the cursors together, the buffer
is a queue in every state that is reached. -/
theorem jitter_fifo
    (targetMs : UInt32) (acts : List JitterAct)
    (aligned : ∀ before act after, acts = before ++ act :: after →
      ((jitterInit targetMs).run before).Aligned act) :
    ∀ before after, acts = before ++ after →
      (jitterInit targetMs).Fifo before := by
  intro before after split
  have sooner : ∀ first act rest, before = first ++ act :: rest →
      ((jitterInit targetMs).run first).Aligned act := by
    intro first act rest shape
    refine aligned first act (rest ++ after) ?_
    rw [split, shape, List.append_assoc, List.cons_append]
  obtain ⟨rest, moved, waits⟩ := (waiting_init targetMs).run sooner
  rw [List.nil_append] at moved
  refine ⟨⟨rest, moved.symm⟩, ?_⟩
  rw [moved, waits.count, List.length_append, Nat.add_comm]

def sampleFrame (seq : UInt64) : PcmFrame :=
  { samples := [], seq := seq, timestampMs := 0 }

/-- Two frames go in and the first comes out. -/
theorem jitter_fifo_sample :
    (jitterInit 40).Fifo
      [.push (sampleFrame 1), .push (sampleFrame 2), .pop] := by
  refine jitter_fifo 40 [.push (sampleFrame 1), .push (sampleFrame 2), .pop]
    ?_ _ [] rfl
  refine forall_split_cons.mpr ⟨fun _ => rfl, ?_⟩
  refine forall_split_cons.mpr ⟨fun _ => rfl, ?_⟩
  exact forall_split_cons.mpr ⟨trivial, forall_split_nil⟩

/-- A frame that is pushed after a pop takes the place of one that waits, and
later a frame that nobody pushed comes out. -/
theorem jitter_push_after_pop :
    let acts : List JitterAct :=
      [.push (sampleFrame 1), .push (sampleFrame 2), .pop,
        .push (sampleFrame 3), .pop, .push (sampleFrame 4), .pop]
    (jitterInit 20).accepted acts =
        [sampleFrame 1, sampleFrame 2, sampleFrame 3, sampleFrame 4] ∧
      (jitterInit 20).returned acts =
        [sampleFrame 1, sampleFrame 3, zeroFrame] ∧
      ¬ (jitterInit 20).Fifo acts := by
  intro acts
  have accepts :
      (jitterInit 20).accepted acts =
        [sampleFrame 1, sampleFrame 2, sampleFrame 3, sampleFrame 4] := by
    rfl
  have returns :
      (jitterInit 20).returned acts =
        [sampleFrame 1, sampleFrame 3, zeroFrame] := by
    rfl
  refine ⟨accepts, returns, fun fifo => ?_⟩
  have order := fifo.order
  rw [accepts, returns] at order
  have second := (List.cons_prefix_cons.mp order).2
  have same := (List.cons_prefix_cons.mp second).1
  exact absurd (congrArg PcmFrame.seq same) (by decide)

end JitterBuffer

end PqComm
