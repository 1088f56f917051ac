import PqComm.Engine.Senders
import PqComm.Lib.CircularBuffer
import PqComm.Lib.Runs

/-!
# The transmit queues as rings

`scheduler_next` pops six rings in a fixed order.  The rings are arrays with
two indices here, and `RingArray.Holds` says which list lies in one.  Along any
pushes and pops the lists are those of `schedulerNext`, so that the six rings
together are one queue with priorities.
-/

namespace PqComm

open Lib

/-! ## One ring -/

/-- `spsc_ring_t`, whose calls are not interrupted here. -/
structure RingArray (α : Type) where
  slots : Nat → α
  writeIdx : Nat := 0
  readIdx : Nat := 0

section

variable {α : Type}

/-- `ring_push`: whether the item was taken, and the ring. -/
def RingArray.push (r : RingArray α) (item : α) : Bool × RingArray α :=
  let next := ringNext r.writeIdx
  if next = r.readIdx then
    (false, r)
  else
    (true,
      { r with
        slots := writeSlot r.slots r.writeIdx item
        writeIdx := next })

/-- `ring_pop`, where no item stands for NULL. -/
def RingArray.pop (r : RingArray α) : Option (α × RingArray α) :=
  if r.readIdx = r.writeIdx then
    none
  else
    some (r.slots r.readIdx, { r with readIdx := ringNext r.readIdx })

/-- The items from the read index up to the write index. -/
def RingArray.contents (r : RingArray α) : List α :=
  (List.range ((r.writeIdx + ringSize - r.readIdx) % ringSize)).map fun i =>
    r.slots ((r.readIdx + i) % ringSize)

/-- The memory of the ring that the two sides share. -/
def SpscRing.memory (r : SpscRing α) : RingArray α :=
  { slots := r.slots, writeIdx := r.writeIdx, readIdx := r.readIdx }

/-- A push that nobody interrupts does `RingArray.push` to the memory. -/
theorem memory_push
    {r : SpscRing α} (idle : r.producer = .idle) (item : α) :
    (r.run
        [.push item, .producer, .producer, .producer, .producer]).memory =
      (r.memory.push item).2 := by
  unfold RingArray.push
  simp only [SpscRing.run, List.foldl_cons, List.foldl_nil, SpscRing.act,
    idle, SpscRing.pushStep, SpscRing.memory]
  by_cases full : ringNext r.writeIdx = r.readIdx
  · simp only [full, if_true]
  · simp only [full, if_false]
    rfl

/-- A pop that nobody interrupts does `RingArray.pop` to the memory. -/
theorem memory_pop {r : SpscRing α} (idle : r.consumer = .idle) :
    let after :=
      r.run [.pop, .consumer, .consumer, .consumer, .consumer]
    (after.memory, after.popped) =
      match r.memory.pop with
      | none => (r.memory, r.popped)
      | some (item, ring) => (ring, r.popped ++ [item]) := by
  unfold RingArray.pop
  simp only [SpscRing.run, List.foldl_cons, List.foldl_nil, SpscRing.act,
    idle, SpscRing.popStep, SpscRing.memory]
  by_cases empty : r.readIdx = r.writeIdx
  · simp only [empty, if_true]
  · simp only [empty, if_false]

/-- The items that lie in a ring, the oldest first. -/
structure RingArray.Holds (r : RingArray α) (items : List α) : Prop where
  circular : Circular ringSize r.slots r.readIdx items
  readIdx : r.readIdx < ringSize
  writeIdx : r.writeIdx = (r.readIdx + items.length) % ringSize
  room : items.length < ringSize

variable {r : RingArray α} {items : List α}

theorem RingArray.Holds.init (slots : Nat → α) :
    RingArray.Holds { slots := slots } [] where
  circular := Circular.nil _ _ _
  readIdx := Nat.two_pow_pos 10
  writeIdx := rfl
  room := Nat.two_pow_pos 10

/-- The list that lies in a ring is what is between its indices. -/
theorem RingArray.Holds.contents_eq (holds : r.Holds items) :
    r.contents = items := by
  have size :
      (r.writeIdx + ringSize - r.readIdx) % ringSize = items.length := by
    have below := holds.readIdx
    have room := holds.room
    rw [holds.writeIdx]
    unfold ringSize at below room ⊢
    omega
  unfold RingArray.contents
  rw [size]
  refine List.ext_getElem? fun i => ?_
  by_cases inside : i < items.length
  · rw [holds.circular.holds i inside, List.getElem?_map,
      List.getElem?_range inside]
    rfl
  · rw [List.getElem?_eq_none (Nat.not_lt.mp inside),
      List.getElem?_eq_none (by simp; omega)]

theorem RingArray.Holds.full_iff (holds : r.Holds items) :
    ringNext r.writeIdx = r.readIdx ↔ items.length = ringSize - 1 := by
  have below := holds.readIdx
  have room := holds.room
  rw [holds.writeIdx, ringNext_mod]
  unfold ringSize at below room ⊢
  omega

theorem RingArray.Holds.empty_iff (holds : r.Holds items) :
    r.readIdx = r.writeIdx ↔ items = [] := by
  have below := holds.readIdx
  have room := holds.room
  rw [← List.length_eq_zero_iff, holds.writeIdx]
  unfold ringSize at below room ⊢
  omega

/-- `ring_push` is `ringPush` on the items. -/
theorem RingArray.Holds.push (holds : r.Holds items) (item : α) :
    (r.push item).1 = (ringPush items item).1 ∧
      (r.push item).2.Holds (ringPush items item).2 := by
  have room := holds.room
  unfold RingArray.push ringPush ringFull
  by_cases full : items.length = ringSize - 1
  · rw [if_pos (holds.full_iff.mpr full),
      if_pos (decide_eq_true (Nat.le_of_eq full.symm))]
    exact ⟨rfl, holds⟩
  · have free : ¬ items.length ≥ ringSize - 1 := by
      omega
    rw [if_neg (mt holds.full_iff.mp full), if_neg (by simpa using free)]
    refine ⟨rfl, ?_, holds.readIdx, ?_, ?_⟩
    · dsimp only
      rw [holds.writeIdx]
      exact holds.circular.push room item
    · dsimp only
      rw [holds.writeIdx, ringNext_mod, List.length_append, Nat.add_assoc]
      rfl
    · rw [List.length_append, List.length_singleton]
      omega

theorem RingArray.Holds.pop_nil (holds : r.Holds []) : r.pop = none := by
  unfold RingArray.pop
  rw [if_pos (holds.empty_iff.mpr rfl)]

/-- `ring_pop` takes the oldest item. -/
theorem RingArray.Holds.pop_cons
    {first : α} {rest : List α} (holds : r.Holds (first :: rest)) :
    ∃ ring, r.pop = some (first, ring) ∧ ring.Holds rest := by
  have below := holds.readIdx
  have room := holds.room
  have head := holds.circular.head
  rw [Nat.mod_eq_of_lt below] at head
  refine ⟨{ r with readIdx := ringNext r.readIdx }, ?_, ?_, ?_, ?_, ?_⟩
  · unfold RingArray.pop
    rw [if_neg (mt holds.empty_iff.mp (List.cons_ne_nil _ _)), head]
  · dsimp only
    rw [ringNext_eq]
    exact holds.circular.pop.congr_start (Nat.mod_mod _ _)
  · dsimp only
    rw [ringNext_eq]
    exact Nat.mod_lt _ (by decide)
  · dsimp only
    rw [holds.writeIdx, ringNext_eq, Nat.mod_add_mod, List.length_cons]
    congr 1
    omega
  · rw [List.length_cons] at room
    omega

end

/-! ## Six rings -/

/-- `tx_queues_t`. -/
abbrev TxRings := TxQueue → RingArray PacketBuf

/-- `tx_queues_init`, which leaves the slots as they are. -/
def txRingsInit (slots : TxQueue → Nat → PacketBuf) : TxRings :=
  fun queue => { slots := slots queue }

/-- `scheduler_next`.  With the packet comes the queue whose `ring_pop` has
given it. -/
def schedulerNextRing (rings : TxRings) :
    Option (TxQueue × PacketBuf × TxRings) :=
  txOrder.findSome? fun queue =>
    (rings queue).pop.map fun (p, ring) =>
      (queue, p, Function.update rings queue ring)

/-- What is called on the queues: `ring_push` on one of them, or
`scheduler_next`. -/
inductive TxRingCall where
  | push (queue : TxQueue) (p : PacketBuf)
  | next

def txStep (rings : TxRings) : TxRingCall → TxRings
  | .push queue p =>
      Function.update rings queue ((rings queue).push p).2
  | .next =>
      match schedulerNextRing rings with
      | none => rings
      | some (_, _, later) => later

/-- The packet that a call puts on a queue. -/
def acceptedBy (queue : TxQueue) (rings : TxRings) : TxRingCall → List PacketBuf
  | .push other p =>
      if other = queue ∧ ((rings other).push p).1 = true then [p] else []
  | .next => []

/-- The packet that a call takes from a queue. -/
def servedFrom (queue : TxQueue) (rings : TxRings) : TxRingCall → List PacketBuf
  | .push _ _ => []
  | .next =>
      match schedulerNextRing rings with
      | none => []
      | some (source, p, _) => if source = queue then [p] else []

/-- The same calls on lists. -/
def txQueuesStep (q : TxQueues) : TxRingCall → TxQueues
  | .push queue p => Function.update q queue (ringPush (q queue) p).2
  | .next =>
      match schedulerNext q with
      | none => q
      | some (_, later) => later

/-- The lists of the engine lie in the rings. -/
def TxHolds (rings : TxRings) (q : TxQueues) : Prop :=
  ∀ queue, (rings queue).Holds (q queue)

section

variable {rings : TxRings} {q : TxQueues}

theorem TxHolds.update
    (holds : TxHolds rings q) {queue : TxQueue} {ring : RingArray PacketBuf}
    {items : List PacketBuf} (own : ring.Holds items) :
    TxHolds (Function.update rings queue ring)
      (Function.update q queue items) := by
  intro other
  by_cases same : other = queue
  · subst same
    rw [Function.update_self, Function.update_self]
    exact own
  · rw [Function.update_of_ne same, Function.update_of_ne same]
    exact holds other

/-- Either all queues of an order are empty or there is a first one that is
not. -/
theorem first_waiting (q : TxQueues) (order : List TxQueue) :
    (∀ queue ∈ order, q queue = []) ∨
      ∃ higher queue lower p rest, order = higher ++ queue :: lower ∧
        (∀ other ∈ higher, q other = []) ∧ q queue = p :: rest := by
  induction order with
  | nil => exact Or.inl fun _ member => absurd member List.not_mem_nil
  | cons head tail inductionHypothesis =>
      cases waiting : q head with
      | cons p rest =>
          exact Or.inr ⟨[], head, tail, p, rest, rfl,
            fun _ member => absurd member List.not_mem_nil, waiting⟩
      | nil =>
          rcases inductionHypothesis with empty | found
          · exact Or.inl (List.forall_mem_cons.mpr ⟨waiting, empty⟩)
          · obtain ⟨higher, queue, lower, p, rest, split, empty, some⟩ :=
              found
            refine Or.inr ⟨head :: higher, queue, lower, p, rest, ?_, ?_,
              some⟩
            · rw [split, List.cons_append]
            · exact List.forall_mem_cons.mpr ⟨waiting, empty⟩

/-- Nothing is returned when all queues are empty. -/
theorem TxHolds.next_none
    (holds : TxHolds rings q) (empty : ∀ queue ∈ txOrder, q queue = []) :
    schedulerNextRing rings = none ∧ schedulerNext q = none := by
  constructor
  · refine List.findSome?_eq_none_iff.mpr fun queue member => ?_
    have own := holds queue
    rw [empty queue member] at own
    rw [own.pop_nil]
    rfl
  · refine List.findSome?_eq_none_iff.mpr fun queue member => ?_
    rw [empty queue member]

/-- Otherwise the first queue that is not empty loses its oldest packet. -/
theorem TxHolds.next_some
    (holds : TxHolds rings q) {higher lower : List TxQueue}
    {queue : TxQueue} {p : PacketBuf} {rest : List PacketBuf}
    (split : txOrder = higher ++ queue :: lower)
    (empty : ∀ other ∈ higher, q other = []) (some : q queue = p :: rest) :
    ∃ later, schedulerNextRing rings = .some (queue, p, later) ∧
      schedulerNext q = .some (p, Function.update q queue rest) ∧
      TxHolds later (Function.update q queue rest) := by
  have own := holds queue
  rw [some] at own
  obtain ⟨ring, popped, shorter⟩ := own.pop_cons
  refine ⟨Function.update rings queue ring, ?_, ?_, holds.update shorter⟩
  · refine List.findSome?_eq_some_iff.mpr
      ⟨higher, queue, lower, split, ?_, fun other member => ?_⟩
    · rw [popped]
      rfl
    · have nothing := holds other
      rw [empty other member] at nothing
      rw [nothing.pop_nil]
      rfl
  · refine List.findSome?_eq_some_iff.mpr
      ⟨higher, queue, lower, split, ?_, fun other member => ?_⟩
    · rw [some]
    · rw [empty other member]

theorem mem_txOrder (queue : TxQueue) : queue ∈ txOrder := by
  cases queue <;> decide

/-- Every call does to the rings what it does to the lists, and what it puts
on a queue comes behind what it takes from it. -/
theorem TxHolds.step (holds : TxHolds rings q) (call : TxRingCall) :
    TxHolds (txStep rings call) (txQueuesStep q call) ∧
      ∀ queue, q queue ++ acceptedBy queue rings call =
        servedFrom queue rings call ++ txQueuesStep q call queue := by
  cases call with
  | push target p =>
      obtain ⟨verdict, held⟩ := (holds target).push p
      refine ⟨holds.update held, fun queue => ?_⟩
      rw [acceptedBy, servedFrom, txQueuesStep, verdict, List.nil_append]
      by_cases own : queue = target
      · subst own
        rw [Function.update_self]
        unfold ringPush
        by_cases full : ringFull (q queue)
        · rw [if_pos full, if_neg fun both => Bool.noConfusion both.2,
            List.append_nil]
        · rw [if_neg full, if_pos ⟨rfl, rfl⟩]
      · rw [Function.update_of_ne own, if_neg fun both => own both.1.symm,
          List.append_nil]
  | next =>
      rw [txStep, txQueuesStep]
      rcases first_waiting q txOrder with empty | found
      · obtain ⟨none, none'⟩ := holds.next_none empty
        rw [none, none']
        refine ⟨holds, fun queue => ?_⟩
        rw [acceptedBy, servedFrom, none, List.append_nil, List.nil_append]
      · obtain ⟨higher, source, lower, p, rest, split, empty, some⟩ := found
        obtain ⟨later, next, next', held⟩ := holds.next_some split empty some
        rw [next, next']
        refine ⟨held, fun queue => ?_⟩
        rw [acceptedBy, servedFrom, next, List.append_nil]
        by_cases own : source = queue
        · subst own
          dsimp only
          rw [if_pos rfl, Function.update_self, some]
          rfl
        · dsimp only
          rw [if_neg own, Function.update_of_ne (Ne.symm own),
            List.nil_append]

/-- The rings refine the lists of the engine along every run, and of what was
put on a queue the earlier part was taken from it and the rest lies in it. -/
theorem TxHolds.run (holds : TxHolds rings q) (calls : List TxRingCall) :
    TxHolds (calls.foldl txStep rings) (calls.foldl txQueuesStep q) ∧
      ∀ queue, q queue ++ emitted txStep (acceptedBy queue) rings calls =
        emitted txStep (servedFrom queue) rings calls ++
          calls.foldl txQueuesStep q queue := by
  induction calls generalizing rings q with
  | nil =>
      refine ⟨holds, fun queue => ?_⟩
      rw [emitted, emitted, List.append_nil]
      rfl
  | cons call rest inductionHypothesis =>
      obtain ⟨held, moved⟩ := holds.step call
      obtain ⟨last, conserved⟩ := inductionHypothesis held
      refine ⟨last, fun queue => ?_⟩
      rw [emitted, emitted, ← List.append_assoc, moved queue,
        List.append_assoc, conserved queue, List.append_assoc]
      rfl

theorem TxHolds.init (slots : TxQueue → Nat → PacketBuf) :
    TxHolds (txRingsInit slots) txQueuesInit :=
  fun queue => RingArray.Holds.init (slots queue)

end

/-- After any calls, what was put on a queue is what was taken from it in that
order and what still waits in it; `scheduler_next` returns the oldest packet
of a queue with nothing waiting before it in the order, and NULL only when
nothing waits at all. -/
theorem transmit_scheduling
    (slots : TxQueue → Nat → PacketBuf) (calls : List TxRingCall) :
    let rings := calls.foldl txStep (txRingsInit slots)
    (∀ queue,
      emitted txStep (acceptedBy queue) (txRingsInit slots) calls =
        emitted txStep (servedFrom queue) (txRingsInit slots) calls ++
          (rings queue).contents) ∧
      (∀ queue p later, schedulerNextRing rings = some (queue, p, later) →
        (rings queue).contents.head? = some p ∧
          ∃ higher lower, txOrder = higher ++ queue :: lower ∧
            ∀ other ∈ higher, (rings other).contents = []) ∧
      (schedulerNextRing rings = none ↔
        ∀ queue, (rings queue).contents = []) := by
  intro rings
  obtain ⟨holds, conserved⟩ := (TxHolds.init slots).run calls
  have contents : ∀ queue, (rings queue).contents =
      calls.foldl txQueuesStep txQueuesInit queue :=
    fun queue => (holds queue).contents_eq
  refine ⟨fun queue => ?_, fun queue p later found => ?_, ?_⟩
  · rw [contents queue, ← conserved queue]
    rfl
  · rcases first_waiting (calls.foldl txQueuesStep txQueuesInit) txOrder with
      empty | ⟨higher, source, lower, oldest, rest, split, empty, some⟩
    · rw [(holds.next_none empty).1] at found
      cases found
    · obtain ⟨_, next, -, -⟩ := holds.next_some split empty some
      rw [next] at found
      cases found
      refine ⟨?_, higher, lower, split, fun other member => ?_⟩
      · rw [contents queue, some, List.head?_cons]
      · rw [contents other, empty other member]
  · constructor
    · intro nothing queue
      rcases first_waiting (calls.foldl txQueuesStep txQueuesInit) txOrder
        with empty | ⟨higher, source, lower, oldest, rest, split, empty, some⟩
      · rw [contents queue, empty queue (mem_txOrder queue)]
      · obtain ⟨_, next, -, -⟩ := holds.next_some split empty some
        rw [next] at nothing
        cases nothing
    · intro empty
      refine (holds.next_none fun queue _ => ?_).1
      rw [← contents queue, empty queue]

end PqComm
