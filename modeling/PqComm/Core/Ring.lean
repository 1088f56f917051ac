import PqComm.Core.Packet

/-!
# The ring of one producer and one consumer

`ring_push` and `ring_pop` of `ring.h`, one memory access at a time.  A run is
any sequence of calls and of steps of either side, so each side works with
copies of the indices that the other may have moved in between.

`pushed`, `popped` and `refused` are history variables: the items whose push
returned 0, the items that were popped, and, for each push that returned -1,
how many items were held when it read `read_idx`.
-/

namespace PqComm

open Lib

/-- Where the producer is in `ring_push`. -/
inductive PushPoint (α : Type) where
  | idle
  | called (item : α)
  | loaded (item : α) (w : Nat)
  | room (item : α) (w : Nat)
  | stored (item : α) (w : Nat)

/-- Where the consumer is in `ring_pop`. -/
inductive PopPoint (α : Type) where
  | idle
  | called
  | loaded (rd : Nat)
  | present (rd : Nat)
  | taken (rd : Nat) (item : α)

/-- `spsc_ring_t` with its two users. -/
structure SpscRing (α : Type) where
  slots : Nat → α
  writeIdx : Nat := 0
  readIdx : Nat := 0
  producer : PushPoint α := .idle
  consumer : PopPoint α := .idle
  pushed : List α := []
  popped : List α := []
  refused : List Nat := []

section

variable {α : Type}

/-- `ring_init`, which leaves the slots as they are. -/
def ringInit (slots : Nat → α) : SpscRing α :=
  { slots := slots }

/-- `(idx + 1) & (RING_SIZE - 1)`. -/
def ringNext (idx : Nat) : Nat :=
  (idx + 1) &&& (ringSize - 1)

/-- How many items the ring holds. -/
def SpscRing.held (r : SpscRing α) : Nat :=
  r.pushed.length - r.popped.length

/-- The next access of `ring_push`. -/
def SpscRing.pushStep (r : SpscRing α) : SpscRing α :=
  match r.producer with
  | .idle => r
  | .called item => { r with producer := .loaded item r.writeIdx }
  | .loaded item w =>
      if ringNext w = r.readIdx then
        { r with producer := .idle, refused := r.refused ++ [r.held] }
      else
        { r with producer := .room item w }
  | .room item w =>
      { r with
        slots := fun i => if i = w then item else r.slots i
        producer := .stored item w }
  | .stored item w =>
      { r with
        writeIdx := ringNext w
        producer := .idle
        pushed := r.pushed ++ [item] }

/-- The next access of `ring_pop`. -/
def SpscRing.popStep (r : SpscRing α) : SpscRing α :=
  match r.consumer with
  | .idle => r
  | .called => { r with consumer := .loaded r.readIdx }
  | .loaded rd =>
      if rd = r.writeIdx then
        { r with consumer := .idle }
      else
        { r with consumer := .present rd }
  | .present rd => { r with consumer := .taken rd (r.slots rd) }
  | .taken rd item =>
      { r with
        readIdx := ringNext rd
        consumer := .idle
        popped := r.popped ++ [item] }

inductive RingAct (α : Type) where
  | push (item : α)
  | pop
  | producer
  | consumer

/-- A call starts when the one before has returned; otherwise one side makes
its next access. -/
def SpscRing.act (r : SpscRing α) : RingAct α → SpscRing α
  | .push item =>
      match r.producer with
      | .idle => { r with producer := .called item }
      | _ => r
  | .pop =>
      match r.consumer with
      | .idle => { r with consumer := .called }
      | _ => r
  | .producer => r.pushStep
  | .consumer => r.popStep

def SpscRing.run (r : SpscRing α) (acts : List (RingAct α)) : SpscRing α :=
  acts.foldl SpscRing.act r

/-! ## The invariant -/

/-- What the producer knows at each point: its copy of `write_idx` is current,
and room stays room. -/
def SpscRing.PushKnows (r : SpscRing α) : Prop :=
  match r.producer with
  | .idle => True
  | .called _ => True
  | .loaded _ w => w = r.writeIdx
  | .room _ w => w = r.writeIdx ∧ r.held < ringSize - 1
  | .stored item w =>
      w = r.writeIdx ∧ r.held < ringSize - 1 ∧ r.slots w = item

/-- What the consumer knows at each point. -/
def SpscRing.PopKnows (r : SpscRing α) : Prop :=
  match r.consumer with
  | .idle => True
  | .called => True
  | .loaded rd => rd = r.readIdx
  | .present rd => rd = r.readIdx ∧ 0 < r.held
  | .taken rd item =>
      rd = r.readIdx ∧ r.pushed[r.popped.length]? = some item

/-- Item number `n` of the run, once pushed and until popped, is in the slot
`n % RING_SIZE`. -/
structure RingInv (r : SpscRing α) : Prop where
  writeIdx : r.writeIdx = r.pushed.length % ringSize
  readIdx : r.readIdx = r.popped.length % ringSize
  inOrder : r.popped = r.pushed.take r.popped.length
  bound : r.held ≤ ringSize - 1
  slots :
    ∀ n, r.popped.length ≤ n → n < r.pushed.length →
      r.pushed[n]? = some (r.slots (n % ringSize))
  refused : ∀ n ∈ r.refused, n = ringSize - 1
  producer : r.PushKnows
  consumer : r.PopKnows

theorem ringNext_eq (idx : Nat) : ringNext idx = (idx + 1) % ringSize :=
  Nat.and_two_pow_sub_one_eq_mod (idx + 1) 10

theorem ringNext_mod (n : Nat) :
    ringNext (n % ringSize) = (n + 1) % ringSize := by
  rw [ringNext_eq]
  unfold ringSize
  omega

variable {r : SpscRing α}

theorem RingInv.popped_le (inv : RingInv r) :
    r.popped.length ≤ r.pushed.length := by
  have same := congrArg List.length inv.inOrder
  rw [List.length_take] at same
  omega

/-- The ring is full exactly when the next write index is the read index. -/
theorem RingInv.full_iff (inv : RingInv r) :
    ringNext r.writeIdx = r.readIdx ↔ r.held = ringSize - 1 := by
  have below := inv.popped_le
  have bound := inv.bound
  rw [inv.writeIdx, inv.readIdx, ringNext_mod]
  unfold SpscRing.held ringSize at bound ⊢
  omega

/-- The ring is empty exactly when the indices agree. -/
theorem RingInv.empty_iff (inv : RingInv r) :
    r.readIdx = r.writeIdx ↔ r.held = 0 := by
  have below := inv.popped_le
  have bound := inv.bound
  rw [inv.writeIdx, inv.readIdx]
  unfold SpscRing.held ringSize at bound ⊢
  omega

/-- The slot about to be written holds no item that is still to be popped. -/
theorem RingInv.free_slot
    (inv : RingInv r) (free : r.held < ringSize - 1) {n : Nat}
    (low : r.popped.length ≤ n) (high : n < r.pushed.length) :
    n % ringSize ≠ r.writeIdx := by
  rw [inv.writeIdx]
  unfold SpscRing.held ringSize at free
  unfold ringSize
  omega

/-! ### The producer -/

theorem RingInv.store
    (inv : RingInv r) {item : α} (free : r.held < ringSize - 1) :
    RingInv
      { r with
        slots := fun i => if i = r.writeIdx then item else r.slots i
        producer := .stored item r.writeIdx } := by
  refine ⟨inv.writeIdx, inv.readIdx, inv.inOrder, inv.bound,
    fun n low high => ?_, inv.refused, ⟨rfl, free, if_pos rfl⟩,
    inv.consumer⟩
  dsimp only at low high ⊢
  rw [if_neg (inv.free_slot free low high)]
  exact inv.slots n low high

theorem RingInv.publish
    (inv : RingInv r) {item : α} (free : r.held < ringSize - 1)
    (written : r.slots r.writeIdx = item) :
    RingInv
      { r with
        writeIdx := ringNext r.writeIdx
        producer := .idle
        pushed := r.pushed ++ [item] } := by
  have below := inv.popped_le
  have more :
      (r.pushed ++ [item]).length - r.popped.length = r.held + 1 := by
    rw [List.length_append, List.length_singleton]
    unfold SpscRing.held
    omega
  constructor
  · rw [inv.writeIdx, ringNext_mod, List.length_append]
    rfl
  · exact inv.readIdx
  · rw [List.take_append_of_le_length below]
    exact inv.inOrder
  · change (r.pushed ++ [item]).length - r.popped.length ≤ _
    omega
  · intro n low high
    rw [List.length_append, List.length_singleton] at high
    by_cases old : n < r.pushed.length
    · rw [List.getElem?_append_left old]
      exact inv.slots n low old
    · have last : n = r.pushed.length := by omega
      rw [last, List.getElem?_concat_length, ← inv.writeIdx, written]
  · exact inv.refused
  · trivial
  · have knows := inv.consumer
    unfold SpscRing.PopKnows at knows ⊢
    dsimp only
    cases point : r.consumer with
    | idle =>
        trivial
    | called =>
        trivial
    | loaded rd =>
        rw [point] at knows
        exact knows
    | present rd =>
        rw [point] at knows
        refine ⟨knows.1, ?_⟩
        change 0 < (r.pushed ++ [item]).length - r.popped.length
        omega
    | taken rd item' =>
        rw [point] at knows
        obtain ⟨current, head⟩ := knows
        refine ⟨current, ?_⟩
        obtain ⟨inside, -⟩ := List.getElem?_eq_some_iff.mp head
        rw [List.getElem?_append_left inside]
        exact head

theorem RingInv.pushStep (inv : RingInv r) : RingInv r.pushStep := by
  have knows := inv.producer
  unfold SpscRing.PushKnows at knows
  unfold SpscRing.pushStep
  cases point : r.producer with
  | idle =>
      exact inv
  | called item =>
      exact ⟨inv.writeIdx, inv.readIdx, inv.inOrder, inv.bound, inv.slots,
        inv.refused, rfl, inv.consumer⟩
  | loaded item w =>
      rw [point] at knows
      dsimp only at knows ⊢
      rw [knows]
      by_cases full : ringNext r.writeIdx = r.readIdx
      · rw [if_pos full]
        refine ⟨inv.writeIdx, inv.readIdx, inv.inOrder, inv.bound, inv.slots,
          fun n member => ?_, trivial, inv.consumer⟩
        rcases List.mem_append.mp member with old | new
        · exact inv.refused n old
        · rw [List.mem_singleton.mp new]
          exact inv.full_iff.mp full
      · rw [if_neg full]
        have free : r.held ≠ ringSize - 1 := mt inv.full_iff.mpr full
        have room : r.held < ringSize - 1 :=
          Nat.lt_of_le_of_ne inv.bound free
        exact ⟨inv.writeIdx, inv.readIdx, inv.inOrder, inv.bound, inv.slots,
          inv.refused, ⟨rfl, room⟩, inv.consumer⟩
  | room item w =>
      rw [point] at knows
      obtain ⟨rfl, free⟩ := knows
      exact inv.store free
  | stored item w =>
      rw [point] at knows
      obtain ⟨rfl, free, written⟩ := knows
      exact inv.publish free written

/-! ### The consumer -/

theorem RingInv.take
    (inv : RingInv r) (some : 0 < r.held) :
    RingInv
      { r with consumer := .taken r.readIdx (r.slots r.readIdx) } := by
  have head : r.popped.length < r.pushed.length := by
    unfold SpscRing.held at some
    omega
  refine ⟨inv.writeIdx, inv.readIdx, inv.inOrder, inv.bound, inv.slots,
    inv.refused, inv.producer, rfl, ?_⟩
  rw [inv.readIdx]
  exact inv.slots _ (Nat.le_refl _) head

theorem RingInv.release
    (inv : RingInv r) {item : α}
    (head : r.pushed[r.popped.length]? = some item) :
    RingInv
      { r with
        readIdx := ringNext r.readIdx
        consumer := .idle
        popped := r.popped ++ [item] } := by
  obtain ⟨inside, -⟩ := List.getElem?_eq_some_iff.mp head
  have fewer :
      r.pushed.length - (r.popped ++ [item]).length = r.held - 1 := by
    rw [List.length_append, List.length_singleton]
    unfold SpscRing.held
    omega
  have bound := inv.bound
  constructor
  · exact inv.writeIdx
  · rw [inv.readIdx, ringNext_mod, List.length_append]
    rfl
  · rw [List.length_append, List.length_singleton, List.take_add_one, head,
      ← inv.inOrder]
    rfl
  · change r.pushed.length - (r.popped ++ [item]).length ≤ _
    omega
  · intro n low high
    rw [List.length_append] at low
    exact inv.slots n (by omega) high
  · exact inv.refused
  · have knows := inv.producer
    unfold SpscRing.PushKnows at knows ⊢
    dsimp only
    cases point : r.producer with
    | idle =>
        trivial
    | called item =>
        trivial
    | loaded item w =>
        rw [point] at knows
        exact knows
    | room item' w =>
        rw [point] at knows
        refine ⟨knows.1, ?_⟩
        change r.pushed.length - (r.popped ++ [item]).length < _
        omega
    | stored item' w =>
        rw [point] at knows
        refine ⟨knows.1, ?_, knows.2.2⟩
        change r.pushed.length - (r.popped ++ [item]).length < _
        omega
  · trivial

theorem RingInv.popStep (inv : RingInv r) : RingInv r.popStep := by
  have knows := inv.consumer
  unfold SpscRing.PopKnows at knows
  unfold SpscRing.popStep
  cases point : r.consumer with
  | idle =>
      exact inv
  | called =>
      exact ⟨inv.writeIdx, inv.readIdx, inv.inOrder, inv.bound, inv.slots,
        inv.refused, inv.producer, rfl⟩
  | loaded rd =>
      rw [point] at knows
      dsimp only at knows ⊢
      rw [knows]
      by_cases empty : r.readIdx = r.writeIdx
      · rw [if_pos empty]
        exact ⟨inv.writeIdx, inv.readIdx, inv.inOrder, inv.bound, inv.slots,
          inv.refused, inv.producer, trivial⟩
      · rw [if_neg empty]
        have some : 0 < r.held :=
          Nat.pos_of_ne_zero (mt inv.empty_iff.mpr empty)
        exact ⟨inv.writeIdx, inv.readIdx, inv.inOrder, inv.bound, inv.slots,
          inv.refused, inv.producer, rfl, some⟩
  | present rd =>
      rw [point] at knows
      obtain ⟨rfl, some⟩ := knows
      exact inv.take some
  | taken rd item =>
      rw [point] at knows
      obtain ⟨rfl, head⟩ := knows
      exact inv.release head

/-! ### Runs -/

theorem ringInv_init (slots : Nat → α) : RingInv (ringInit slots) where
  writeIdx := rfl
  readIdx := rfl
  inOrder := rfl
  bound := Nat.zero_le _
  slots := by
    intro n _ high
    exact absurd high (Nat.not_lt_zero n)
  refused := by
    intro n member
    cases member
  producer := trivial
  consumer := trivial

theorem RingInv.act (inv : RingInv r) (act : RingAct α) :
    RingInv (r.act act) := by
  cases act with
  | push item =>
      unfold SpscRing.act
      dsimp only
      split
      · exact ⟨inv.writeIdx, inv.readIdx, inv.inOrder, inv.bound, inv.slots,
          inv.refused, trivial, inv.consumer⟩
      · exact inv
  | pop =>
      unfold SpscRing.act
      dsimp only
      split
      · exact ⟨inv.writeIdx, inv.readIdx, inv.inOrder, inv.bound, inv.slots,
          inv.refused, inv.producer, trivial⟩
      · exact inv
  | producer =>
      exact inv.pushStep
  | consumer =>
      exact inv.popStep

theorem RingInv.run (inv : RingInv r) (acts : List (RingAct α)) :
    RingInv (r.run acts) := by
  induction acts generalizing r with
  | nil =>
      exact inv
  | cons act acts hypothesis =>
      exact hypothesis (inv.act act)

end

/-- However the two sides interleave, the popped items are the first of the
pushed items in their order, the ring holds at most `RING_SIZE - 1` items, and
a push is refused only when it holds that many. -/
theorem ring_fifo
    {α : Type} (slots : Nat → α) (acts : List (RingAct α)) :
    ((ringInit slots).run acts).popped <+: ((ringInit slots).run acts).pushed ∧
      ((ringInit slots).run acts).held ≤ ringSize - 1 ∧
      ∀ n ∈ ((ringInit slots).run acts).refused, n = ringSize - 1 := by
  have inv := (ringInv_init slots).run acts
  refine ⟨?_, inv.bound, inv.refused⟩
  rw [inv.inOrder]
  exact List.take_prefix _ _

end PqComm
