import PqComm.Core.Packet
import PqComm.Lib.Custody
import Mathlib.Data.Fintype.Basic

/-!
# The packet pool under threads

`pool_get` and `pool_return` of `pool.c`, one access of `top` or of
`free_stack` at a time, for any threads.  A thread returns only buffers that
it holds; a buffer on its way back is no longer held.

`pool_get` reads its slot after it has moved `top`, and `pool_return` writes
its slot before.  In between the slot belongs to nobody, and other threads
can write it: `CleanStep` says when a step of `pool_return` loses nothing.
-/

namespace PqComm

open Lib

def packetPoolSize : Nat := 4096

/-- Where a thread is in the two functions. -/
inductive PoolPoint where
  | idle
  | getting
  | getLoaded (t : Nat)
  | getClaimed (newT : Nat)
  | returning (idx : Nat)
  | returnLoaded (idx t : Nat)
  | returnStored (idx t : Nat)
  deriving DecidableEq, Repr

/-- The slot of `free_stack` that a `pool_get` has yet to read. -/
def PoolPoint.claims : PoolPoint → Option Nat
  | .getClaimed newT => some newT
  | _ => none

/-- The buffer that a `pool_return` has yet to hand over. -/
def PoolPoint.returns : PoolPoint → Option Nat
  | .returning idx => some idx
  | .returnLoaded idx _ => some idx
  | .returnStored idx _ => some idx
  | _ => none

/-- The pool and its users. -/
structure Pool (ι : Type) where
  top : Nat
  freeStack : Nat → Nat
  point : ι → PoolPoint
  held : ι → Finset Nat

/-- `pool_init`. -/
def poolInit (ι : Type) : Pool ι where
  top := packetPoolSize
  freeStack := fun i => i
  point := fun _ => .idle
  held := fun _ => ∅

section

variable {ι : Type} [DecidableEq ι]

def Pool.setPoint (s : Pool ι) (i : ι) (point : PoolPoint) : Pool ι :=
  { s with point := Function.update s.point i point }

def Pool.setHeld (s : Pool ι) (i : ι) (held : Finset Nat) : Pool ι :=
  { s with held := Function.update s.held i held }

def Pool.setTop (s : Pool ι) (top : Nat) : Pool ι :=
  { s with top := top }

def Pool.setSlot (s : Pool ι) (k idx : Nat) : Pool ι :=
  { s with freeStack := Function.update s.freeStack k idx }

/-- The next access of thread `i`. -/
def Pool.access (s : Pool ι) (i : ι) : Pool ι :=
  match s.point i with
  | .idle => s
  | .getting =>
      if s.top = 0 then s.setPoint i .idle else s.setPoint i (.getLoaded s.top)
  | .getLoaded t =>
      if s.top = t then
        (s.setTop (t - 1)).setPoint i (.getClaimed (t - 1))
      else
        s.setPoint i .getting
  | .getClaimed newT =>
      (s.setPoint i .idle).setHeld i (insert (s.freeStack newT) (s.held i))
  | .returning idx =>
      if s.top ≥ packetPoolSize then
        s.setPoint i .idle
      else
        s.setPoint i (.returnLoaded idx s.top)
  | .returnLoaded idx t =>
      (s.setSlot t idx).setPoint i (.returnStored idx t)
  | .returnStored idx t =>
      if s.top = t then
        (s.setTop (t + 1)).setPoint i .idle
      else
        s.setPoint i (.returning idx)

inductive PoolAct (ι : Type) where
  | poolGet (i : ι)
  | poolReturn (i : ι) (idx : Nat)
  | access (i : ι)

/-- A thread calls a function or makes its next access. -/
def Pool.act (s : Pool ι) : PoolAct ι → Pool ι
  | .poolGet i => if s.point i = .idle then s.setPoint i .getting else s
  | .poolReturn i idx =>
      if s.point i = .idle ∧ idx ∈ s.held i then
        (s.setPoint i (.returning idx)).setHeld i ((s.held i).erase idx)
      else
        s
  | .access i => s.access i

def Pool.run (s : Pool ι) (acts : List (PoolAct ι)) : Pool ι :=
  acts.foldl Pool.act s

/-- No two threads hold a buffer, and when no call is in progress the free
part of the stack and the held buffers are all buffers. -/
structure PoolSound (s : Pool ι) : Prop where
  apart : ∀ i j idx, idx ∈ s.held i → idx ∈ s.held j → i = j
  whole :
    (∀ i, s.point i = .idle) →
      ∀ idx,
        ((∃ k, k < s.top ∧ s.freeStack k = idx) ∨ ∃ i, idx ∈ s.held i) ↔
          idx < packetPoolSize

/-! ## Steps that are safe -/

/-- A `pool_return` writes a slot that is not in the free part again and that
no `pool_get` has yet to read, and it moves `top` over a slot that no other
`pool_return` has written since. -/
def CleanAt (s : Pool ι) : PoolPoint → Prop
  | .returnLoaded _ t => s.top ≤ t ∧ ∀ j, s.point j ≠ .getClaimed t
  | .returnStored idx t => s.top = t → s.freeStack t = idx
  | _ => True

def CleanStep (s : Pool ι) : PoolAct ι → Prop
  | .access i => CleanAt s (s.point i)
  | _ => True

instance [Fintype ι] (s : Pool ι) : DecidablePred (CleanAt s)
  | .returnLoaded _ t =>
      inferInstanceAs (Decidable (s.top ≤ t ∧ ∀ j, s.point j ≠ .getClaimed t))
  | .returnStored idx t =>
      inferInstanceAs (Decidable (s.top = t → s.freeStack t = idx))
  | .idle => isTrue trivial
  | .getting => isTrue trivial
  | .getLoaded _ => isTrue trivial
  | .getClaimed _ => isTrue trivial
  | .returning _ => isTrue trivial

instance [Fintype ι] (s : Pool ι) : DecidablePred (CleanStep s)
  | .access i => inferInstanceAs (Decidable (CleanAt s (s.point i)))
  | .poolGet _ => isTrue trivial
  | .poolReturn _ _ => isTrue trivial

def CleanRun : Pool ι → List (PoolAct ι) → Prop
  | _, [] => True
  | s, act :: acts => CleanStep s act ∧ CleanRun (s.act act) acts

instance decidableCleanRun [Fintype ι] :
    (s : Pool ι) → (acts : List (PoolAct ι)) → Decidable (CleanRun s acts)
  | _, [] => isTrue trivial
  | s, act :: acts =>
      @instDecidableAnd _ _ (inferInstance : Decidable (CleanStep s act))
        (decidableCleanRun (s.act act) acts)

/-! ## The invariant -/

/-- The places where a buffer can be. -/
inductive BufferPlace (ι : Type) where
  | free (k : Nat)
  | claimed (i : ι)
  | held (i : ι)
  | returning (i : ι)

/-- Buffer `idx` is in this place. -/
def Pool.At (s : Pool ι) : BufferPlace ι → Nat → Prop
  | .free k, idx => k < s.top ∧ s.freeStack k = idx
  | .claimed i, idx =>
      ∃ k, (s.point i).claims = some k ∧ s.freeStack k = idx
  | .held i, idx => idx ∈ s.held i
  | .returning i, idx => (s.point i).returns = some idx

/-- What a thread knows at each point.  The slot that a `pool_get` has yet to
read is not in the free part. -/
def PointOk (top : Nat) : PoolPoint → Prop
  | .idle => True
  | .getting => True
  | .getLoaded t => t ≠ 0
  | .getClaimed newT => top ≤ newT
  | .returning _ => True
  | .returnLoaded _ t => t < packetPoolSize
  | .returnStored _ t => t < packetPoolSize

structure PoolInv (s : Pool ι) : Prop where
  custody : Custody (Finset.range packetPoolSize) s.At
  top : s.top ≤ packetPoolSize
  points : ∀ i, PointOk s.top (s.point i)

omit [DecidableEq ι] in
theorem poolInv_init : PoolInv (poolInit ι) where
  custody := by
    refine ⟨fun idx member => ?_, ?_, ?_⟩
    · exact ⟨.free idx, Finset.mem_range.mp member, rfl⟩
    · rintro (k | i | i | i) (l | j | j | j) idx first second
      · exact congrArg BufferPlace.free (first.2.trans second.2.symm)
      all_goals simp_all [Pool.At, poolInit, PoolPoint.claims,
        PoolPoint.returns]
    · rintro (k | i | i | i) idx here
      · obtain ⟨bound, rfl⟩ := here
        exact Finset.mem_range.mpr bound
      all_goals simp_all [Pool.At, poolInit, PoolPoint.claims,
        PoolPoint.returns]
  top := Nat.le_refl _
  points := fun _ => trivial

/-! ### Updates -/

section

variable (s : Pool ι) (i j : ι) (point : PoolPoint) (held : Finset Nat)
  (top k idx : Nat)

@[simp]
theorem Pool.setPoint_point :
    (s.setPoint i point).point j = if j = i then point else s.point j :=
  Function.update_apply s.point i point j

@[simp]
theorem Pool.setPoint_top : (s.setPoint i point).top = s.top :=
  rfl

@[simp]
theorem Pool.setPoint_freeStack :
    (s.setPoint i point).freeStack = s.freeStack :=
  rfl

@[simp]
theorem Pool.setPoint_held : (s.setPoint i point).held = s.held :=
  rfl

@[simp]
theorem Pool.setHeld_held :
    (s.setHeld i held).held j = if j = i then held else s.held j :=
  Function.update_apply s.held i held j

@[simp]
theorem Pool.setHeld_point : (s.setHeld i held).point = s.point :=
  rfl

@[simp]
theorem Pool.setHeld_top : (s.setHeld i held).top = s.top :=
  rfl

@[simp]
theorem Pool.setHeld_freeStack :
    (s.setHeld i held).freeStack = s.freeStack :=
  rfl

end

variable {s : Pool ι} {i : ι}

/-- The other threads are where they were. -/
theorem points_setPoint
    {top : Nat} {point : PoolPoint} (here : PointOk top point)
    (others : ∀ j, j ≠ i → PointOk top (s.point j)) (j : ι) :
    PointOk top (if j = i then point else s.point j) := by
  split
  · exact here
  · rename_i other
    exact others j other

/-! ### Steps that move no buffer -/

/-- The thread goes on, and has neither claimed a slot nor handed a buffer
over. -/
theorem PoolInv.setPoint
    (inv : PoolInv s) {point : PoolPoint} (claims : point.claims = none)
    (before : (s.point i).claims = none)
    (returns : point.returns = (s.point i).returns)
    (ok : PointOk s.top point) :
    PoolInv (s.setPoint i point) where
  custody := by
    apply inv.custody.congr
    rintro (k | j | j | j) idx
    · exact Iff.rfl
    · by_cases here : j = i
      · simp [Pool.At, here, claims, before]
      · simp [Pool.At, here]
    · exact Iff.rfl
    · by_cases here : j = i
      · simp [Pool.At, here, returns]
      · simp [Pool.At, here]
  top := inv.top
  points := by
    intro j
    rw [Pool.setPoint_point]
    exact points_setPoint ok (fun j _ => inv.points j) j

/-- The thread writes a slot that nobody relies on. -/
theorem PoolInv.store
    (inv : PoolInv s) {idx t : Nat} (here : s.point i = .returnLoaded idx t)
    (dead : s.top ≤ t) (unclaimed : ∀ j, s.point j ≠ .getClaimed t) :
    PoolInv ((s.setSlot t idx).setPoint i (.returnStored idx t)) := by
  have slots : ∀ k, k ≠ t → (s.setSlot t idx).freeStack k = s.freeStack k :=
    fun k other => Function.update_of_ne other _ _
  have claimed : ∀ j k, (s.point j).claims = some k → k ≠ t := by
    intro j k claims same
    cases point : s.point j with
    | getClaimed newT =>
        rw [point] at claims
        cases claims
        exact unclaimed j (same ▸ point)
    | _ =>
        rw [point] at claims
        cases claims
  constructor
  · apply inv.custody.congr
    rintro (k | j | j | j) x
    · change k < s.top ∧ (s.setSlot t idx).freeStack k = x ↔ _
      constructor
      · rintro ⟨live, same⟩
        rw [slots k (by omega)] at same
        exact ⟨live, same⟩
      · rintro ⟨live, same⟩
        rw [slots k (by omega)]
        exact ⟨live, same⟩
    · by_cases same : j = i
      · simp [Pool.At, same, here, PoolPoint.claims]
      · simp only [Pool.At, Pool.setPoint_point, if_neg same,
          Pool.setPoint_freeStack]
        constructor
        · rintro ⟨k, claims, content⟩
          rw [slots k (claimed j k claims)] at content
          exact ⟨k, claims, content⟩
        · rintro ⟨k, claims, content⟩
          refine ⟨k, claims, ?_⟩
          rw [slots k (claimed j k claims)]
          exact content
    · exact Iff.rfl
    · by_cases same : j = i
      · simp [Pool.At, same, here, PoolPoint.returns]
      · simp only [Pool.At, Pool.setPoint_point, if_neg same]
        exact Iff.rfl
  · exact inv.top
  · intro j
    rw [Pool.setPoint_point]
    have loaded := inv.points i
    rw [here] at loaded
    apply points_setPoint (s := s.setSlot t idx)
    · exact loaded
    · exact fun j _ => inv.points j

/-! ### Steps that move a buffer -/

theorem PoolInv.claim
    (inv : PoolInv s) (here : s.point i = .getLoaded s.top) :
    PoolInv
      ((s.setTop (s.top - 1)).setPoint i (.getClaimed (s.top - 1))) := by
  have loaded : s.top ≠ 0 := by
    have ok := inv.points i
    rw [here] at ok
    exact ok
  constructor
  · apply inv.custody.move (.free (s.top - 1)) (.claimed i)
      (s.freeStack (s.top - 1))
    · exact ⟨by omega, rfl⟩
    · rintro (k | j | j | j) x source target
      · have other : k ≠ s.top - 1 := by
          rintro rfl
          exact source rfl
        change k < s.top - 1 ∧ s.freeStack k = x ↔ k < s.top ∧ _
        constructor
        · rintro ⟨live, same⟩
          exact ⟨by omega, same⟩
        · rintro ⟨live, same⟩
          exact ⟨by omega, same⟩
      · have other : j ≠ i := by
          rintro rfl
          exact target rfl
        simp only [Pool.At, Pool.setPoint_point, if_neg other]
        exact Iff.rfl
      · exact Iff.rfl
      · by_cases same : j = i
        · simp [Pool.At, same, here, PoolPoint.returns]
        · simp only [Pool.At, Pool.setPoint_point, if_neg same]
          exact Iff.rfl
    · intro x
      change s.top - 1 < s.top - 1 ∧ _ ↔ _
      constructor
      · rintro ⟨live, -⟩
        omega
      · rintro ⟨⟨-, same⟩, other⟩
        exact absurd same.symm other
    · intro x
      simp [Pool.At, here, PoolPoint.claims, Pool.setTop, eq_comm]
  · have top := inv.top
    change s.top - 1 ≤ _
    omega
  · intro j
    rw [Pool.setPoint_point]
    refine points_setPoint (s := s) (Nat.le_refl _) (fun j _ => ?_) j
    have ok := inv.points j
    cases point : s.point j with
    | getClaimed newT =>
        rw [point] at ok
        exact Nat.le_trans (Nat.sub_le ..) ok
    | _ =>
        rw [point] at ok
        exact ok

theorem PoolInv.read
    (inv : PoolInv s) {k : Nat} (here : s.point i = .getClaimed k) :
    PoolInv
      ((s.setPoint i .idle).setHeld i
        (insert (s.freeStack k) (s.held i))) := by
  constructor
  · apply inv.custody.move (.claimed i) (.held i) (s.freeStack k)
    · exact ⟨k, by rw [here]; rfl, rfl⟩
    · rintro (l | j | j | j) x source target
      · exact Iff.rfl
      · have other : j ≠ i := by
          rintro rfl
          exact source rfl
        simp [Pool.At, other]
      · have other : j ≠ i := by
          rintro rfl
          exact target rfl
        simp [Pool.At, other]
      · by_cases same : j = i
        · simp [Pool.At, same, here, PoolPoint.returns]
        · simp [Pool.At, same]
    · intro x
      simp [Pool.At, here, PoolPoint.claims, eq_comm]
    · intro x
      simp [Pool.At, or_comm]
  · exact inv.top
  · intro j
    rw [Pool.setHeld_point, Pool.setPoint_point]
    apply points_setPoint (s := s)
    · exact trivial
    · exact fun j _ => inv.points j

theorem PoolInv.handBack
    (inv : PoolInv s) {idx : Nat} (idle : s.point i = .idle)
    (holds : idx ∈ s.held i) :
    PoolInv
      ((s.setPoint i (.returning idx)).setHeld i ((s.held i).erase idx)) := by
  constructor
  · apply inv.custody.move (.held i) (.returning i) idx
    · exact holds
    · rintro (l | j | j | j) x source target
      · exact Iff.rfl
      · by_cases same : j = i
        · simp [Pool.At, same, idle, PoolPoint.claims]
        · simp [Pool.At, same]
      · have other : j ≠ i := by
          rintro rfl
          exact source rfl
        simp [Pool.At, other]
      · have other : j ≠ i := by
          rintro rfl
          exact target rfl
        simp [Pool.At, other]
    · intro x
      simp [Pool.At, and_comm]
    · intro x
      simp [Pool.At, idle, PoolPoint.returns, eq_comm]
  · exact inv.top
  · intro j
    rw [Pool.setHeld_point, Pool.setPoint_point]
    apply points_setPoint (s := s)
    · exact trivial
    · exact fun j _ => inv.points j

theorem PoolInv.publish
    (inv : PoolInv s) {idx : Nat}
    (here : s.point i = .returnStored idx s.top)
    (written : s.freeStack s.top = idx) :
    PoolInv ((s.setTop (s.top + 1)).setPoint i .idle) := by
  have below := inv.points i
  rw [here] at below
  have mine : s.At (.returning i) idx := by
    change (s.point i).returns = some idx
    rw [here]
    rfl
  -- No `pool_get` has claimed the slot, since the buffer in it is here.
  have raised : ∀ j, j ≠ i → PointOk (s.top + 1) (s.point j) := by
    intro j _
    have ok := inv.points j
    cases point : s.point j with
    | getClaimed newT =>
        rw [point] at ok
        have apart : newT ≠ s.top := by
          rintro rfl
          have claimed : s.At (.claimed j) idx :=
            ⟨s.top, by rw [point]; rfl, written⟩
          cases inv.custody.once _ _ _ claimed mine
        exact Nat.lt_of_le_of_ne ok (Ne.symm apart)
    | _ =>
        rw [point] at ok
        exact ok
  constructor
  · apply inv.custody.move (.returning i) (.free s.top) idx
    · exact mine
    · rintro (k | j | j | j) x source target
      · have other : k ≠ s.top := by
          rintro rfl
          exact target rfl
        change k < s.top + 1 ∧ s.freeStack k = x ↔ k < s.top ∧ _
        constructor
        · rintro ⟨live, same⟩
          exact ⟨by omega, same⟩
        · rintro ⟨live, same⟩
          exact ⟨by omega, same⟩
      · by_cases same : j = i
        · simp [Pool.At, same, here, PoolPoint.claims]
        · simp only [Pool.At, Pool.setPoint_point, if_neg same]
          exact Iff.rfl
      · exact Iff.rfl
      · have other : j ≠ i := by
          rintro rfl
          exact source rfl
        simp only [Pool.At, Pool.setPoint_point, if_neg other]
        exact Iff.rfl
    · intro x
      simp [Pool.At, here, PoolPoint.returns, eq_comm]
    · intro x
      change s.top < s.top + 1 ∧ s.freeStack s.top = x ↔
        (s.top < s.top ∧ _) ∨ _
      rw [written]
      simp [eq_comm]
  · exact below
  · intro j
    rw [Pool.setPoint_point]
    apply points_setPoint (s := s.setTop (s.top + 1))
    · exact trivial
    · exact raised

omit [DecidableEq ι] in
/-- While a buffer is on its way back the stack is not full. -/
theorem PoolInv.not_full
    (inv : PoolInv s) {idx : Nat} (here : (s.point i).returns = some idx) :
    s.top < packetPoolSize := by
  have bound :=
    inv.custody.lt_card BufferPlace.free
      (fun _ _ same => BufferPlace.free.inj same) s.freeStack
      (fun k live => ⟨live, rfl⟩) (.returning i) here
      (fun k same => by cases same)
  rwa [Finset.card_range] at bound

/-! ### Runs -/

theorem PoolInv.access
    (inv : PoolInv s) (clean : CleanStep s (.access i)) :
    PoolInv (s.access i) := by
  dsimp only [CleanStep] at clean
  unfold Pool.access
  cases point : s.point i with
  | idle =>
      exact inv
  | getting =>
      dsimp only
      split
      · exact inv.setPoint rfl (by rw [point]; rfl) (by rw [point]; rfl)
          trivial
      · rename_i some
        exact inv.setPoint rfl (by rw [point]; rfl) (by rw [point]; rfl) some
  | getLoaded t =>
      dsimp only
      split
      · rename_i current
        subst current
        exact inv.claim point
      · exact inv.setPoint rfl (by rw [point]; rfl) (by rw [point]; rfl)
          trivial
  | getClaimed newT =>
      exact inv.read point
  | returning idx =>
      have room : ¬ s.top ≥ packetPoolSize :=
        Nat.not_le.mpr (inv.not_full (i := i) (by rw [point]; rfl))
      dsimp only
      rw [if_neg room]
      exact inv.setPoint rfl (by rw [point]; rfl) (by rw [point]; rfl)
        (Nat.not_le.mp room)
  | returnLoaded idx t =>
      rw [point] at clean
      obtain ⟨dead, unclaimed⟩ := clean
      exact inv.store point dead unclaimed
  | returnStored idx t =>
      dsimp only
      split
      · rename_i current
        subst current
        rw [point] at clean
        exact inv.publish point (clean rfl)
      · exact inv.setPoint rfl (by rw [point]; rfl) (by rw [point]; rfl)
          trivial

theorem PoolInv.act
    (inv : PoolInv s) {act : PoolAct ι} (clean : CleanStep s act) :
    PoolInv (s.act act) := by
  cases act with
  | poolGet i =>
      unfold Pool.act
      dsimp only
      split
      · rename_i idle
        exact inv.setPoint rfl (by rw [idle]; rfl) (by rw [idle]; rfl) trivial
      · exact inv
  | poolReturn i idx =>
      unfold Pool.act
      dsimp only
      split
      · rename_i both
        exact inv.handBack both.1 both.2
      · exact inv
  | access i =>
      exact inv.access clean

theorem PoolInv.run
    (inv : PoolInv s) {acts : List (PoolAct ι)} (clean : CleanRun s acts) :
    PoolInv (s.run acts) := by
  induction acts generalizing s with
  | nil =>
      exact inv
  | cons act acts hypothesis =>
      exact hypothesis (inv.act clean.1) clean.2

omit [DecidableEq ι] in
theorem PoolInv.sound (inv : PoolInv s) : PoolSound s := by
  constructor
  · intro i j idx first second
    have same :=
      inv.custody.once (.held i) (.held j) idx first second
    exact BufferPlace.held.inj same
  · intro quiet idx
    constructor
    · rintro (⟨k, live, same⟩ | ⟨i, holds⟩)
      · exact Finset.mem_range.mp
          (inv.custody.known (.free k) idx ⟨live, same⟩)
      · exact Finset.mem_range.mp (inv.custody.known (.held i) idx holds)
    · intro known
      obtain ⟨place, here⟩ :=
        inv.custody.somewhere idx (Finset.mem_range.mpr known)
      cases place with
      | free k =>
          exact Or.inl ⟨k, here⟩
      | held i =>
          exact Or.inr ⟨i, here⟩
      | claimed i =>
          obtain ⟨k, claims, -⟩ := here
          rw [quiet i] at claims
          cases claims
      | returning i =>
          have returns : (s.point i).returns = some idx := here
          rw [quiet i] at returns
          cases returns

end

/-- For any threads and any interleaving in which every step of
`pool_return` is clean, no two threads hold a buffer, and no buffer is lost. -/
theorem pool_sound
    {ι : Type} [DecidableEq ι] (acts : List (PoolAct ι))
    (clean : CleanRun (poolInit ι) acts) :
    PoolSound ((poolInit ι).run acts) :=
  (poolInv_init.run clean).sound

/-- Two threads take a buffer at a time, and the first one returns its own
while the second one takes another. -/
def overlappingCalls : List (PoolAct (Fin 2)) :=
  [.poolGet 0, .poolGet 1, .access 0, .access 1, .access 0, .access 1,
    .access 0, .access 1, .access 1, .access 1,
    .poolReturn 0 4095, .access 0, .access 0, .poolGet 1, .access 1,
    .access 0, .access 1, .access 1, .access 1, .access 1]

theorem pool_sound_overlapping :
    CleanRun (poolInit (Fin 2)) overlappingCalls ∧
      PoolSound ((poolInit (Fin 2)).run overlappingCalls) := by
  have clean : CleanRun (poolInit (Fin 2)) overlappingCalls := by
    decide +kernel
  exact ⟨clean, pool_sound overlappingCalls clean⟩

/-- Both threads write slot 4094, the first moves `top` over the second's
buffer, and the second writes that buffer again into slot 4095. -/
def racingReturns : List (PoolAct (Fin 2)) :=
  [.poolGet 0, .access 0, .access 0, .access 0,
    .poolGet 1, .access 1, .access 1, .access 1,
    .poolReturn 0 4095, .poolReturn 1 4094, .access 0, .access 1,
    .access 0, .access 1, .access 0, .access 1, .access 1, .access 1,
    .access 1,
    .poolGet 0, .access 0, .access 0, .access 0,
    .poolGet 1, .access 1, .access 1, .access 1]

/-- Two threads that return a buffer each end up with one buffer. -/
theorem racing_returns_share_a_buffer :
    ¬ ∀ acts : List (PoolAct (Fin 2)),
        PoolSound ((poolInit (Fin 2)).run acts) := by
  intro sound
  have first : 4094 ∈ ((poolInit (Fin 2)).run racingReturns).held 0 := by
    decide +kernel
  have second : 4094 ∈ ((poolInit (Fin 2)).run racingReturns).held 1 := by
    decide +kernel
  have same := (sound racingReturns).apart 0 1 4094 first second
  exact absurd same (by decide)

end PqComm
