import PqComm.Core.Pool
import PqComm.Layers.Gate
import Mathlib.Algebra.Order.Group.Multiset
import Mathlib.Data.Multiset.Range

/-!
# Who holds a buffer

The places where the receive side keeps pointers to pooled buffers: the free
stack, the ring of the receive thread, the receive queues and
`sess->fec_recovered`.  `others` are the buffers that other parts of the
program hold.  `gets` and `returns` are history variables that count the
calls of `pool_get` and `pool_return` for each buffer.

Calls are atomic here; `PqComm.Core.Pool` takes them apart.
-/

namespace PqComm

open Lib

structure Ledger where
  /-- The free part of the stack, its top first. -/
  freeStack : List Nat
  gets : Nat → Nat
  returns : Nat → Nat
  rxRing : List Nat
  rxq : UInt8 → List Nat
  fecRecovered : Option Nat
  others : List Nat

namespace Ledger

/-- `pool_init`, with every queue empty. -/
def init : Ledger where
  freeStack := (List.range packetPoolSize).reverse
  gets := fun _ => 0
  returns := fun _ => 0
  rxRing := []
  rxq := fun _ => []
  fecRecovered := none
  others := []

/-- `pool_get`. -/
def poolGet (l : Ledger) : Option (Nat × Ledger) :=
  match l.freeStack with
  | [] => none
  | h :: rest =>
      some
        (h,
          { l with
            freeStack := rest
            gets := Function.update l.gets h (l.gets h + 1) })

/-- `pool_return`, which ignores a buffer when the stack is full. -/
def poolReturn (l : Ledger) (h : Nat) : Ledger :=
  { l with
    freeStack :=
      if l.freeStack.length ≥ packetPoolSize then l.freeStack
      else h :: l.freeStack
    returns := Function.update l.returns h (l.returns h + 1) }

/-- The channels that have a receive queue. -/
def rxChannels : List UInt8 :=
  [chControl, chAudio, chChat, chFile, chRoute, chVideo]

def setQueue (l : Ledger) (channel : UInt8) (queue : List Nat) : Ledger :=
  { l with rxq := Function.update l.rxq channel queue }

/-- `rx_demux_push`; `false` stands for -1. -/
def rxDemuxPush (l : Ledger) (h : Nat) (channel : UInt8) : Bool × Ledger :=
  if channel ∈ rxChannels then
    let pushed := ringPush (l.rxq channel) h
    (pushed.1, l.setQueue channel pushed.2)
  else
    (false, l)

/-- The buffers on the receive queues. -/
def queued (l : Ledger) : List Nat :=
  rxChannels.flatMap l.rxq

/-- Every pointer to a buffer, as often as it is kept. -/
def places (l : Ledger) : Multiset Nat :=
  (l.freeStack : Multiset Nat) + l.rxRing + l.queued +
    l.fecRecovered.toList + l.others

/-- Every buffer is in one place, and a buffer outside the pool was taken
once more than it was returned. -/
structure Owned (l : Ledger) : Prop where
  places : l.places = Multiset.range packetPoolSize
  returned :
    ∀ h, h < packetPoolSize →
      l.gets h = l.returns h + if h ∈ l.freeStack then 0 else 1

theorem owned_init : init.Owned where
  places := by
    have empty : init.queued = [] := rfl
    rw [places, empty]
    simp [init, Multiset.range]
  returned := by
    intro h inside
    simp [init, inside]

/-! ## Accounts

`all` is what is kept somewhere or in `hand`, the buffers that the function
at work has in its variables. -/

structure Accounts (all hand : Multiset Nat) (l : Ledger) : Prop where
  sum : l.places + hand = all
  size : all.card ≤ packetPoolSize + l.queued.length
  returned :
    all.Nodup →
      ∀ h ∈ all, l.gets h = l.returns h + if h ∈ l.freeStack then 0 else 1

variable {all hand hand' : Multiset Nat} {l l' : Ledger} {h : Nat}

theorem owned_iff_accounts :
    l.Owned ↔ l.Accounts (Multiset.range packetPoolSize) 0 := by
  constructor
  · intro owned
    refine ⟨?_, ?_, ?_⟩
    · rw [add_zero, owned.places]
    · rw [Multiset.card_range]
      exact Nat.le_add_right _ _
    · intro _ h member
      exact owned.returned h (Multiset.mem_range.mp member)
  · intro accounts
    refine ⟨?_, ?_⟩
    · rw [← accounts.sum, add_zero]
    · intro h inside
      exact accounts.returned (Multiset.nodup_range _) h
        (Multiset.mem_range.mpr inside)

theorem Accounts.mem_of_mem_hand
    (accounts : l.Accounts all hand) (member : h ∈ hand) : h ∈ all := by
  rw [← accounts.sum]
  exact Multiset.mem_add.mpr (Or.inr member)

theorem Accounts.nodup_free
    (accounts : l.Accounts all hand) (unique : all.Nodup) :
    l.freeStack.Nodup := by
  rw [← Multiset.coe_nodup]
  apply Multiset.nodup_of_le _ unique
  rw [← accounts.sum]
  simp only [places, add_assoc]
  exact Multiset.le_add_right _ _

/-- What a function has in its hand is not free. -/
theorem Accounts.not_free
    (accounts : l.Accounts all (h ::ₘ hand)) (unique : all.Nodup) :
    h ∉ l.freeStack := by
  intro free
  have apart := unique
  rw [← accounts.sum, Multiset.add_cons, Multiset.nodup_cons] at apart
  apply apart.1
  simp [places, free]

/-- The pool has room for a buffer that is outside. -/
theorem Accounts.room
    (accounts : l.Accounts all (h ::ₘ hand)) :
    l.freeStack.length < packetPoolSize := by
  have total := congrArg Multiset.card accounts.sum
  have size := accounts.size
  simp only [places, Multiset.card_add, Multiset.coe_card,
    Multiset.card_cons] at total
  omega

/-- Buffers change their places, and none goes to the pool or leaves it. -/
theorem Accounts.transfer
    (accounts : l.Accounts all hand) (free : l'.freeStack = l.freeStack)
    (gets : l'.gets = l.gets) (returns : l'.returns = l.returns)
    (size : all.card ≤ packetPoolSize + l'.queued.length)
    (sum : l'.places + hand' = l.places + hand) :
    l'.Accounts all hand' where
  sum := sum.trans accounts.sum
  size := size
  returned := by
    rw [free, gets, returns]
    exact accounts.returned

/-! ### The pool -/

theorem poolGet_fecRecovered (taken : l.poolGet = some (h, l')) :
    l'.fecRecovered = l.fecRecovered := by
  unfold poolGet at taken
  split at taken
  · cases taken
  · cases taken
    rfl

theorem poolGet_rxq (taken : l.poolGet = some (h, l')) :
    l'.rxq = l.rxq := by
  unfold poolGet at taken
  split at taken
  · cases taken
  · cases taken
    rfl

theorem poolReturn_rxq : (l.poolReturn h).rxq = l.rxq :=
  rfl

theorem Accounts.get
    (accounts : l.Accounts all hand) (taken : l.poolGet = some (h, l')) :
    l'.Accounts all (h ::ₘ hand) := by
  unfold poolGet at taken
  split at taken
  · cases taken
  · rename_i top rest stack
    cases taken
    refine ⟨?_, accounts.size, ?_⟩
    · rw [← accounts.sum]
      simp only [places, stack, ← Multiset.cons_coe, Multiset.cons_add,
        Multiset.add_cons, queued]
    · intro unique x member
      have before := accounts.returned unique x member
      have once := accounts.nodup_free unique
      rw [stack] at before once
      by_cases same : x = h
      · subst same
        have gone := (List.nodup_cons.mp once).1
        simp only [List.mem_cons, true_or, if_true] at before
        simp only [Function.update_self, gone, if_false]
        omega
      · simpa [Function.update_of_ne same, same] using before

theorem Accounts.put
    (accounts : l.Accounts all (h ::ₘ hand)) :
    (l.poolReturn h).Accounts all hand := by
  have room : ¬ l.freeStack.length ≥ packetPoolSize :=
    Nat.not_le.mpr accounts.room
  refine ⟨?_, accounts.size, ?_⟩
  · rw [← accounts.sum]
    simp only [places, poolReturn, if_neg room, ← Multiset.cons_coe,
      Multiset.cons_add, Multiset.add_cons, queued]
  · intro unique x member
    have before := accounts.returned unique x member
    simp only [poolReturn, if_neg room]
    by_cases same : x = h
    · subst same
      simp only [accounts.not_free unique, if_false] at before
      simp only [Function.update_self, List.mem_cons, true_or, if_true]
      omega
    · simpa [Function.update_of_ne same, same] using before

/-- A second return is one too many. -/
theorem not_owned_of_returned_twice
    (accounts : l.Accounts all (h ::ₘ hand)) (unique : all.Nodup)
    (pooled : h < packetPoolSize) :
    ¬ ((l.poolReturn h).poolReturn h).Owned := by
  intro owned
  have after := owned.returned h pooled
  have before :=
    accounts.returned unique h
      (accounts.mem_of_mem_hand (Multiset.mem_cons_self h hand))
  simp only [accounts.not_free unique, if_false] at before
  simp only [poolReturn, Function.update_self] at after
  omega

/-! ### Queues -/

/-- Some order of the buffers on the queues has those of one channel first. -/
theorem queued_split
    {channel : UInt8} (known : channel ∈ rxChannels) :
    ∃ rest : Multiset Nat, ∀ queue : List Nat,
      ((l.setQueue channel queue).queued : Multiset Nat) = queue + rest := by
  obtain ⟨before, after, split⟩ := List.append_of_mem known
  have once : (before ++ channel :: after).Nodup := by
    rw [← split]
    decide
  have apart := List.nodup_middle.mp once
  rw [List.nodup_cons, List.mem_append, not_or] at apart
  have same : ∀ queue : List Nat, ∀ part : List UInt8, channel ∉ part →
      part.flatMap (Function.update l.rxq channel queue) =
        part.flatMap l.rxq := by
    intro queue part absent
    apply List.flatMap_congr
    intro other member
    have different : other ≠ channel := by
      rintro rfl
      exact absent member
    exact Function.update_of_ne different _ _
  refine ⟨before.flatMap l.rxq + after.flatMap l.rxq, ?_⟩
  intro queue
  rw [queued, split, List.flatMap_append, List.flatMap_cons]
  simp only [setQueue, same queue before apart.1.1,
    same queue after apart.1.2, Function.update_self, ← Multiset.coe_add]
  exact add_left_comm _ _ _

@[simp]
theorem setQueue_rxq (channel : UInt8) :
    l.setQueue channel (l.rxq channel) = l := by
  unfold setQueue
  rw [Function.update_eq_self]

/-- A buffer at the end of its channel's queue. -/
theorem queued_setQueue_append
    {channel : UInt8} (known : channel ∈ rxChannels) (h : Nat) :
    ((l.setQueue channel (l.rxq channel ++ [h])).queued : Multiset Nat) =
      h ::ₘ (l.queued : Multiset Nat) := by
  obtain ⟨rest, contents⟩ := queued_split (l := l) known
  have before := contents (l.rxq channel)
  rw [setQueue_rxq] at before
  rw [contents, before, ← Multiset.coe_add, Multiset.coe_singleton,
    add_right_comm, ← Multiset.singleton_add]
  exact add_comm _ _

theorem queued_setQueue_tail
    {channel : UInt8} (known : channel ∈ rxChannels) {rest : List Nat}
    (first : l.rxq channel = h :: rest) :
    (l.queued : Multiset Nat) =
      h ::ₘ ((l.setQueue channel rest).queued : Multiset Nat) := by
  obtain ⟨others, contents⟩ := queued_split (l := l) known
  have before := contents (l.rxq channel)
  rw [setQueue_rxq] at before
  rw [contents, before, first, ← Multiset.cons_coe, Multiset.cons_add]

/-- What `rx_demux_push` can do. -/
theorem rxDemuxPush_cases (l : Ledger) (h : Nat) (channel : UInt8) :
    ((l.rxDemuxPush h channel).1 = false ∧
        (l.rxDemuxPush h channel).2 = l) ∨
      ((l.rxDemuxPush h channel).1 = true ∧ channel ∈ rxChannels ∧
        (l.rxDemuxPush h channel).2 =
          l.setQueue channel (l.rxq channel ++ [h])) := by
  unfold rxDemuxPush
  by_cases known : channel ∈ rxChannels
  · rw [if_pos known]
    cases full : ringFull (l.rxq channel) with
    | true =>
        simp [ringPush, full]
    | false =>
        simp [ringPush, full, known]
  · rw [if_neg known]
    exact Or.inl ⟨rfl, rfl⟩

/-- A queue takes a buffer that the function at work keeps, so there is one
pointer more than before. -/
theorem Accounts.push
    (accounts : l.Accounts all (h ::ₘ hand)) {channel : UInt8}
    (known : channel ∈ rxChannels) :
    (l.setQueue channel (l.rxq channel ++ [h])).Accounts (h ::ₘ all)
      (h ::ₘ hand) := by
  have longer := queued_setQueue_append (l := l) known h
  refine ⟨?_, ?_, ?_⟩
  · rw [← accounts.sum, places, longer]
    simp only [places, setQueue, Multiset.cons_add, Multiset.add_cons]
  · have length := congrArg Multiset.card longer
    have size := accounts.size
    rw [Multiset.card_cons, Multiset.coe_card, Multiset.coe_card] at length
    rw [Multiset.card_cons, length]
    omega
  · intro unique
    exact absurd
      (accounts.mem_of_mem_hand (Multiset.mem_cons_self h hand))
      (Multiset.nodup_cons.mp unique).1

/-! ### The other places -/

theorem Accounts.pop
    (accounts : l.Accounts all hand) {rest : List Nat}
    (first : l.rxRing = h :: rest) :
    ({ l with rxRing := rest } : Ledger).Accounts all (h ::ₘ hand) := by
  refine accounts.transfer rfl rfl rfl accounts.size ?_
  simp only [places, queued, first, ← Multiset.cons_coe, Multiset.cons_add,
    Multiset.add_cons]

theorem Accounts.ringAppend
    (accounts : l.Accounts all (h ::ₘ hand)) :
    ({ l with rxRing := l.rxRing ++ [h] } : Ledger).Accounts all hand := by
  refine accounts.transfer rfl rfl rfl accounts.size ?_
  simp only [places, queued, ← Multiset.coe_add, Multiset.coe_singleton,
    ← Multiset.singleton_add]
  ac_rfl

/-- `sess->fec_recovered` was empty. -/
theorem Accounts.hold
    (accounts : l.Accounts all (h ::ₘ hand)) (empty : l.fecRecovered = none) :
    ({ l with fecRecovered := some h } : Ledger).Accounts all hand := by
  refine accounts.transfer rfl rfl rfl accounts.size ?_
  simp only [places, queued, empty, Option.toList_some, Option.toList_none,
    Multiset.coe_singleton, ← Multiset.singleton_add, Multiset.coe_nil]
  ac_rfl

theorem Accounts.release
    (accounts : l.Accounts all hand) (pending : l.fecRecovered = some h) :
    ({ l with fecRecovered := none } : Ledger).Accounts all
      (h ::ₘ hand) := by
  refine accounts.transfer rfl rfl rfl accounts.size ?_
  simp only [places, queued, pending, Option.toList_some, Option.toList_none,
    Multiset.coe_singleton, ← Multiset.singleton_add, Multiset.coe_nil]
  ac_rfl

/-- A buffer that the function at work forgets. -/
theorem Accounts.lose
    {old : Nat} (accounts : l.Accounts all (old ::ₘ hand))
    (unique : all.Nodup) :
    ∃ fewer, all = old ::ₘ fewer ∧ l.Accounts fewer hand := by
  have split : all = old ::ₘ (l.places + hand) := by
    rw [← accounts.sum, Multiset.add_cons]
  refine ⟨l.places + hand, split, rfl, ?_, ?_⟩
  · have size := accounts.size
    rw [split, Multiset.card_cons] at size
    omega
  · intro _ h member
    apply accounts.returned unique h
    rw [split]
    exact Multiset.mem_cons_of_mem member

/-- `sess->fec_recovered` held a buffer, which nobody points to any more. -/
theorem Accounts.overwrite
    (accounts : l.Accounts all (h ::ₘ hand)) (unique : all.Nodup) {old : Nat}
    (pending : l.fecRecovered = some old) :
    ∃ fewer, all = old ::ₘ fewer ∧
      ({ l with fecRecovered := some h } : Ledger).Accounts fewer hand := by
  obtain ⟨fewer, split, lost⟩ := (accounts.release pending).lose unique
  exact ⟨fewer, split, lost.hold rfl⟩

theorem Accounts.keep
    (accounts : l.Accounts all (h ::ₘ hand)) :
    ({ l with others := h :: l.others } : Ledger).Accounts all hand := by
  refine accounts.transfer rfl rfl rfl accounts.size ?_
  simp only [places, queued, ← Multiset.cons_coe, Multiset.cons_add,
    Multiset.add_cons]

theorem Accounts.takeBack
    (accounts : l.Accounts all hand) (member : h ∈ l.others) :
    ({ l with others := l.others.erase h } : Ledger).Accounts all
      (h ::ₘ hand) := by
  refine accounts.transfer rfl rfl rfl accounts.size ?_
  have found : (l.others : Multiset Nat) = h ::ₘ (l.others.erase h : List Nat)
    := Multiset.coe_eq_coe.mpr (List.perm_cons_erase member)
  simp only [places, queued, found, Multiset.cons_add, Multiset.add_cons]

end Ledger

end PqComm
