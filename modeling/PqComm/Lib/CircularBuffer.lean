import Mathlib.Data.List.DropRight
import Mathlib.Data.List.Nodup
import Mathlib.Data.List.Perm.Subperm
import Mathlib.Data.Nat.ModEq

/-!
# Circular buffers

A list lies in an array of `size` places from a start on, and goes on at the
beginning of the array when it comes to its end.  The start may be any number,
of which only the remainder matters, so that it can be a counter that is never
set back.

A full buffer that loses its first item for each new one holds the last `size`
items of all that were ever written.
-/

namespace PqComm.Lib

universe u

variable {Item : Type u}

/-- The items lie in the array in their order, from the place `start` on. -/
structure Circular (size : Nat) (slots : Nat → Item) (start : Nat)
    (items : List Item) : Prop where
  fits : items.length ≤ size
  holds :
    ∀ i, i < items.length → items[i]? = some (slots ((start + i) % size))

/-- The array after a write. -/
def writeSlot (slots : Nat → Item) (place : Nat) (item : Item) : Nat → Item :=
  fun i => if i = place then item else slots i

/-- To write what is there changes nothing. -/
theorem writeSlot_self (slots : Nat → Item) (place : Nat) :
    writeSlot slots place (slots place) = slots := by
  funext i
  rw [writeSlot]
  split
  · rename_i same
    rw [same]
  · rfl

section

variable {size start : Nat} {slots : Nat → Item} {items : List Item}

theorem Circular.nil (size start : Nat) (slots : Nat → Item) :
    Circular size slots start [] :=
  ⟨Nat.zero_le size, fun _ inside => absurd inside (Nat.not_lt_zero _)⟩

/-- Only the remainder of the start matters. -/
theorem Circular.congr_start
    (circular : Circular size slots start items) {start' : Nat}
    (same : start' % size = start % size) :
    Circular size slots start' items := by
  refine ⟨circular.fits, fun i inside => ?_⟩
  rw [circular.holds i inside, Nat.add_mod start' i, same, ← Nat.add_mod]

theorem add_mod_inj {i j : Nat} (left : i < size) (right : j < size)
    (same : (start + i) % size = (start + j) % size) : i = j := by
  have congruent : i ≡ j [MOD size] := Nat.ModEq.add_left_cancel' start same
  exact congruent.eq_of_lt_of_lt left right

/-- A write behind the last item appends it. -/
theorem Circular.push
    (circular : Circular size slots start items)
    (room : items.length < size) (item : Item) :
    Circular size
      (writeSlot slots ((start + items.length) % size) item) start
      (items ++ [item]) := by
  refine ⟨by rw [List.length_append]; exact room, fun i inside => ?_⟩
  rw [List.length_append, List.length_singleton] at inside
  by_cases last : i = items.length
  · rw [last, List.getElem?_concat_length, writeSlot, if_pos rfl]
  · have before : i < items.length := by
      omega
    have apart : (start + i) % size ≠ (start + items.length) % size :=
      fun same => last (add_mod_inj (before.trans room) room same)
    rw [List.getElem?_append_left before, circular.holds i before, writeSlot,
      if_neg apart]

/-- The first item is in the place of the start. -/
theorem Circular.head
    {item : Item} (circular : Circular size slots start (item :: items)) :
    slots (start % size) = item := by
  have found := circular.holds 0 (Nat.zero_lt_succ _)
  exact (Option.some_inj.mp found).symm

/-- Without the first item, the list begins one place later. -/
theorem Circular.pop
    {item : Item} (circular : Circular size slots start (item :: items)) :
    Circular size slots (start + 1) items := by
  have fits := circular.fits
  rw [List.length_cons] at fits
  refine ⟨by omega, fun i inside => ?_⟩
  have found := circular.holds (i + 1) (Nat.succ_lt_succ inside)
  rw [List.getElem?_cons_succ] at found
  rw [found, Nat.add_assoc, Nat.add_comm 1 i]

/-- In a full buffer the new item takes the place of the first. -/
theorem Circular.rotate
    {first : Item} (circular : Circular size slots start (first :: items))
    (full : (first :: items).length = size) (item : Item) :
    Circular size (writeSlot slots (start % size) item) (start + 1)
      (items ++ [item]) := by
  rw [List.length_cons] at full
  have place : (start + 1 + items.length) % size = start % size := by
    rw [Nat.add_assoc, Nat.add_comm 1, full, Nat.add_mod_right]
  rw [← place]
  exact circular.pop.push (by omega) item

/-- The places of a full buffer in the order of the items. -/
theorem range_map_perm (size start : Nat) :
    ((List.range size).map fun i => (start + i) % size).Perm
      (List.range size) := by
  refine List.Perm.symm (List.Subperm.perm_of_length_le ?_ ?_)
  · refine List.subperm_of_subset List.nodup_range ?_
    intro place below
    rw [List.mem_range] at below
    have positive := Nat.zero_lt_of_lt below
    have total :
        start % size + (place + size - start % size) = place + size := by
      have shift := Nat.mod_lt start positive
      omega
    refine List.mem_map.mpr ⟨(place + size - start % size) % size,
      List.mem_range.mpr (Nat.mod_lt _ positive), ?_⟩
    rw [Nat.add_mod_mod, ← Nat.mod_add_mod, total, Nat.add_mod_right,
      Nat.mod_eq_of_lt below]
  · rw [List.length_map]

/-- What is counted in a full buffer is counted among its items. -/
theorem Circular.countP_range
    (circular : Circular size slots start items)
    (full : items.length = size) (test : Item → Bool) :
    (List.range size).countP (fun i => test (slots i)) =
      items.countP test := by
  have listed :
      items = (List.range size).map fun i => slots ((start + i) % size) := by
    refine List.ext_getElem? fun i => ?_
    by_cases inside : i < items.length
    · rw [circular.holds i inside, List.getElem?_map,
        List.getElem?_range (by omega)]
      rfl
    · rw [List.getElem?_eq_none (Nat.not_lt.mp inside),
        List.getElem?_eq_none (by simp; omega)]
  have counted := (range_map_perm size start).countP_eq fun i => test (slots i)
  rw [← counted, List.countP_map]
  rw [listed, List.countP_map]
  rfl

end

/-! ## The last items of a history -/

/-- The last `size` items of a history that began with a full buffer of
`filler`. -/
def lastWindow (size : Nat) (filler : Item) (history : List Item) :
    List Item :=
  (List.replicate size filler ++ history).drop history.length

section

variable (size : Nat) (filler : Item) (history : List Item)

@[simp]
theorem length_lastWindow :
    (lastWindow size filler history).length = size := by
  simp [lastWindow]

theorem lastWindow_concat (item : Item) :
    lastWindow size filler (history ++ [item]) =
      (lastWindow size filler history ++ [item]).tail := by
  rw [lastWindow, lastWindow, List.length_append, List.length_singleton,
    ← List.append_assoc, ← List.drop_drop, List.drop_append_of_le_length,
    List.drop_one]
  simp

/-- Of the last items the first makes room for a new one. -/
theorem rtake_concat (positive : 0 < size) (item : Item) :
    (history ++ [item]).rtake size =
      (if size ≤ history.length then (history.rtake size).tail
        else history.rtake size) ++ [item] := by
  rw [List.rtake, List.rtake, List.length_append, List.length_singleton]
  split
  · rename_i full
    rw [List.tail_drop, List.drop_append_of_le_length (by omega)]
    congr 2
    omega
  · rw [List.drop_append_of_le_length (by omega)]
    congr 2
    omega

/-- What the filler does not count is counted among the last items. -/
theorem countP_lastWindow {test : Item → Bool} (skips : test filler = false) :
    (lastWindow size filler history).countP test =
      (history.rtake size).countP test := by
  rw [lastWindow, List.drop_append, List.countP_append, List.drop_replicate,
    List.countP_replicate, List.length_replicate, List.rtake]
  simp [skips]

end

end PqComm.Lib
