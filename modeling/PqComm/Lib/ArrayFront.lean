import PqComm.Lib.CircularBuffer

/-!
# Lists in the front of an array

A list that begins at the start of an array and a count of its items.  To
write behind the last item appends, to write at an item replaces it, and a
loop that copies every later item one place down takes an item out.
-/

namespace PqComm.Lib

universe u

variable {Item : Type u} {slots : Nat → Item}

/-- The first `count` items of an array. -/
def front (slots : Nat → Item) (count : Nat) : List Item :=
  (List.range count).map slots

/-- `for (j = first; j < first + n; j++) slots[j] = slots[j + 1];` -/
def shiftDown (slots : Nat → Item) (first : Nat) : Nat → Nat → Item
  | 0 => slots
  | n + 1 =>
      writeSlot (shiftDown slots first n) (first + n)
        (shiftDown slots first n (first + n + 1))

@[simp]
theorem length_front (count : Nat) : (front slots count).length = count := by
  simp [front]

@[simp]
theorem getElem_front
    {count i : Nat} (inside : i < (front slots count).length) :
    (front slots count)[i] = slots i := by
  simp [front]

theorem front_congr
    {slots' : Nat → Item} {count : Nat}
    (same : ∀ i, i < count → slots' i = slots i) :
    front slots' count = front slots count :=
  List.map_congr_left fun i member => same i (List.mem_range.mp member)

theorem front_succ (count : Nat) :
    front slots (count + 1) = front slots count ++ [slots count] := by
  rw [front, List.range_succ, List.map_append]
  rfl

/-- A write behind the last item appends it. -/
theorem front_push (count : Nat) (item : Item) :
    front (writeSlot slots count item) (count + 1) =
      front slots count ++ [item] := by
  rw [front_succ, writeSlot, if_pos rfl]
  congr 1
  exact front_congr fun i inside => if_neg (Nat.ne_of_lt inside)

/-- A write at an item replaces it. -/
theorem front_write (count place : Nat) (item : Item) :
    front (writeSlot slots place item) count =
      (front slots count).set place item := by
  refine List.ext_getElem (by simp) fun i inside inside' => ?_
  rw [getElem_front, List.getElem_set, getElem_front, writeSlot]
  exact if_congr eq_comm rfl rfl

/-! ## Searching -/

/-- The first place at which a test succeeds is that of the list. -/
theorem findIdx?_front (count : Nat) (test : Item → Bool) :
    (front slots count).findIdx? test =
      (List.range count).find? fun i => test (slots i) := by
  refine Option.ext fun place => ?_
  rw [List.findIdx?_eq_some_iff_getElem, List.find?_range_eq_some]
  simp only [length_front, getElem_front, List.mem_range, exists_prop,
    Bool.not_eq_true, Bool.not_eq_eq_eq_not, Bool.not_true]
  exact and_left_comm

theorem find?_front (count : Nat) (test : Item → Bool) :
    (front slots count).find? test =
      ((List.range count).find? fun i => test (slots i)).map slots :=
  List.find?_map

/-! ## Taking an item out -/

theorem shiftDown_apply (first n i : Nat) :
    shiftDown slots first n i =
      if first ≤ i ∧ i < first + n then slots (i + 1) else slots i := by
  induction n generalizing i with
  | zero =>
      rw [if_neg (by omega)]
      rfl
  | succ n inductionHypothesis =>
      rw [shiftDown, writeSlot]
      split
      · rename_i last
        rw [last, inductionHypothesis, if_neg (by omega), if_pos (by omega)]
      · rename_i other
        rw [inductionHypothesis]
        exact if_congr (by omega) rfl rfl

/-- Every item behind the place moves down into it. -/
theorem front_shiftDown {count place : Nat} (inside : place < count) :
    front (shiftDown slots place (count - 1 - place)) (count - 1) =
      (front slots count).eraseIdx place := by
  have shorter :
      ((front slots count).eraseIdx place).length = count - 1 := by
    rw [List.length_eraseIdx_of_lt (by rwa [length_front]), length_front]
  have same :
      (front (shiftDown slots place (count - 1 - place)) (count - 1)).length =
        ((front slots count).eraseIdx place).length := by
    rw [shorter, length_front]
  refine List.ext_getElem same fun i left right => ?_
  rw [length_front] at left
  rw [getElem_front, List.getElem_eraseIdx, shiftDown_apply]
  by_cases before : i < place
  · rw [dif_pos before, if_neg (by omega), getElem_front]
  · rw [dif_neg before, if_pos (by omega), getElem_front]

end PqComm.Lib
