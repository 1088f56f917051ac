import Mathlib.Data.Set.Card
import PqComm.Lib.CircularBuffer

/-!
# Tables of slots

A table is an array of `size` slots, each free or with a value under a key.
As long as no key has two slots, the table is a partial map.  To write a slot
binds its key, to free a slot unbinds it, and to move a value to a free slot
changes nothing.  There are as many keys as slots that are taken.
-/

namespace PqComm.Lib

universe u v

variable {Key : Type u} {Value : Type v}

/-- The keys that a partial map binds. -/
def boundKeys (map : Key → Option Value) : Set Key :=
  {key | (map key).isSome}

/-- The slots below `size` hold the bindings of the map, each in one place. -/
structure Represents (size : Nat) (slots : Nat → Option (Key × Value))
    (map : Key → Option Value) : Prop where
  binds :
    ∀ key value,
      map key = some value ↔ ∃ i, i < size ∧ slots i = some (key, value)
  apart :
    ∀ i j key value other, i < size → j < size →
      slots i = some (key, value) → slots j = some (key, other) → i = j

namespace Represents

variable {size : Nat} {slots : Nat → Option (Key × Value)}
  {map : Key → Option Value}

theorem empty (free : ∀ i, i < size → slots i = none) :
    Represents size slots fun _ => none := by
  constructor
  · intro key value
    refine ⟨fun bound => (Option.some_ne_none value bound.symm).elim, ?_⟩
    rintro ⟨i, inside, taken⟩
    rw [free i inside] at taken
    exact (Option.some_ne_none _ taken.symm).elim
  · intro i j key value other inside _ taken _
    rw [free i inside] at taken
    exact (Option.some_ne_none _ taken.symm).elim

theorem eq_none
    (represents : Represents size slots map) {key : Key}
    (absent : ∀ i value, i < size → slots i ≠ some (key, value)) :
    map key = none := by
  rcases bound : map key with _ | value
  · rfl
  · obtain ⟨i, inside, taken⟩ := (represents.binds key value).mp bound
    exact (absent i value inside taken).elim

theorem isSome_of_slot
    (represents : Represents size slots map) {i : Nat} {key : Key}
    {value : Value} (inside : i < size)
    (taken : slots i = some (key, value)) : (map key).isSome = true := by
  rw [(represents.binds key value).mpr ⟨i, inside, taken⟩]
  rfl

/-! ## Changes of the table -/

/-- A slot that is free or has the key already is written with it; no other
slot may have it. -/
theorem store [DecidableEq Key]
    (represents : Represents size slots map) {place : Nat} {key : Key}
    (inside : place < size)
    (only : ∀ i value, i < size → slots i = some (key, value) → i = place)
    (own : ∀ k value, slots place = some (k, value) → k = key)
    (value : Value) :
    Represents size (writeSlot slots place (some (key, value)))
      (Function.update map key (some value)) := by
  have elsewhere {i : Nat} (apart : i ≠ place) :
      writeSlot slots place (some (key, value)) i = slots i :=
    if_neg apart
  have here :
      writeSlot slots place (some (key, value)) place = some (key, value) :=
    if_pos rfl
  constructor
  · intro k v
    by_cases same : k = key
    · subst same
      rw [Function.update_self]
      constructor
      · intro bound
        exact ⟨place, inside, by rw [here, Option.some_inj.mp bound]⟩
      · rintro ⟨i, below, taken⟩
        by_cases atPlace : i = place
        · rw [atPlace, here, Option.some_inj, Prod.mk.injEq] at taken
          rw [taken.2]
        · rw [elsewhere atPlace] at taken
          exact (atPlace (only i v below taken)).elim
    · rw [Function.update_of_ne same, represents.binds k v]
      refine exists_congr fun i => and_congr_right fun _ => ?_
      by_cases atPlace : i = place
      · rw [atPlace, here, Option.some_inj, Prod.mk.injEq]
        exact ⟨fun taken => (same (own k v taken)).elim,
          fun equal => (same equal.1.symm).elim⟩
      · rw [elsewhere atPlace]
  · intro i j k first second below below' left right
    by_cases iPlace : i = place
    · by_cases jPlace : j = place
      · rw [iPlace, jPlace]
      · rw [iPlace, here, Option.some_inj, Prod.mk.injEq] at left
        rw [elsewhere jPlace, ← left.1] at right
        rw [iPlace, only j second below' right]
    · rw [elsewhere iPlace] at left
      by_cases jPlace : j = place
      · rw [jPlace, here, Option.some_inj, Prod.mk.injEq] at right
        rw [← right.1] at left
        rw [jPlace, only i first below left]
      · rw [elsewhere jPlace] at right
        exact represents.apart i j k first second below below' left right

/-- To free the slot of a key unbinds it. -/
theorem free [DecidableEq Key]
    (represents : Represents size slots map) {place : Nat} {key : Key}
    {value : Value} (inside : place < size)
    (taken : slots place = some (key, value)) :
    Represents size (writeSlot slots place none)
      (Function.update map key none) := by
  have remains {i : Nat} {entry : Key × Value} :
      writeSlot slots place none i = some entry ↔
        i ≠ place ∧ slots i = some entry :=
    Option.ite_none_left_eq_some
  constructor
  · intro k v
    by_cases same : k = key
    · subst same
      rw [Function.update_self]
      refine ⟨fun none => (Option.some_ne_none v none.symm).elim, ?_⟩
      rintro ⟨i, below, found⟩
      obtain ⟨apart, found⟩ := remains.mp found
      exact (apart (represents.apart i place k v value below inside found
        taken)).elim
    · rw [Function.update_of_ne same, represents.binds k v]
      refine exists_congr fun i => and_congr_right fun _ => ?_
      rw [remains]
      refine ⟨fun found => ⟨?_, found⟩, fun both => both.2⟩
      intro atPlace
      rw [atPlace, taken, Option.some_inj, Prod.mk.injEq] at found
      exact same found.1.symm
  · intro i j k first second below below' left right
    exact represents.apart i j k first second below below'
      (remains.mp left).2 (remains.mp right).2

/-- A value may be moved to a free slot. -/
theorem move
    (represents : Represents size slots map) {source target : Nat}
    (sourceInside : source < size) (targetInside : target < size)
    (vacant : slots target = none) :
    Represents size
      (writeSlot (writeSlot slots target (slots source)) source none)
      map := by
  -- A slot after the move has what one slot had before it.
  have came {i : Nat} {entry : Key × Value} :
      writeSlot (writeSlot slots target (slots source)) source none i =
          some entry ↔
        i ≠ source ∧
          slots (if i = target then source else i) = some entry := by
    rw [writeSlot, writeSlot, Option.ite_none_left_eq_some]
    refine and_congr_right fun _ => ?_
    split
    · exact Iff.rfl
    · exact Iff.rfl
  have below {i : Nat} (inside : i < size) :
      (if i = target then source else i) < size := by
    split
    · exact sourceInside
    · exact inside
  constructor
  · intro key value
    rw [represents.binds key value]
    constructor
    · rintro ⟨i, inside, taken⟩
      by_cases atSource : i = source
      · subst atSource
        refine ⟨target, targetInside, came.mpr ⟨?_, ?_⟩⟩
        · intro same
          rw [← same, vacant] at taken
          exact Option.some_ne_none _ taken.symm
        · rw [if_pos rfl, taken]
      · refine ⟨i, inside, came.mpr ⟨atSource, ?_⟩⟩
        have apart : i ≠ target := by
          intro same
          rw [same, vacant] at taken
          exact Option.some_ne_none _ taken.symm
        rw [if_neg apart, taken]
    · rintro ⟨i, inside, taken⟩
      exact ⟨_, below inside, (came.mp taken).2⟩
  · intro i j key value other inside inside' left right
    obtain ⟨iApart, left⟩ := came.mp left
    obtain ⟨jApart, right⟩ := came.mp right
    have same :=
      represents.apart _ _ key value other (below inside) (below inside') left
        right
    split at same
    · rename_i iTarget
      split at same
      · rename_i jTarget
        rw [iTarget, jTarget]
      · exact (jApart same.symm).elim
    · split at same
      · exact (iApart same).elim
      · exact same

/-! ## The number of keys -/

/-- There are as many keys as slots that are taken. -/
theorem ncard_boundKeys (represents : Represents size slots map) :
    (boundKeys map).ncard =
      ((Finset.range size).filter fun i => (slots i).isSome).card := by
  rw [← Set.ncard_coe_finset]
  symm
  have taken {i : Nat}
      (member :
        i ∈ ((Finset.range size).filter fun i => (slots i).isSome :
          Set Nat)) :
      i < size ∧ (slots i).isSome = true := by
    rw [Finset.mem_coe, Finset.mem_filter, Finset.mem_range] at member
    exact member
  refine Set.ncard_congr
    (fun i member => ((slots i).get (taken member).2).1) ?_ ?_ ?_
  · intro i member
    exact represents.isSome_of_slot (taken member).1
      (Option.some_get (taken member).2).symm
  · intro i j member member' same
    have left := Option.some_get (taken member).2
    have right := Option.some_get (taken member').2
    rw [← Prod.eta ((slots i).get _), same] at left
    exact represents.apart i j _ _ _ (taken member).1 (taken member').1
      left.symm right.symm
  · intro key bound
    obtain ⟨value, bound⟩ := Option.isSome_iff_exists.mp bound
    obtain ⟨i, inside, holds⟩ := (represents.binds key value).mp bound
    refine ⟨i, ?_, ?_⟩
    · rw [Finset.mem_coe, Finset.mem_filter, Finset.mem_range, holds]
      exact ⟨inside, rfl⟩
    · simp only [holds, Option.get_some]

theorem ncard_boundKeys_le (represents : Represents size slots map) :
    (boundKeys map).ncard ≤ size := by
  rw [represents.ncard_boundKeys]
  exact (Finset.card_filter_le _ _).trans_eq (Finset.card_range size)

/-- The map has room for one more key exactly when a slot is free. -/
theorem ncard_boundKeys_lt_iff (represents : Represents size slots map) :
    (boundKeys map).ncard < size ↔ ∃ i, i < size ∧ slots i = none := by
  rw [represents.ncard_boundKeys]
  constructor
  · intro room
    by_contra full
    have all :
        ((Finset.range size).filter fun i => (slots i).isSome) =
          Finset.range size := by
      refine Finset.filter_true_of_mem fun i inside => ?_
      rw [Option.isSome_iff_ne_none]
      exact fun free => full ⟨i, Finset.mem_range.mp inside, free⟩
    rw [all, Finset.card_range] at room
    exact Nat.lt_irrefl size room
  · rintro ⟨i, inside, free⟩
    have vacant : ¬ (slots i).isSome = true := by
      rw [free]
      exact Bool.false_ne_true
    have fewer :
        ((Finset.range size).filter fun i => (slots i).isSome) ⊂
          Finset.range size :=
      Finset.filter_ssubset.mpr ⟨i, Finset.mem_range.mpr inside, vacant⟩
    exact (Finset.card_lt_card fewer).trans_eq (Finset.card_range size)

end Represents

end PqComm.Lib
