import Mathlib.Data.List.Induction

/-!
# States that are written one field at a time

After a run of writes each field holds what the last write to it gave, so two
runs lead to the same state exactly when their last writes agree.
-/

namespace PqComm.Lib

/-- Reading and writing the fields of a state.  An entry written to a field is
read back as `given` says, and the other fields are unchanged. -/
structure Fields (State Field Entry Value : Type*) where
  read : State → Field → Value
  write : State → Field → Entry → State
  given : Field → Entry → Value
  read_write_self :
    ∀ state field entry, read (write state field entry) field =
      given field entry
  read_write_of_ne :
    ∀ state entry {field other}, other ≠ field →
      read (write state field entry) other = read state other
  ext : ∀ {left right}, (∀ field, read left field = read right field) →
    left = right

namespace Fields

variable {State Field Entry Value : Type*} [DecidableEq Field]
  (F : Fields State Field Entry Value)

/-- The state after a run of writes. -/
def writes (start : State) (entries : List (Field × Entry)) : State :=
  entries.foldl (fun state entry => F.write state entry.1 entry.2) start

/-- What the last entry for a field gives it, and without one what the field
held at the start. -/
def last (start : State) (entries : List (Field × Entry)) (field : Field) :
    Value :=
  match entries.reverse.find? fun entry => entry.1 = field with
  | none => F.read start field
  | some entry => F.given field entry.2

theorem last_concat
    (start : State) (entries : List (Field × Entry)) (entry : Field × Entry)
    (field : Field) :
    F.last start (entries ++ [entry]) field =
      if entry.1 = field then F.given field entry.2
      else F.last start entries field := by
  unfold last
  rw [List.reverse_append, List.reverse_singleton, List.singleton_append]
  by_cases same : entry.1 = field
  · rw [if_pos same, List.find?_cons_of_pos (by simpa using same)]
  · rw [if_neg same, List.find?_cons_of_neg (by simpa using same)]

/-- The last write to a field decides what it holds. -/
theorem read_writes
    (start : State) (entries : List (Field × Entry)) (field : Field) :
    F.read (F.writes start entries) field = F.last start entries field := by
  induction entries using List.reverseRecOn with
  | nil =>
      rfl
  | append_singleton entries entry inductionHypothesis =>
      rw [last_concat]
      unfold writes at inductionHypothesis ⊢
      rw [List.foldl_append, List.foldl_cons, List.foldl_nil]
      by_cases same : entry.1 = field
      · subst same
        rw [if_pos rfl, F.read_write_self]
      · rw [if_neg same, F.read_write_of_ne _ _ (Ne.symm same),
          inductionHypothesis]

/-- Two runs of writes lead to the same state exactly when they agree on the
last write to every field. -/
theorem writes_eq_iff
    (start : State) (left right : List (Field × Entry)) :
    F.writes start left = F.writes start right ↔
      ∀ field, F.last start left field = F.last start right field := by
  constructor
  · intro same field
    rw [← F.read_writes, ← F.read_writes, same]
  · intro agree
    refine F.ext fun field => ?_
    rw [F.read_writes, F.read_writes]
    exact agree field

end Fields

end PqComm.Lib
