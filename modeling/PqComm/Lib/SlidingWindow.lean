import Mathlib.Data.List.Nodup

/-!
# Sliding windows against duplicates

A window knows the largest number it has taken and, for each of the `width`
numbers up to it, whether that number was taken.  A number is fresh when it is
above the window, or inside it and not marked; what lies below the window is
never fresh.

A window that forgets nothing may still refuse too much.  `Exact` says that
it marks the numbers that were taken and no others, so that it lets a number
pass exactly when the specification does.

A table holds one window for each index.  `Admits` says how a table takes a
list of indexed numbers one after the other, and a table that admits a list
has seen no entry of it twice.
-/

namespace PqComm.Lib

/-- `seen` is indexed by the distance below `last`. -/
structure Window where
  last : Nat
  seen : Nat → Prop

namespace Window

variable (width : Nat)

/-- The window lets `n` pass. -/
def Fresh (w : Window) (n : Nat) : Prop :=
  w.last < n ∨ (n ≤ w.last ∧ w.last - n < width ∧ ¬ w.seen (w.last - n))

/-- The window remembers every member of `taken`, or has moved past it. -/
def Covers (w : Window) (taken : Nat → Prop) : Prop :=
  ∀ n, taken n → n ≤ w.last ∧ (w.last - n < width → w.seen (w.last - n))

/-- No mark of `w` is lost on the way to `w'`. -/
structure Keeps (w w' : Window) : Prop where
  last : w.last ≤ w'.last
  seen : ∀ distance, w.seen distance →
    distance + (w'.last - w.last) < width →
      w'.seen (distance + (w'.last - w.last))

/-- On the way to `w'` the number `n` was marked and no mark was lost. -/
structure Takes (w : Window) (n : Nat) (w' : Window) : Prop
    extends Keeps width w w' where
  reaches : n ≤ w'.last
  marked : w'.last - n < width → w'.seen (w'.last - n)

variable {width}

theorem Keeps.refl (w : Window) : Keeps width w w where
  last := Nat.le_refl w.last
  seen := by
    intro distance marked _
    simpa using marked

theorem Keeps.trans
    {w w' w'' : Window} (first : Keeps width w w')
    (second : Keeps width w' w'') : Keeps width w w'' := by
  have moved := first.last
  have moved' := second.last
  refine ⟨Nat.le_trans moved moved', fun distance marked near => ?_⟩
  have split :
      distance + (w''.last - w.last) =
        distance + (w'.last - w.last) + (w''.last - w'.last) := by
    omega
  rw [split] at near ⊢
  exact second.seen _ (first.seen distance marked (by omega)) near

theorem Takes.of_keeps
    {w w' w'' : Window} {n : Nat} (keeps : Keeps width w w')
    (takes : Takes width w' n w'') : Takes width w n w'' :=
  { keeps.trans takes.toKeeps with
    reaches := takes.reaches
    marked := takes.marked }

/-- What is fresh after marks were added was fresh before. -/
theorem Fresh.of_keeps
    {w w' : Window} {n : Nat} (keeps : Keeps width w w')
    (fresh : Fresh width w' n) : Fresh width w n := by
  have moved := keeps.last
  by_cases above : w.last < n
  · exact Or.inl above
  · rcases fresh with beyond | ⟨below, near, unmarked⟩
    · omega
    · refine Or.inr ⟨by omega, by omega, fun marked => unmarked ?_⟩
      have split : w'.last - n = w.last - n + (w'.last - w.last) := by
        omega
      rw [split] at near ⊢
      exact keeps.seen _ marked near

theorem Covers.keep
    {w w' : Window} {taken : Nat → Prop} (covers : Covers width w taken)
    (keeps : Keeps width w w') : Covers width w' taken := by
  intro n member
  obtain ⟨below, marked⟩ := covers n member
  have moved := keeps.last
  refine ⟨Nat.le_trans below moved, fun near => ?_⟩
  have split : w'.last - n = w.last - n + (w'.last - w.last) := by
    omega
  rw [split] at near ⊢
  exact keeps.seen _ (marked (by omega)) near

theorem Covers.take
    {w w' : Window} {taken : Nat → Prop} {n : Nat}
    (covers : Covers width w taken) (takes : Takes width w n w') :
    Covers width w' fun m => m = n ∨ taken m := by
  intro m member
  rcases member with rfl | member
  · exact ⟨takes.reaches, takes.marked⟩
  · exact covers.keep takes.toKeeps m member

theorem Covers.not_taken_of_fresh
    {w : Window} {taken : Nat → Prop} {n : Nat}
    (covers : Covers width w taken) (fresh : Fresh width w n) : ¬ taken n := by
  intro member
  obtain ⟨below, marked⟩ := covers n member
  rcases fresh with above | ⟨_, near, unmarked⟩
  · omega
  · exact unmarked (marked near)

/-! ## Exact windows -/

variable (width) in
/-- The window reaches every member of `taken` and, where it reaches, marks
the members and nothing else. -/
structure Exact (w : Window) (taken : Nat → Prop) : Prop where
  reaches : ∀ n, taken n → n ≤ w.last
  seen : ∀ n, n ≤ w.last → w.last - n < width →
    (w.seen (w.last - n) ↔ taken n)

variable (width) in
/-- From `w` to `w'` the number `n` was marked and nothing else. -/
structure Marks (w : Window) (n : Nat) (w' : Window) : Prop where
  last : w'.last = max w.last n
  seen : ∀ m, m ≤ w'.last → w'.last - m < width →
    (w'.seen (w'.last - m) ↔
      m = n ∨ (m ≤ w.last ∧ w.seen (w.last - m)))

theorem Exact.fresh_iff
    {w : Window} {taken : Nat → Prop} (knows : Exact width w taken)
    (n : Nat) :
    Fresh width w n ↔
      w.last < n ∨ (n ≤ w.last ∧ w.last - n < width ∧ ¬taken n) := by
  refine or_congr_right (and_congr_right fun below => ?_)
  refine and_congr_right fun near => ?_
  rw [knows.seen n below near]

theorem Exact.mark
    {w w' : Window} {taken : Nat → Prop} {n : Nat}
    (knows : Exact width w taken) (marks : Marks width w n w') :
    Exact width w' fun m => m = n ∨ taken m where
  reaches := by
    intro m member
    rw [marks.last]
    rcases member with rfl | member
    · exact Nat.le_max_right _ _
    · exact Nat.le_trans (knows.reaches m member) (Nat.le_max_left _ _)
  seen := by
    intro m below near
    have moved : w.last ≤ w'.last := by
      rw [marks.last]
      exact Nat.le_max_left _ _
    rw [marks.seen m below near]
    refine or_congr_right ⟨?_, fun member => ?_⟩
    · rintro ⟨inside, marked⟩
      exact (knows.seen m inside (by omega)).mp marked
    · have inside := knows.reaches m member
      exact ⟨inside, (knows.seen m inside (by omega)).mpr member⟩

end Window

/-! ## Tables of windows -/

section Table

variable {ι : Type} (width : Nat)

/-- Nothing is forgotten between two tables. -/
def TableKeeps (before after : ι → Window) : Prop :=
  ∀ i, Window.Keeps width (before i) (after i)

/-- The table takes the entries of a list in order, each one fresh when it is
taken. -/
inductive Admits : (ι → Window) → List (ι × Nat) → (ι → Window) → Prop where
  | nil {before after : ι → Window} (keeps : TableKeeps width before after) :
      Admits before [] after
  | cons {before middle after : ι → Window} {i : ι} {n : Nat}
      {rest : List (ι × Nat)}
      (fresh : Window.Fresh width (before i) n)
      (takes : Window.Takes width (before i) n (middle i))
      (others : TableKeeps width before middle)
      (tail : Admits middle rest after) :
      Admits before ((i, n) :: rest) after

variable {width}

theorem TableKeeps.refl (table : ι → Window) :
    TableKeeps width table table :=
  fun i => Window.Keeps.refl (table i)

theorem Admits.refl (table : ι → Window) : Admits width table [] table :=
  Admits.nil (TableKeeps.refl table)

theorem TableKeeps.trans
    {first second third : ι → Window} (left : TableKeeps width first second)
    (right : TableKeeps width second third) : TableKeeps width first third :=
  fun i => (left i).trans (right i)

theorem Admits.of_keeps
    {first second third : ι → Window} {list : List (ι × Nat)}
    (keeps : TableKeeps width first second)
    (admits : Admits width second list third) :
    Admits width first list third := by
  cases admits with
  | nil keeps' =>
      exact Admits.nil (keeps.trans keeps')
  | cons fresh takes others tail =>
      exact Admits.cons (fresh.of_keeps (keeps _))
        (takes.of_keeps (keeps _)) (keeps.trans others) tail

theorem Admits.append
    {first second third : ι → Window} {left right : List (ι × Nat)}
    (admits : Admits width first left second)
    (admits' : Admits width second right third) :
    Admits width first (left ++ right) third := by
  induction admits with
  | nil keeps =>
      exact admits'.of_keeps keeps
  | cons fresh takes others tail hypothesis =>
      exact Admits.cons fresh takes others (hypothesis admits')

/-- A table that remembers `taken` admits no entry of it again, and no entry
of the list twice. -/
theorem Admits.nodup_of_covers
    {before after : ι → Window} {list : List (ι × Nat)}
    (admits : Admits width before list after) :
    ∀ taken : ι → Nat → Prop,
      (∀ i, Window.Covers width (before i) (taken i)) →
        list.Nodup ∧ ∀ entry ∈ list, ¬ taken entry.1 entry.2 := by
  induction admits with
  | nil keeps =>
      intro taken covers
      simp
  | @cons before middle after i n rest fresh takes others tail hypothesis =>
      intro taken covers
      have covers' : ∀ j, Window.Covers width (middle j)
          fun m => (j = i ∧ m = n) ∨ taken j m := by
        intro j
        by_cases same : j = i
        · subst same
          simpa using (covers j).take takes
        · simpa [same] using (covers j).keep (others j)
      obtain ⟨distinct, unseen⟩ := hypothesis _ covers'
      constructor
      · refine List.nodup_cons.mpr ⟨fun member => ?_, distinct⟩
        exact unseen _ member (Or.inl ⟨rfl, rfl⟩)
      · intro entry member
        rcases List.mem_cons.mp member with rfl | member
        · exact (covers i).not_taken_of_fresh fresh
        · intro before
          exact unseen entry member (Or.inr before)

/-- Whatever the table starts from, it admits no entry twice. -/
theorem Admits.nodup
    {before after : ι → Window} {list : List (ι × Nat)}
    (admits : Admits width before list after) : list.Nodup := by
  refine (admits.nodup_of_covers (fun _ _ => False) ?_).1
  intro i n member
  exact member.elim

end Table

end PqComm.Lib
