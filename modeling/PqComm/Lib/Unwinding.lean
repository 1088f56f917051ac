import Mathlib.Data.List.Basic

/-!
# Calls that do not interfere

A machine takes calls, some of which are of interest.  The calls of interest
are undisturbed from a state when their outputs are the same whether the
other calls are made or left out.  An unwinding relation shows this: calls of
interest keep it and answer alike in related states, and other calls do not
lead out of it.
-/

namespace PqComm.Lib

section

variable {State Call Output : Type}

/-- The calls with their outputs. -/
def callTrace (step : State → Call → State × Output) :
    State → List Call → List (Call × Output)
  | _, [] => []
  | s, call :: calls =>
      (call, (step s call).2) :: callTrace step (step s call).1 calls

/-- In these calls those of interest answer as they would alone. -/
def UndisturbedOn
    (step : State → Call → State × Output) (mine : Call → Bool)
    (s : State) (calls : List Call) : Prop :=
  (callTrace step s calls).filter (fun entry => mine entry.1) =
    callTrace step s (calls.filter mine)

/-- The calls of interest answer as they would alone. -/
def Undisturbed
    (step : State → Call → State × Output) (mine : Call → Bool)
    (s : State) : Prop :=
  ∀ calls, UndisturbedOn step mine s calls

/-- Every call meets a condition on the state before it and on the state that
the calls of interest reach there alone. -/
def KeptAlong
    (step : State → Call → State × Output) (mine : Call → Bool)
    (Kept : State → State → Call → Prop) :
    State → State → List Call → Prop
  | _, _, [] => True
  | s, t, call :: calls =>
      Kept s t call ∧
        KeptAlong step mine Kept (step s call).1
          (if mine call then (step t call).1 else t) calls

/-- An unwinding relation for calls that meet a condition. -/
structure UnwindingUnder
    (step : State → Call → State × Output) (mine : Call → Bool)
    (Kept : State → State → Call → Prop) (Alike : State → State → Prop) :
    Prop where
  answer :
    ∀ s t call, Alike s t → Kept s t call → mine call = true →
      (step s call).2 = (step t call).2
  keep :
    ∀ s t call, Alike s t → Kept s t call → mine call = true →
      Alike (step s call).1 (step t call).1
  skip :
    ∀ s t call, Alike s t → Kept s t call → mine call = false →
      Alike (step s call).1 t

structure Unwinding
    (step : State → Call → State × Output) (mine : Call → Bool)
    (Alike : State → State → Prop) : Prop where
  answer :
    ∀ s t call, Alike s t → mine call = true →
      (step s call).2 = (step t call).2
  keep :
    ∀ s t call, Alike s t → mine call = true →
      Alike (step s call).1 (step t call).1
  skip :
    ∀ s t call, Alike s t → mine call = false → Alike (step s call).1 t

variable {step : State → Call → State × Output} {mine : Call → Bool}
  {Alike : State → State → Prop} {Kept : State → State → Call → Prop}

instance decidableKeptAlong
    [kept : ∀ s t call, Decidable (Kept s t call)] :
    (s t : State) → (calls : List Call) →
      Decidable (KeptAlong step mine Kept s t calls)
  | _, _, [] => isTrue trivial
  | s, t, call :: calls =>
      @instDecidableAnd _ _ (kept s t call)
        (decidableKeptAlong (step s call).1
          (if mine call then (step t call).1 else t) calls)

/-- A condition that every call meets is met along every run. -/
theorem keptAlong_of_all
    {calls : List Call} (all : ∀ s t, ∀ call ∈ calls, Kept s t call)
    (s t : State) : KeptAlong step mine Kept s t calls := by
  induction calls generalizing s t with
  | nil =>
      trivial
  | cons call calls hypothesis =>
      refine ⟨all s t call List.mem_cons_self, ?_⟩
      apply hypothesis
      exact fun s t later member =>
        all s t later (List.mem_cons_of_mem call member)

theorem UnwindingUnder.trace
    (unwinding : UnwindingUnder step mine Kept Alike) {s t : State}
    (alike : Alike s t) {calls : List Call}
    (kept : KeptAlong step mine Kept s t calls) :
    (callTrace step s calls).filter (fun entry => mine entry.1) =
      callTrace step t (calls.filter mine) := by
  induction calls generalizing s t with
  | nil =>
      rfl
  | cons call calls hypothesis =>
      obtain ⟨here, later⟩ := kept
      by_cases interest : mine call = true
      · rw [if_pos interest] at later
        have answer := unwinding.answer s t call alike here interest
        have rest :=
          hypothesis (unwinding.keep s t call alike here interest) later
        simp only [callTrace, List.filter_cons, interest, if_true, answer,
          rest]
      · rw [if_neg interest] at later
        have other := eq_false_of_ne_true interest
        have rest :=
          hypothesis (unwinding.skip s t call alike here other) later
        simp only [callTrace, List.filter_cons, if_neg interest, rest]

theorem UnwindingUnder.undisturbedOn
    (unwinding : UnwindingUnder step mine Kept Alike) {s : State}
    (alike : Alike s s) {calls : List Call}
    (kept : KeptAlong step mine Kept s s calls) :
    UndisturbedOn step mine s calls :=
  unwinding.trace alike kept

/-- Without a condition the relation holds along every run. -/
theorem Unwinding.trace
    (unwinding : Unwinding step mine Alike) {s t : State} (alike : Alike s t)
    (calls : List Call) :
    (callTrace step s calls).filter (fun entry => mine entry.1) =
      callTrace step t (calls.filter mine) := by
  have free :
      UnwindingUnder step mine (fun _ _ _ => True) Alike :=
    { answer := fun s t call alike _ => unwinding.answer s t call alike
      keep := fun s t call alike _ => unwinding.keep s t call alike
      skip := fun s t call alike _ => unwinding.skip s t call alike }
  exact free.trace alike (keptAlong_of_all (fun _ _ _ _ => trivial) s t)

theorem Unwinding.undisturbed
    (unwinding : Unwinding step mine Alike) {s : State} (alike : Alike s s) :
    Undisturbed step mine s :=
  fun calls => unwinding.trace alike calls

/-- Calls that are not of interest leave nothing in the trace. -/
theorem filter_callTrace_eq_nil
    (s : State) {calls : List Call} (others : ∀ c ∈ calls, mine c = false) :
    (callTrace step s calls).filter (fun entry => mine entry.1) = [] := by
  induction calls generalizing s with
  | nil =>
      rfl
  | cons call calls hypothesis =>
      have other : ¬ mine call = true := by
        rw [others call List.mem_cons_self]
        exact Bool.false_ne_true
      have rest :=
        hypothesis (step s call).1
          fun c member => others c (List.mem_cons_of_mem call member)
      simp only [callTrace, List.filter_cons, if_neg other, rest]

theorem callTrace_append
    (s : State) (first second : List Call) :
    callTrace step s (first ++ second) =
      callTrace step s first ++
        callTrace step (first.foldl (fun s call => (step s call).1) s)
          second := by
  induction first generalizing s with
  | nil =>
      rfl
  | cons call first hypothesis =>
      simp only [List.cons_append, callTrace, hypothesis, List.foldl_cons]

end

end PqComm.Lib
