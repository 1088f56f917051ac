import Mathlib.Data.List.Chain

/-!
# What is seen of a run

A machine takes acts one after another.  `observed` is a view of every state
that it passes through, and `emitted` what its steps give out.  A relation
holds along the view exactly when every step keeps it, and a machine simulates
its model along a run when it does so in every step.
-/

namespace PqComm.Lib

universe u v w x

variable {State : Type u} {Act : Type v} {Seen : Type w}

/-- What holds at every place of a list holds at the first place and at every
place of the rest. -/
theorem forall_split_cons
    {first : Act} {rest : List Act} {P : List Act → Act → Prop} :
    (∀ before act after, first :: rest = before ++ act :: after →
        P before act) ↔
      P [] first ∧
        ∀ before act after, rest = before ++ act :: after →
          P (first :: before) act := by
  constructor
  · intro all
    refine ⟨all [] first rest rfl, fun before act after split => ?_⟩
    exact all (first :: before) act after (by rw [split, List.cons_append])
  · intro both before act after split
    cases before with
    | nil =>
        rw [List.nil_append] at split
        injection split with head
        rw [← head]
        exact both.1
    | cons head before =>
        rw [List.cons_append] at split
        injection split with same tail
        rw [← same]
        exact both.2 before act after tail

theorem forall_split_nil {P : List Act → Act → Prop} :
    ∀ before act after, [] = before ++ act :: after → P before act := by
  intro before act after split
  cases before <;> cases split

/-- The places of a list by their number. -/
theorem forall_split_iff_take
    {acts : List Act} {P : List Act → Act → Prop} :
    (∀ before act after, acts = before ++ act :: after → P before act) ↔
      ∀ k (inside : k < acts.length), P (acts.take k) acts[k] := by
  constructor
  · intro all k inside
    refine all (acts.take k) acts[k] (acts.drop (k + 1)) ?_
    rw [List.getElem_cons_drop, List.take_append_drop]
  · intro all before act after split
    have inside : before.length < acts.length := by
      rw [split, List.length_append, List.length_cons]
      omega
    have placed := all before.length inside
    simp only [split, List.take_left', List.getElem_append_right,
      Nat.le_refl, Nat.sub_self, List.getElem_cons_zero] at placed
    exact placed

/-- The states of a run as they are seen, from the first to the last. -/
def observed (step : State → Act → State) (view : State → Seen) :
    State → List Act → List Seen
  | s, [] => [view s]
  | s, act :: rest => view s :: observed step view (step s act) rest

/-- What the steps of a run give out. -/
def emitted (step : State → Act → State) (out : State → Act → List Seen) :
    State → List Act → List Seen
  | _, [] => []
  | s, act :: rest => out s act ++ emitted step out (step s act) rest

section

variable {step : State → Act → State} {view : State → Seen}

theorem observed_eq_cons (s : State) (acts : List Act) :
    ∃ rest, observed step view s acts = view s :: rest := by
  cases acts with
  | nil => exact ⟨_, rfl⟩
  | cons act rest => exact ⟨_, rfl⟩

theorem isChain_observed_iff
    {R : Seen → Seen → Prop} (s : State) (acts : List Act) :
    (observed step view s acts).IsChain R ↔
      ∀ before act after, acts = before ++ act :: after →
        R (view (before.foldl step s))
          (view (step (before.foldl step s) act)) := by
  induction acts generalizing s with
  | nil =>
      exact iff_of_true (List.isChain_singleton _) forall_split_nil
  | cons act rest inductionHypothesis =>
      obtain ⟨later, shape⟩ :
          ∃ later, observed step view (step s act) rest =
            view (step s act) :: later :=
        observed_eq_cons (step s act) rest
      have tail := inductionHypothesis (step s act)
      rw [shape] at tail
      rw [observed, shape, List.isChain_cons_cons, tail, forall_split_cons]
      rfl

end

section

variable {Model : Type x} {step : State → Act → State}
  {out : State → Act → List Seen} {modelStep : Model → Act → Model}
  {modelOut : Model → Act → List Seen} {R : State → Model → Prop}

/-- When every admitted act keeps the relation of a machine to its model and
both give out the same, then so does every run of admitted acts. -/
theorem simulation_run
    (admitted : Act → Prop)
    (kept :
      ∀ s m act, admitted act → R s m →
        R (step s act) (modelStep m act) ∧ out s act = modelOut m act)
    {s : State} {m : Model} (related : R s m) {acts : List Act}
    (all : ∀ act ∈ acts, admitted act) :
    R (acts.foldl step s) (acts.foldl modelStep m) ∧
      emitted step out s acts = emitted modelStep modelOut m acts := by
  induction acts generalizing s m with
  | nil =>
      exact ⟨related, rfl⟩
  | cons act rest inductionHypothesis =>
      rw [List.forall_mem_cons] at all
      obtain ⟨next, same⟩ := kept s m act all.1 related
      have later := inductionHypothesis next all.2
      rw [emitted, emitted, same, later.2]
      exact ⟨later.1, rfl⟩

end

end PqComm.Lib
