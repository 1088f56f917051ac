import Mathlib.Data.List.Induction
import Mathlib.Data.Set.Function

/-!
# Hash chains

A chain absorbs messages one by one: the next value is the hash of the
previous value followed by the message.  When the hash has no collision among
the strings two chains hash, and none of these strings hashes to the seed, the
chains have equal values only when they absorbed the same messages.
-/

namespace PqComm.Lib

variable {α : Type}

/-- The value of the chain after `msgs`. -/
def hashChain (H : List α → List α) (seed : List α)
    (msgs : List (List α)) : List α :=
  msgs.foldl (fun value msg => H (value ++ msg)) seed

/-- The strings the chain hashes on the way. -/
def chainInputs (H : List α → List α) : List α → List (List α) →
    List (List α)
  | _, [] => []
  | value, msg :: rest =>
      (value ++ msg) :: chainInputs H (H (value ++ msg)) rest

section

variable (H : List α → List α) (seed : List α)

@[simp]
theorem hashChain_nil : hashChain H seed [] = seed :=
  rfl

@[simp]
theorem hashChain_concat (msgs : List (List α)) (msg : List α) :
    hashChain H seed (msgs ++ [msg]) =
      H (hashChain H seed msgs ++ msg) := by
  simp [hashChain]

theorem chainInputs_concat (msgs : List (List α)) (msg : List α) :
    chainInputs H seed (msgs ++ [msg]) =
      chainInputs H seed msgs ++ [hashChain H seed msgs ++ msg] := by
  induction msgs generalizing seed with
  | nil =>
      rfl
  | cons head rest inductionHypothesis =>
      rw [List.cons_append, chainInputs, inductionHypothesis, chainInputs,
        List.cons_append]
      rfl

theorem mem_chainInputs_concat
    {msgs : List (List α)} {msg input : List α} :
    input ∈ chainInputs H seed (msgs ++ [msg]) ↔
      input ∈ chainInputs H seed msgs ∨
        input = hashChain H seed msgs ++ msg := by
  simp [chainInputs_concat]

variable {H seed}

theorem length_hashChain
    {n : Nat} (outputs : ∀ input, (H input).length = n)
    (start : seed.length = n) (msgs : List (List α)) :
    (hashChain H seed msgs).length = n := by
  induction msgs using List.reverseRecOn with
  | nil =>
      exact start
  | append_singleton msgs msg _ =>
      rw [hashChain_concat]
      exact outputs _

/-- Two chains that agree in value have absorbed the same messages. -/
theorem hashChain_injective
    {n : Nat} {hashed : Set (List α)}
    (outputs : ∀ input, (H input).length = n)
    (start : seed.length = n)
    (noCollision : Set.InjOn H hashed)
    (noSeed : ∀ input ∈ hashed, H input ≠ seed)
    {left right : List (List α)}
    (leftHashed : ∀ input ∈ chainInputs H seed left, input ∈ hashed)
    (rightHashed : ∀ input ∈ chainInputs H seed right, input ∈ hashed)
    (agree : hashChain H seed left = hashChain H seed right) :
    left = right := by
  induction left using List.reverseRecOn generalizing right with
  | nil =>
      cases right using List.reverseRecOn with
      | nil =>
          rfl
      | append_singleton right msg =>
          rw [hashChain_concat] at agree
          refine absurd agree.symm (noSeed _ (rightHashed _ ?_))
          exact (mem_chainInputs_concat H seed).mpr (Or.inr rfl)
  | append_singleton left leftMsg inductionHypothesis =>
      cases right using List.reverseRecOn with
      | nil =>
          rw [hashChain_concat] at agree
          refine absurd agree (noSeed _ (leftHashed _ ?_))
          exact (mem_chainInputs_concat H seed).mpr (Or.inr rfl)
      | append_singleton right rightMsg =>
          rw [hashChain_concat, hashChain_concat] at agree
          have inputs :
              hashChain H seed left ++ leftMsg =
                hashChain H seed right ++ rightMsg :=
            noCollision
              (leftHashed _ ((mem_chainInputs_concat H seed).mpr (Or.inr rfl)))
              (rightHashed _
                ((mem_chainInputs_concat H seed).mpr (Or.inr rfl)))
              agree
          obtain ⟨values, msgs⟩ := List.append_inj inputs
            ((length_hashChain outputs start left).trans
              (length_hashChain outputs start right).symm)
          rw [msgs,
            inductionHypothesis
              (fun input member => leftHashed input
                ((mem_chainInputs_concat H seed).mpr (Or.inl member)))
              (fun input member => rightHashed input
                ((mem_chainInputs_concat H seed).mpr (Or.inl member)))
              values]

end

end PqComm.Lib
