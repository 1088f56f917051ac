import Mathlib.Data.List.Basic
import Mathlib.Data.List.Induction

/-!
# Rosters

A roster takes in everyone who joins while there is room, in the order of
joining, and nobody leaves it.  An act may change the entries that are there.
Who is listed depends on the joins alone, and what is recorded about somebody
on what has happened since the first act that let him in.
-/

namespace PqComm.Lib

universe u v w

/-- Who joins by an act, what is recorded about a new entry, and what the act
does to an entry that is there. -/
structure Roster (Key : Type u) (Info : Type v) (Act : Type w) where
  joins : Act → Option Key
  fresh : Act → Info
  touch : Act → Key → Info → Info

theorem eraseDups_append_singleton
    {Key : Type u} [BEq Key] [LawfulBEq Key] (keys : List Key) (key : Key) :
    (keys ++ [key]).eraseDups =
      if key ∈ keys then keys.eraseDups else keys.eraseDups ++ [key] := by
  rw [List.eraseDups_append]
  by_cases member : key ∈ keys
  · simp [List.removeAll, member]
  · simp [List.removeAll, member, List.eraseDups_cons]

/-- Change what is recorded about one key. -/
def atKey {Key : Type u} {Info : Type v} [DecidableEq Key] (key : Key)
    (change : Info → Info) (entries : List (Key × Info)) :
    List (Key × Info) :=
  entries.map fun e => (e.1, if e.1 = key then change e.2 else e.2)

section

variable {Key : Type u} {Info : Type v} [DecidableEq Key] {key : Key}
  {change next : Info → Info} {entries : List (Key × Info)}

theorem atKey_atKey :
    atKey key next (atKey key change entries) =
      atKey key (next ∘ change) entries := by
  unfold atKey
  rw [List.map_map]
  refine List.map_congr_left fun e _ => ?_
  dsimp only [Function.comp_apply]
  split
  · rfl
  · rfl

theorem atKey_absent (absent : key ∉ entries.map Prod.fst) :
    atKey key change entries = entries := by
  have same : ∀ e ∈ entries,
      (e.1, if e.1 = key then change e.2 else e.2) = e := by
    intro e member
    have other : e.1 ≠ key :=
      fun is => absent (List.mem_map.mpr ⟨e, member, is⟩)
    rw [if_neg other]
  exact (List.map_congr_left same).trans (List.map_id entries)

theorem atKey_append_self (info : Info)
    (absent : key ∉ entries.map Prod.fst) :
    atKey key change (entries ++ [(key, info)]) =
      entries ++ [(key, change info)] := by
  have front : atKey key change (entries ++ [(key, info)]) =
      atKey key change entries ++ atKey key change [(key, info)] :=
    List.map_append
  rw [front, atKey_absent absent]
  unfold atKey
  rw [List.map_singleton, if_pos rfl]

end

namespace Roster

variable {Key : Type u} {Info : Type v} {Act : Type w}

variable [DecidableEq Key] (R : Roster Key Info Act) (capacity : Nat)

/-- One act on the list of entries. -/
def step (entries : List (Key × Info)) (act : Act) : List (Key × Info) :=
  let touched := entries.map fun e => (e.1, R.touch act e.1 e.2)
  match R.joins act with
  | none => touched
  | some key =>
      if key ∈ entries.map Prod.fst ∨ capacity ≤ entries.length then touched
      else touched ++ [(key, R.fresh act)]

/-- The roster after some acts. -/
def run (acts : List Act) : List (Key × Info) :=
  acts.foldl (R.step capacity) []

/-- What is recorded about one key. -/
def life (key : Key) : Option Info → Act → Option Info
  | none, act => if R.joins act = some key then some (R.fresh act) else none
  | some info, act => some (R.touch act key info)

variable {R capacity} {acts : List Act}

theorem run_append (act : Act) :
    R.run capacity (acts ++ [act]) =
      R.step capacity (R.run capacity acts) act := by
  unfold run
  rw [List.foldl_append]
  rfl

theorem keys_step (entries : List (Key × Info)) (act : Act) :
    (R.step capacity entries act).map Prod.fst =
      match R.joins act with
      | none => entries.map Prod.fst
      | some key =>
          if key ∈ entries.map Prod.fst ∨ capacity ≤ entries.length then
            entries.map Prod.fst
          else
            entries.map Prod.fst ++ [key] := by
  have touched :
      (entries.map fun e => (e.1, R.touch act e.1 e.2)).map Prod.fst =
        entries.map Prod.fst := by
    rw [List.map_map]
    rfl
  unfold step
  dsimp only
  cases R.joins act with
  | none =>
      exact touched
  | some key =>
      dsimp only
      split
      · exact touched
      · rw [List.map_append, touched]
        rfl

/-- The first to join, as far as there is room. -/
theorem keys_run [BEq Key] [LawfulBEq Key] (acts : List Act) :
    (R.run capacity acts).map Prod.fst =
      ((acts.filterMap R.joins).eraseDups).take capacity := by
  induction acts using List.reverseRecOn with
  | nil =>
      simp [run]
  | append_singleton acts act inductionHypothesis =>
      have length := congrArg List.length inductionHypothesis
      rw [List.length_map, List.length_take] at length
      rw [run_append, keys_step, List.filterMap_append]
      cases joins : R.joins act with
      | none =>
          rw [List.filterMap_cons_none joins, List.filterMap_nil,
            List.append_nil]
          exact inductionHypothesis
      | some key =>
          rw [List.filterMap_cons_some joins, List.filterMap_nil,
            eraseDups_append_singleton, inductionHypothesis]
          dsimp only
          by_cases known : key ∈ acts.filterMap R.joins
          · rw [if_pos known]
            split
            · rfl
            · rename_i hasRoom
              -- with room left, whoever has joined is listed
              have room : (acts.filterMap R.joins).eraseDups.length ≤
                  capacity := by
                omega
              rw [List.take_of_length_le room, List.mem_eraseDups] at hasRoom
              exact absurd (Or.inl known) hasRoom
          · rw [if_neg known]
            split
            · rename_i shut
              have full : capacity ≤
                  (acts.filterMap R.joins).eraseDups.length := by
                rcases shut with listed | full
                · have member := List.mem_of_mem_take listed
                  rw [List.mem_eraseDups] at member
                  exact absurd member known
                · omega
              rw [List.take_append_of_le_length full]
            · rename_i hasRoom
              have room : (acts.filterMap R.joins).eraseDups.length <
                  capacity := by
                omega
              rw [List.take_of_length_le (Nat.le_of_lt room),
                List.take_of_length_le]
              rw [List.length_append]
              exact room

theorem life_none
    {key : Key} (absent : key ∉ acts.filterMap R.joins) :
    acts.foldl (R.life key) none = none := by
  induction acts with
  | nil =>
      rfl
  | cons act rest inductionHypothesis =>
      rw [List.mem_filterMap] at absent
      have here : R.joins act ≠ some key :=
        fun joins => absent ⟨act, List.mem_cons_self, joins⟩
      have later : key ∉ rest.filterMap R.joins := by
        intro member
        rcases List.mem_filterMap.mp member with ⟨other, inside, joins⟩
        exact absent ⟨other, List.mem_cons_of_mem _ inside, joins⟩
      rw [List.foldl_cons, life, if_neg here]
      exact inductionHypothesis later

/-- Every entry has led its own life. -/
theorem life_of_mem
    {key : Key} {info : Info} (member : (key, info) ∈ R.run capacity acts) :
    acts.foldl (R.life key) none = some info := by
  induction acts using List.reverseRecOn generalizing info with
  | nil =>
      cases member
  | append_singleton acts act inductionHypothesis =>
      have touched (inside : (key, info) ∈
          (R.run capacity acts).map fun e =>
            (e.1, R.touch act e.1 e.2)) :
          (acts ++ [act]).foldl (R.life key) none = some info := by
        rcases List.mem_map.mp inside with ⟨⟨name, before⟩, old, same⟩
        cases same
        rw [List.foldl_append, inductionHypothesis old]
        rfl
      rw [run_append] at member
      unfold step at member
      dsimp only at member
      cases joins : R.joins act with
      | none =>
          rw [joins] at member
          exact touched member
      | some name =>
          rw [joins] at member
          dsimp only at member
          split at member
          · exact touched member
          · rename_i hasRoom
            rcases List.mem_append.mp member with old | new
            · exact touched old
            · cases List.mem_singleton.mp new
              have keys : (R.run capacity acts).map Prod.fst =
                  ((acts.filterMap R.joins).eraseDups).take capacity :=
                keys_run acts
              have length := congrArg List.length keys
              rw [List.length_map, List.length_take] at length
              have absent : key ∉ acts.filterMap R.joins := by
                intro joined
                apply hasRoom
                by_cases room : (acts.filterMap R.joins).eraseDups.length ≤
                    capacity
                · left
                  rw [keys, List.take_of_length_le room,
                    List.mem_eraseDups]
                  exact joined
                · right
                  omega
              rw [List.foldl_append, life_none absent]
              exact if_pos joins

/-- Acts that do not concern a key may be left out of its life. -/
theorem life_filter
    {key : Key} (concerns : Act → Bool)
    (silent : ∀ act, concerns act = false →
      R.joins act ≠ some key ∧ ∀ info, R.touch act key info = info)
    (start : Option Info) (acts : List Act) :
    (acts.filter concerns).foldl (R.life key) start =
      acts.foldl (R.life key) start := by
  induction acts generalizing start with
  | nil =>
      rfl
  | cons act rest inductionHypothesis =>
      rw [List.foldl_cons]
      cases about : concerns act with
      | true =>
          rw [List.filter_cons_of_pos about, List.foldl_cons]
          exact inductionHypothesis _
      | false =>
          obtain ⟨stranger, still⟩ := silent act about
          have same : R.life key start act = start := by
            cases start with
            | none =>
                exact if_neg stranger
            | some info =>
                exact congrArg some (still info)
          rw [List.filter_cons_of_neg (by simp [about]), same]
          exact inductionHypothesis start

end Roster

end PqComm.Lib
