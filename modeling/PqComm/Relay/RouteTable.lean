import Mathlib.Data.List.Find
import PqComm.Engine.Senders
import PqComm.Lib.ArrayFront
import PqComm.Lib.Runs
import PqComm.Lib.SlotTable

/-!
# The route table as an array

`route_table.c` on the array that it works on, with the flag `valid` and the
hole that a removal fills with the last entry.  The senders of the engine look
at the table as the list of its entries; here that list is the front part of
the array.

What a table is for is a map from node ids to routes with room for
`MAX_ROUTES` of them.  Every sequence of calls refines it.
-/

namespace PqComm

open Lib

/-! ## `route_table.c` -/

/-- What a table knows of a node. -/
structure Route where
  sessionId : UInt64
  addr : Bytes
  addrLen : UInt32
  deriving DecidableEq

/-- `route_entry_t` without its metrics. -/
structure RouteSlot where
  nodeId : UInt64
  sessionId : UInt64
  addr : Bytes
  addrLen : UInt32
  valid : Bool

/-- `route_table_t`. -/
structure RouteTable where
  entries : Nat → RouteSlot
  count : Nat

namespace RouteSlot

def route (e : RouteSlot) : Route :=
  { sessionId := e.sessionId, addr := e.addr, addrLen := e.addrLen }

/-- The assignments that both branches of `route_table_add` make; without an
address that of the entry stays. -/
def assign (e : RouteSlot) (sessionId : UInt64) (addr : Option Bytes)
    (addrLen : UInt32) : RouteSlot :=
  match addr with
  | some addr =>
      { e with sessionId := sessionId, addr := addr, addrLen := addrLen }
  | none => { e with sessionId := sessionId }

/-- The entry as the senders see it. -/
def entry (e : RouteSlot) : RouteEntry :=
  { nodeId := e.nodeId, sessionId := e.sessionId, addr := e.addr
    addrLen := e.addrLen.toNat }

end RouteSlot

namespace RouteTable

/-- `route_table_init`. -/
def init : RouteTable where
  entries := fun _ =>
    { nodeId := 0, sessionId := 0, addr := zeros 28, addrLen := 0
      valid := false }
  count := 0

/-- `route_table_find`: the place that the result points to. -/
def find (rt : RouteTable) (nodeId : UInt64) : Option Nat :=
  (List.range rt.count).find? fun i =>
    (rt.entries i).valid && (rt.entries i).nodeId == nodeId

/-- `route_table_add`. -/
def add (rt : RouteTable) (nodeId sessionId : UInt64) (addr : Option Bytes)
    (addrLen : UInt32) : Int × RouteTable :=
  if nodeId = 0 then
    (-1, rt)
  else
    match rt.find nodeId with
    | some i =>
        (1, { rt with
          entries :=
            writeSlot rt.entries i
              ((rt.entries i).assign sessionId addr addrLen) })
    | none =>
        if rt.count ≥ maxRoutes then
          (-1, rt)
        else
          (0, {
            entries :=
              writeSlot rt.entries rt.count
                { (rt.entries rt.count).assign sessionId addr addrLen with
                  nodeId := nodeId, valid := true }
            count := rt.count + 1 })

/-- The loop of `route_table_remove`, which does not look at `valid`. -/
def place (rt : RouteTable) (nodeId : UInt64) : Option Nat :=
  (List.range rt.count).find? fun i => (rt.entries i).nodeId == nodeId

/-- `route_table_remove`. -/
def remove (rt : RouteTable) (nodeId : UInt64) : Int × RouteTable :=
  match rt.place nodeId with
  | none => (-1, rt)
  | some i =>
      let cleared :=
        writeSlot rt.entries i { rt.entries i with valid := false }
      (0, {
        entries := writeSlot cleared i (cleared (rt.count - 1))
        count := rt.count - 1 })

/-- What the caller of `route_table_find` reads. -/
def lookup (rt : RouteTable) (nodeId : UInt64) : Option Route :=
  (rt.find nodeId).map fun i => (rt.entries i).route

/-- The entries as the senders see them. -/
def live (rt : RouteTable) : List RouteEntry :=
  (front rt.entries rt.count).map RouteSlot.entry

end RouteTable

/-! ## Calls, and the map they refine -/

/-- A call, with an address where one is taken. -/
inductive RouteCall where
  | add (nodeId sessionId : UInt64) (addr : Bytes) (addrLen : UInt32)
  | remove (nodeId : UInt64)
  | find (nodeId : UInt64)

def RouteCall.nodeId : RouteCall → UInt64
  | .add nodeId _ _ _ => nodeId
  | .remove nodeId => nodeId
  | .find nodeId => nodeId

inductive RouteResult where
  | status (code : Int)
  | found (route : Option Route)
  deriving DecidableEq

def RouteTable.call (rt : RouteTable) : RouteCall → RouteResult × RouteTable
  | .add nodeId sessionId addr addrLen =>
      let added := rt.add nodeId sessionId (some addr) addrLen
      (.status added.1, added.2)
  | .remove nodeId =>
      let removed := rt.remove nodeId
      (.status removed.1, removed.2)
  | .find nodeId => (.found (rt.lookup nodeId), rt)

def RouteTable.step (rt : RouteTable) (call : RouteCall) : RouteTable :=
  (rt.call call).2

def RouteTable.results : List RouteCall → List RouteResult :=
  emitted RouteTable.step (fun rt call => [(rt.call call).1]) RouteTable.init

def RouteTable.after (calls : List RouteCall) : RouteTable :=
  calls.foldl RouteTable.step RouteTable.init

/-- What the table is for. -/
abbrev RouteMap := UInt64 → Option Route

namespace RouteMap

noncomputable def call (m : RouteMap) : RouteCall → RouteResult × RouteMap
  | .add nodeId sessionId addr addrLen =>
      let bound :=
        Function.update m nodeId (some { sessionId, addr, addrLen })
      if nodeId = 0 then
        (.status (-1), m)
      else if (m nodeId).isSome then
        (.status 1, bound)
      else if (boundKeys m).ncard < maxRoutes then
        (.status 0, bound)
      else
        (.status (-1), m)
  | .remove nodeId =>
      if (m nodeId).isSome then
        (.status 0, Function.update m nodeId none)
      else
        (.status (-1), m)
  | .find nodeId => (.found (m nodeId), m)

noncomputable def step (m : RouteMap) (call : RouteCall) : RouteMap :=
  (m.call call).2

noncomputable def results : List RouteCall → List RouteResult :=
  emitted step (fun m call => [(m.call call).1]) fun _ => none

noncomputable def after (calls : List RouteCall) : RouteMap :=
  calls.foldl step fun _ => none

end RouteMap

/-! ## The invariant -/

namespace RouteTable

/-- The slots in front of the count, under the ids of their nodes. -/
def slots (rt : RouteTable) (i : Nat) : Option (UInt64 × Route) :=
  if i < rt.count then
    some ((rt.entries i).nodeId, (rt.entries i).route)
  else
    none

/-- What every call keeps between a table and its map. -/
structure Refines (rt : RouteTable) (m : RouteMap) : Prop where
  fits : rt.count ≤ maxRoutes
  valid : ∀ i, i < rt.count → (rt.entries i).valid = true
  named : ∀ i, i < rt.count → (rt.entries i).nodeId ≠ 0
  represents : Represents maxRoutes rt.slots m

section

variable {rt : RouteTable} {m : RouteMap} {nodeId : UInt64}

theorem slots_eq_some_iff {i : Nat} {route : Route} :
    rt.slots i = some (nodeId, route) ↔
      i < rt.count ∧ (rt.entries i).nodeId = nodeId ∧
        (rt.entries i).route = route := by
  rw [slots, Option.ite_none_right_eq_some, Option.some_inj, Prod.mk.injEq]

theorem place_eq_some {i : Nat} (found : rt.place nodeId = some i) :
    i < rt.count ∧ (rt.entries i).nodeId = nodeId := by
  have test : ((rt.entries i).nodeId == nodeId) = true :=
    List.find?_some (p := fun j => (rt.entries j).nodeId == nodeId) found
  exact ⟨List.mem_range.mp (List.mem_of_find?_eq_some found),
    beq_iff_eq.mp test⟩

theorem place_eq_none (missing : rt.place nodeId = none) :
    ∀ i, i < rt.count → (rt.entries i).nodeId ≠ nodeId := by
  intro i inside same
  refine List.find?_eq_none.mp missing i (List.mem_range.mpr inside) ?_
  exact beq_iff_eq.mpr same

/-- Where every entry is valid, both loops stop at the same place. -/
theorem Refines.find_eq_place (refines : Refines rt m) :
    rt.find nodeId = rt.place nodeId := by
  refine List.find?_congr fun i member => ?_
  rw [refines.valid i (List.mem_range.mp member), Bool.true_and]

theorem Refines.isSome_iff (refines : Refines rt m) (nodeId : UInt64) :
    (m nodeId).isSome = (rt.place nodeId).isSome := by
  rcases found : rt.place nodeId with _ | i
  · rw [refines.represents.eq_none fun i route _ taken => ?_]
    · rfl
    · obtain ⟨inside, same, _⟩ := slots_eq_some_iff.mp taken
      exact place_eq_none found i inside same
  · obtain ⟨inside, same⟩ := place_eq_some found
    exact refines.represents.isSome_of_slot (inside.trans_le refines.fits)
      (slots_eq_some_iff.mpr ⟨inside, same, rfl⟩)

theorem Refines.lookup_eq (refines : Refines rt m) (nodeId : UInt64) :
    rt.lookup nodeId = m nodeId := by
  rw [lookup, refines.find_eq_place]
  rcases found : rt.place nodeId with _ | i
  · have absent := refines.isSome_iff nodeId
    rw [found, Option.isSome_none, Option.isSome_eq_false_iff] at absent
    rw [Option.isNone_iff_eq_none.mp absent]
    rfl
  · obtain ⟨inside, same⟩ := place_eq_some found
    exact ((refines.represents.binds nodeId _).mpr
      ⟨i, inside.trans_le refines.fits,
        slots_eq_some_iff.mpr ⟨inside, same, rfl⟩⟩).symm

/-- No two entries are for one node. -/
theorem Refines.distinct
    (refines : Refines rt m) {i j : Nat} (left : i < rt.count)
    (right : j < rt.count)
    (same : (rt.entries i).nodeId = (rt.entries j).nodeId) : i = j :=
  refines.represents.apart i j _ (rt.entries i).route (rt.entries j).route
    (left.trans_le refines.fits) (right.trans_le refines.fits)
    (slots_eq_some_iff.mpr ⟨left, rfl, rfl⟩)
    (slots_eq_some_iff.mpr ⟨right, same.symm, rfl⟩)

/-- There are as many bindings as entries. -/
theorem Refines.ncard_eq (refines : Refines rt m) :
    (boundKeys m).ncard = rt.count := by
  have taken :
      ((Finset.range maxRoutes).filter fun i => (rt.slots i).isSome) =
        Finset.range rt.count := by
    ext i
    have fits := refines.fits
    rw [Finset.mem_filter, Finset.mem_range, Finset.mem_range, slots]
    split
    · exact ⟨fun _ => ‹_›, fun inside => ⟨inside.trans_le fits, rfl⟩⟩
    · exact ⟨fun both => (Bool.false_ne_true both.2).elim,
        fun inside => (‹¬ _› inside).elim⟩
  rw [refines.represents.ncard_boundKeys, taken, Finset.card_range]

theorem refines_init : Refines init fun _ => none where
  fits := Nat.zero_le _
  valid := fun _ inside => (Nat.not_lt_zero _ inside).elim
  named := fun _ inside => (Nat.not_lt_zero _ inside).elim
  represents :=
    Represents.empty fun _ _ => if_neg (Nat.not_lt_zero _)

/-! ## Adding -/

/-- A valid entry is written at the end, or over the entry of its node. -/
theorem Refines.write
    (refines : Refines rt m) {i count : Nat} {e : RouteSlot}
    (valid : e.valid = true) (named : e.nodeId ≠ 0)
    (counted : ∀ j, j < count ↔ j < rt.count ∨ j = i)
    (fits : count ≤ maxRoutes)
    (only : ∀ j, j < rt.count → (rt.entries j).nodeId = e.nodeId → j = i)
    (own : i < rt.count → (rt.entries i).nodeId = e.nodeId) :
    Refines { entries := writeSlot rt.entries i e, count := count }
      (Function.update m e.nodeId (some e.route)) := by
  have before {j : Nat} (inside : j < count) (apart : j ≠ i) :
      j < rt.count :=
    ((counted j).mp inside).resolve_right apart
  have written :
      slots { entries := writeSlot rt.entries i e, count := count } =
        writeSlot rt.slots i (some (e.nodeId, e.route)) := by
    funext j
    by_cases here : j = i
    · rw [here, slots, if_pos ((counted i).mpr (Or.inr rfl))]
      simp only [writeSlot, if_pos]
    · have same : j < count ↔ j < rt.count := by
        rw [counted j]
        exact or_iff_left here
      simp only [slots, writeSlot, if_neg here, same]
  constructor
  · exact fits
  · intro j inside
    change (if j = i then e else rt.entries j).valid = true
    split
    · exact valid
    · exact refines.valid j (before inside ‹_›)
  · intro j inside
    change (if j = i then e else rt.entries j).nodeId ≠ 0
    split
    · exact named
    · exact refines.named j (before inside ‹_›)
  · rw [written]
    refine refines.represents.store
      (((counted i).mpr (Or.inr rfl)).trans_le fits) ?_ ?_ e.route
    · intro j route _ taken
      obtain ⟨inside, same, _⟩ := slots_eq_some_iff.mp taken
      exact only j inside same
    · intro k route taken
      obtain ⟨inside, same, _⟩ := slots_eq_some_iff.mp taken
      rw [← same, own inside]

theorem Refines.add
    (refines : Refines rt m) (nodeId sessionId : UInt64) (addr : Bytes)
    (addrLen : UInt32) :
    Refines (rt.step (.add nodeId sessionId addr addrLen))
        (m.step (.add nodeId sessionId addr addrLen)) ∧
      (rt.call (.add nodeId sessionId addr addrLen)).1 =
        (m.call (.add nodeId sessionId addr addrLen)).1 := by
  have known := refines.isSome_iff nodeId
  let e : RouteSlot := { nodeId, sessionId, addr, addrLen, valid := true }
  simp only [step, RouteMap.step, call, RouteMap.call, RouteTable.add,
    refines.find_eq_place, refines.ncard_eq]
  by_cases zero : nodeId = 0
  · rw [if_pos zero, if_pos zero]
    exact ⟨refines, rfl⟩
  · rw [if_neg zero, if_neg zero]
    rcases found : rt.place nodeId with _ | i
    · rw [found] at known
      by_cases room : rt.count < maxRoutes
      · simp only [known, Option.isSome_none, Bool.false_eq_true, if_false,
          if_pos room, if_neg (Nat.not_le.mpr room), ge_iff_le]
        refine ⟨?_, trivial⟩
        refine refines.write (e := e) rfl zero (fun j => ?_) room
          (fun j inside same => ?_) (fun inside => ?_)
        · omega
        · exact (place_eq_none found j inside same).elim
        · exact (Nat.lt_irrefl _ inside).elim
      · simp only [known, Option.isSome_none, Bool.false_eq_true, if_false,
          if_neg room, if_pos (Nat.not_lt.mp room), ge_iff_le]
        exact ⟨refines, trivial⟩
    · obtain ⟨inside, same⟩ := place_eq_some found
      rw [found] at known
      simp only [known, Option.isSome_some, if_true]
      refine ⟨?_, trivial⟩
      have slot :
          (rt.entries i).assign sessionId (some addr) addrLen = e := by
        simp only [RouteSlot.assign, same, refines.valid i inside, e]
      rw [slot]
      refine refines.write (e := e) rfl zero (fun j => ?_) refines.fits
        (fun j below other => ?_) (fun _ => same)
      · omega
      · exact refines.distinct below inside (other.trans same.symm)

/-! ## Removing -/

/-- The table that `route_table_remove` leaves: the last entry is where the
removed one was. -/
theorem remove_entries
    {i j : Nat} (found : rt.place nodeId = some i)
    (inside : j < rt.count - 1) :
    (rt.remove nodeId).2.entries j =
      rt.entries (if j = i then rt.count - 1 else j) := by
  simp only [remove, found, writeSlot]
  by_cases here : j = i
  · rw [if_pos here, if_pos here, if_neg (by omega)]
  · rw [if_neg here, if_neg here, if_neg here]

theorem remove_count
    {i : Nat} (found : rt.place nodeId = some i) :
    (rt.remove nodeId).2.count = rt.count - 1 := by
  simp only [remove, found]

theorem remove_slots
    {i : Nat} (found : rt.place nodeId = some i) :
    (rt.remove nodeId).2.slots =
      writeSlot
        (writeSlot (writeSlot rt.slots i none) i
          (writeSlot rt.slots i none (rt.count - 1)))
        (rt.count - 1) none := by
  have inside := (place_eq_some found).1
  funext j
  rw [slots, remove_count found]
  by_cases below : j < rt.count - 1
  · rw [if_pos below, remove_entries found below]
    simp only [writeSlot]
    rw [if_neg (Nat.ne_of_lt below)]
    by_cases here : j = i
    · rw [if_pos here, if_pos here, if_neg (by omega), slots,
        if_pos (by omega)]
    · rw [if_neg here, if_neg here, if_neg here, slots, if_pos (by omega)]
  · rw [if_neg below]
    simp only [writeSlot]
    by_cases last : j = rt.count - 1
    · rw [if_pos last]
    · rw [if_neg last, if_neg (by omega), if_neg (by omega), slots,
        if_neg (by omega)]

theorem Refines.remove (refines : Refines rt m) (nodeId : UInt64) :
    Refines (rt.step (.remove nodeId)) (m.step (.remove nodeId)) ∧
      (rt.call (.remove nodeId)).1 = (m.call (.remove nodeId)).1 := by
  have known := refines.isSome_iff nodeId
  rcases found : rt.place nodeId with _ | i
  · rw [found] at known
    simp only [step, RouteMap.step, call, RouteMap.call, RouteTable.remove,
      found, known, Option.isSome_none, Bool.false_eq_true, if_false]
    exact ⟨refines, trivial⟩
  · obtain ⟨inside, same⟩ := place_eq_some found
    have fits := refines.fits
    rw [found] at known
    have code : (rt.remove nodeId).1 = 0 := by
      simp only [RouteTable.remove, found]
    simp only [step, RouteMap.step, call, RouteMap.call, code, known,
      Option.isSome_some, if_true]
    refine ⟨⟨?_, ?_, ?_, ?_⟩, trivial⟩
    · rw [remove_count found]
      omega
    · intro j below
      rw [remove_count found] at below
      rw [remove_entries found below]
      refine refines.valid _ ?_
      split <;> omega
    · intro j below
      rw [remove_count found] at below
      rw [remove_entries found below]
      refine refines.named _ ?_
      split <;> omega
    · rw [remove_slots found]
      have vacated :=
        refines.represents.free (inside.trans_le fits)
          (slots_eq_some_iff.mpr ⟨inside, same, rfl⟩)
      exact vacated.move (by omega) (inside.trans_le fits) (if_pos rfl)

/-! ## Every sequence of calls -/

theorem Refines.call
    (refines : Refines rt m) (call : RouteCall) :
    Refines (rt.step call) (m.step call) ∧
      (rt.call call).1 = (m.call call).1 := by
  cases call with
  | add nodeId sessionId addr addrLen =>
      exact refines.add nodeId sessionId addr addrLen
  | remove nodeId =>
      exact refines.remove nodeId
  | find nodeId =>
      refine ⟨refines, ?_⟩
      rw [RouteTable.call, RouteMap.call, refines.lookup_eq]

theorem refines_after (calls : List RouteCall) :
    Refines (after calls) (RouteMap.after calls) ∧
      results calls = RouteMap.results calls := by
  refine simulation_run (fun _ => True) ?_ refines_init
    fun _ _ => trivial
  intro rt m call _ refines
  obtain ⟨next, same⟩ := refines.call call
  exact ⟨next, by rw [same]⟩

/-- A call that fails leaves the table as it is. -/
theorem step_of_failed
    {call : RouteCall} (failed : (rt.call call).1 = .status (-1)) :
    rt.step call = rt := by
  cases call with
  | add nodeId sessionId addr addrLen =>
      simp only [RouteTable.call, RouteResult.status.injEq] at failed
      simp only [step, RouteTable.call]
      unfold RouteTable.add at failed ⊢
      split
      · rfl
      · rename_i named
        rw [if_neg named] at failed
        split at failed
        · cases failed
        · split at failed
          · rename_i full
            rw [if_pos full]
          · cases failed
  | remove nodeId =>
      simp only [RouteTable.call, RouteResult.status.injEq] at failed
      simp only [step, RouteTable.call]
      unfold RouteTable.remove at failed ⊢
      split at failed
      · rfl
      · cases failed
  | find nodeId =>
      rfl

end

end RouteTable

/-- A call changes the binding of its own node at most. -/
theorem RouteMap.step_of_ne
    (m : RouteMap) {call : RouteCall} {nodeId : UInt64}
    (other : nodeId ≠ call.nodeId) : m.step call nodeId = m nodeId := by
  cases call with
  | add id sessionId addr addrLen =>
      rw [RouteMap.step, RouteMap.call]
      split
      · rfl
      · split
        · exact Function.update_of_ne other _ _
        · split
          · exact Function.update_of_ne other _ _
          · rfl
  | remove id =>
      rw [RouteMap.step, RouteMap.call]
      split
      · exact Function.update_of_ne other _ _
      · rfl
  | find id =>
      rfl

/-- Every sequence of calls on a new table returns what a map with room for
`MAX_ROUTES` nodes returns.  The entries of the table are the bindings of that
map, under ids that are distinct and not zero, and `route_table_find` reads
them.  A further call that fails changes nothing, and no call changes the
binding of a node that it is not about. -/
theorem route_table_refines_map (calls : List RouteCall) :
    RouteTable.results calls = RouteMap.results calls ∧
      (RouteTable.after calls).Refines (RouteMap.after calls) ∧
      RouteMap.after calls 0 = none ∧
      (boundKeys (RouteMap.after calls)).ncard =
        (RouteTable.after calls).count ∧
      (∀ nodeId,
        (RouteTable.after calls).lookup nodeId =
          RouteMap.after calls nodeId) ∧
      ∀ call,
        (((RouteTable.after calls).call call).1 = .status (-1) →
            (RouteTable.after calls).step call = RouteTable.after calls) ∧
          ∀ nodeId, nodeId ≠ call.nodeId →
            ((RouteTable.after calls).step call).lookup nodeId =
              (RouteTable.after calls).lookup nodeId := by
  obtain ⟨refines, same⟩ := RouteTable.refines_after calls
  refine ⟨same, refines, ?_, refines.ncard_eq, refines.lookup_eq,
    fun call => ⟨RouteTable.step_of_failed, fun nodeId other => ?_⟩⟩
  · refine refines.represents.eq_none fun i route _ taken => ?_
    obtain ⟨inside, zero, _⟩ := RouteTable.slots_eq_some_iff.mp taken
    exact refines.named i inside zero
  · rw [(refines.call call).1.lookup_eq, refines.lookup_eq,
      RouteMap.step_of_ne _ other]

/-! ## The list of the senders -/

namespace RouteTable.Refines

variable {rt : RouteTable} {m : RouteMap}

theorem routeTableFind_live (refines : Refines rt m) (nodeId : UInt64) :
    routeTableFind rt.live nodeId =
      (rt.find nodeId).map fun i => (rt.entries i).entry := by
  rw [routeTableFind, live, List.find?_map, find?_front,
    refines.find_eq_place, Option.map_map]
  rfl

theorem routeTableAdd_live
    (refines : Refines rt m) (nodeId sessionId : UInt64) (addr : Bytes)
    (addrLen : UInt32) :
    routeTableAdd rt.live nodeId sessionId addr addrLen.toNat =
      ((rt.add nodeId sessionId (some addr) addrLen).1,
        (rt.add nodeId sessionId (some addr) addrLen).2.live) := by
  have place :
      (rt.live.findIdx? fun entry => entry.nodeId == nodeId) =
        rt.find nodeId := by
    rw [live, List.findIdx?_map, findIdx?_front, refines.find_eq_place]
    rfl
  have length : rt.live.length = rt.count := by
    rw [live, List.length_map, length_front]
  rw [routeTableAdd, place, length, RouteTable.add]
  split
  · rfl
  · rcases found : rt.find nodeId with _ | i
    · by_cases full : rt.count ≥ maxRoutes
      · simp only [if_pos full]
      · simp only [if_neg full, live, front_push, List.map_append]
        rfl
    · rw [refines.find_eq_place] at found
      simp only [live, front_write, List.map_set, RouteSlot.assign,
        RouteSlot.entry, (place_eq_some found).2]

end RouteTable.Refines

/-- Where the table binds a node, the senders find its entry. -/
theorem RouteTable.route_of_lookup
    {calls : List RouteCall} {nodeId : UInt64} {route : Route}
    (bound : (after calls).lookup nodeId = some route) :
    ∃ entry,
      routeTableFind (after calls).live nodeId = some entry ∧
        nodeId ≠ relayNodeIdUnknown := by
  have refines := (refines_after calls).1
  obtain ⟨i, found, _⟩ := Option.map_eq_some_iff.mp bound
  refine ⟨((after calls).entries i).entry, ?_, ?_⟩
  · rw [refines.routeTableFind_live, found]
    rfl
  · rw [refines.find_eq_place] at found
    obtain ⟨inside, same⟩ := place_eq_some found
    rw [← same]
    exact refines.named i inside

end PqComm
