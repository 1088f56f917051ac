import Mathlib.Data.List.Find
import PqComm.Group.Rooms

/-!
# The group store refines its rooms

One lemma says what a call does within a room, another what it does to the
array of rooms.  The invariant is that the active rooms are the bindings of
the map, with what they show of each.
-/

namespace PqComm

open Lib

/-! ## Within a room -/

theorem snprintfText_eq {size : Nat} {text : Bytes}
    (fits : text.length < size) : snprintfText size text = text :=
  List.take_of_length_le (by omega)

/-- Nobody is in a room twice, and the room holds them all. -/
structure RoomLog.Sound (r : RoomLog) : Prop where
  nodup : r.members.Nodup
  fits : r.members.length ≤ groupMaxMembers

/-- A room that shows what the log shows still does so after the act, and both
return the same.  An error changes nothing. -/
structure RoomAct (act : GroupRoom → Int × GroupRoom)
    (model : RoomLog → Int × RoomLog) : Prop where
  kept :
    ∀ room, (act room).2.name = room.name ∧
      (act room).2.active = room.active
  failed : ∀ room, (act room).1 < 0 → (act room).2 = room
  simulates :
    ∀ room r, r.Sound → room.view = r.view →
      (act room).1 = (model r).1 ∧ (act room).2.view = (model r).2.view ∧
        (model r).2.Sound

section

variable {room : GroupRoom} {r : RoomLog} {addr : Bytes} {port : UInt16}

theorem GroupRoom.view_members (room : GroupRoom) :
    room.view.members =
      (front room.members room.memberCount).map fun m => (m.addr, m.port) :=
  rfl

theorem GroupRoom.view_messages (room : GroupRoom) :
    room.view.messages =
      (front room.messages room.msgCount).map fun m => (m.sender, m.text) :=
  rfl

theorem GroupRoom.memberAt_eq (room : GroupRoom) :
    room.memberAt addr port = room.view.members.idxOf? (addr, port) := by
  rw [view, List.idxOf?, List.findIdx?_map, findIdx?_front]
  rfl

theorem GroupRoom.length_members (room : GroupRoom) :
    room.view.members.length = room.memberCount := by
  rw [view, List.length_map, length_front]

theorem GroupRoom.length_messages (room : GroupRoom) :
    room.view.messages.length = room.msgCount := by
  rw [view, List.length_map, length_front]

theorem roomAct_join (username : Option Bytes) (fits : addr.length ≤ 63) :
    RoomAct (fun room => room.join addr port username)
      fun r => r.join (addr, port) := by
  constructor
  · intro room
    unfold GroupRoom.join
    split
    · exact ⟨rfl, rfl⟩
    · split
      · exact ⟨rfl, rfl⟩
      · exact ⟨rfl, rfl⟩
  · intro room negative
    unfold GroupRoom.join at negative ⊢
    split
    · rfl
    · rename_i absent
      rw [absent] at negative
      split
      · rfl
      · rename_i space
        simp only [if_neg space] at negative
        exact absurd negative (by decide)
  · intro room r sound same
    have members : room.view.members = r.members :=
      congrArg RoomView.members same
    have count := room.length_members
    rw [members] at count
    rw [GroupRoom.join, RoomLog.join, room.memberAt_eq, members]
    by_cases present : (addr, port) ∈ r.members
    · obtain ⟨i, found⟩ : ∃ i, r.members.idxOf? (addr, port) = some i := by
        rw [← Option.isSome_iff_exists, List.isSome_idxOf?]
        exact present
      rw [found, if_pos present]
      exact ⟨rfl, same, sound⟩
    · rw [List.idxOf?_eq_none_iff.mpr present, if_neg present]
      by_cases space : r.members.length < groupMaxMembers
      · rw [if_pos space]
        simp only [ge_iff_le, if_neg (Nat.not_le.mpr (count ▸ space))]
        refine ⟨trivial, ?_, ?_, ?_⟩
        · rw [GroupRoom.view, RoomLog.view, RoomView.mk.injEq]
          refine ⟨?_, congrArg RoomView.messages same⟩
          rw [front_push, List.map_append, ← GroupRoom.view_members, members,
            snprintfText_eq (by omega)]
          rfl
        · refine List.nodup_append.mpr
            ⟨sound.nodup, List.nodup_singleton _, ?_⟩
          intro member old other new equal
          rw [List.mem_singleton] at new
          rw [equal, new] at old
          exact present old
        · rw [List.length_append]
          exact space
      · rw [if_neg space]
        simp only [ge_iff_le, if_pos (Nat.not_lt.mp (count ▸ space))]
        exact ⟨trivial, same, sound⟩

theorem roomAct_leave :
    RoomAct (fun room => room.leave addr port)
      fun r => r.leave (addr, port) := by
  constructor
  · intro room
    unfold GroupRoom.leave
    split
    · exact ⟨rfl, rfl⟩
    · exact ⟨rfl, rfl⟩
  · intro room negative
    unfold GroupRoom.leave at negative ⊢
    split
    · rfl
    · rename_i i found
      rw [found] at negative
      exact absurd negative (Int.lt_irrefl 0)
  · intro room r sound same
    have members : room.view.members = r.members :=
      congrArg RoomView.members same
    have count := room.length_members
    rw [members] at count
    have taken :=
      List.erase_eq_eraseIdx r.members (addr, port)
    rw [GroupRoom.leave, RoomLog.leave, room.memberAt_eq, members]
    by_cases present : (addr, port) ∈ r.members
    · obtain ⟨i, found⟩ : ∃ i, r.members.idxOf? (addr, port) = some i := by
        rw [← Option.isSome_iff_exists, List.isSome_idxOf?]
        exact present
      rw [found] at taken
      have inside : i < room.memberCount := by
        rw [← count]
        exact (List.findIdx?_eq_some_iff_getElem.mp found).1
      rw [found, if_pos present]
      refine ⟨rfl, ?_, sound.nodup.erase _, ?_⟩
      · rw [GroupRoom.view, RoomLog.view, RoomView.mk.injEq]
        refine ⟨?_, congrArg RoomView.messages same⟩
        rw [front_shiftDown inside, ← List.eraseIdx_map,
          ← GroupRoom.view_members, members]
        exact taken.symm
      · exact (List.length_erase_le).trans sound.fits
    · rw [List.idxOf?_eq_none_iff.mpr present, if_neg present]
      exact ⟨rfl, same, sound⟩

/-- A history that is full loses its first message. -/
theorem GroupRoom.view_makeRoom (room : GroupRoom)
    (fits : room.msgCount ≤ groupMaxMsgs) :
    room.makeRoom.view =
      { room.view with
        messages :=
          if groupMaxMsgs ≤ room.msgCount then room.view.messages.tail
          else room.view.messages } := by
  unfold makeRoom
  by_cases full : room.msgCount ≥ groupMaxMsgs
  · have wholeCount : room.msgCount = groupMaxMsgs :=
      Nat.le_antisymm fits full
    have shifted :
        front (shiftDown room.messages 0 (groupMaxMsgs - 1 - 0))
            (groupMaxMsgs - 1) =
          (front room.messages groupMaxMsgs).eraseIdx 0 :=
      front_shiftDown (by decide)
    rw [if_pos full, if_pos full, view, RoomView.mk.injEq]
    refine ⟨rfl, ?_⟩
    change (front (shiftDown room.messages 0 (groupMaxMsgs - 1 - 0))
      (groupMaxMsgs - 1)).map _ = _
    rw [shifted, List.eraseIdx_zero, view, wholeCount, List.map_tail]
  · rw [if_neg full, if_neg full]

theorem roomAct_addMessage
    {sender text : Option Bytes} (seq : UInt32) (now : UInt64)
    (named : (sender.getD []).length ≤ 31)
    (short : (text.getD []).length ≤ 1023) :
    RoomAct (fun room => room.addMessage sender text seq now)
      fun r => r.addMessage sender text := by
  have whole :
      snprintfText 32 (sender.getD textUnknown) =
        sender.getD textUnknown := by
    refine snprintfText_eq ?_
    cases sender with
    | none => decide
    | some sender => exact Nat.lt_succ_of_le named
  have written :
      snprintfText groupMsgMax (text.getD []) = text.getD [] :=
    snprintfText_eq (Nat.lt_succ_of_le short)
  constructor
  · intro room
    change room.makeRoom.name = room.name ∧
      room.makeRoom.active = room.active
    unfold GroupRoom.makeRoom
    split
    · exact ⟨rfl, rfl⟩
    · exact ⟨rfl, rfl⟩
  · intro room negative
    exact absurd negative (Int.lt_irrefl 0)
  · intro room r sound same
    have messages : room.view.messages = r.messages.rtake groupMaxMsgs :=
      congrArg RoomView.messages same
    have count := room.length_messages
    rw [messages, List.rtake, List.length_drop] at count
    have space := room.view_makeRoom (by omega)
    refine ⟨rfl, ?_, ⟨sound.nodup, sound.fits⟩⟩
    rw [GroupRoom.view, RoomLog.view, RoomView.mk.injEq]
    refine ⟨?_, ?_⟩
    · exact (congrArg RoomView.members space).trans
        (congrArg RoomView.members same)
    · have older := congrArg RoomView.messages space
      simp only [messages] at older
      simp only [GroupRoom.addMessage, RoomLog.addMessage]
      rw [front_push, List.map_append, ← GroupRoom.view_messages,
        rtake_concat _ _ (by decide), older]
      congr 1
      · exact if_congr (by omega) rfl rfl
      · simp only [List.map_cons, List.map_nil, whole, written]

end

/-! ## The array of rooms -/

namespace GroupStore

/-- The active rooms, under their names. -/
def slots (g : GroupStore) (i : Nat) : Option (Bytes × RoomView) :=
  if (g i).active then some ((g i).name, (g i).view) else none

/-- What every call keeps between the store and the rooms as they are
meant. -/
structure Refines (g : GroupStore) (m : GroupModel) : Prop where
  represents :
    Represents groupMaxRooms g.slots (Option.map RoomLog.view ∘ m)
  sound : ∀ name r, m name = some r → r.Sound

section

variable {g : GroupStore} {m : GroupModel} {name : Bytes} {i : Nat}

theorem slots_eq_some_iff {shown : RoomView} :
    g.slots i = some (name, shown) ↔
      (g i).active = true ∧ (g i).name = name ∧ (g i).view = shown := by
  rw [slots, Option.ite_none_right_eq_some, Option.some_inj, Prod.mk.injEq]

theorem groupFind_name (g : GroupStore) (name : Bytes) :
    groupFind g (some name) =
      if name = [] then none
      else
        (List.range groupMaxRooms).find? fun i =>
          (g i).active && (g i).name == name :=
  rfl

theorem groupFind_eq_some (found : groupFind g (some name) = some i) :
    i < groupMaxRooms ∧ (g i).active = true ∧ (g i).name = name := by
  rw [groupFind_name] at found
  split at found
  · cases found
  · have test : ((g i).active && (g i).name == name) = true :=
      List.find?_some (p := fun j => (g j).active && (g j).name == name)
        found
    rw [Bool.and_eq_true, beq_iff_eq] at test
    exact ⟨List.mem_range.mp (List.mem_of_find?_eq_some found), test⟩

theorem groupFind_eq_none
    (named : name ≠ []) (missing : groupFind g (some name) = none) :
    ∀ j, j < groupMaxRooms → (g j).active = true → (g j).name ≠ name := by
  intro j inside active same
  rw [groupFind_name, if_neg named] at missing
  refine List.find?_eq_none.mp missing j (List.mem_range.mpr inside) ?_
  rw [Bool.and_eq_true, beq_iff_eq]
  exact ⟨active, same⟩

/-- An active room shows the room that is meant by its name. -/
theorem Refines.room
    (refines : Refines g m) (inside : i < groupMaxRooms)
    (active : (g i).active = true) :
    ∃ r, m (g i).name = some r ∧ (g i).view = r.view := by
  have bound :=
    (refines.represents.binds (g i).name (g i).view).mpr
      ⟨i, inside, slots_eq_some_iff.mpr ⟨active, rfl, rfl⟩⟩
  obtain ⟨r, known, shown⟩ := Option.map_eq_some_iff.mp bound
  exact ⟨r, known, shown.symm⟩

theorem Refines.found
    (refines : Refines g m) (found : groupFind g (some name) = some i) :
    ∃ r, m name = some r ∧ (g i).view = r.view := by
  obtain ⟨inside, active, same⟩ := groupFind_eq_some found
  rw [← same]
  exact refines.room inside active

theorem Refines.missing
    (refines : Refines g m) (named : name ≠ [])
    (missing : groupFind g (some name) = none) : m name = none := by
  have unbound : (m name).map RoomLog.view = none := by
    refine refines.represents.eq_none fun j shown inside taken => ?_
    obtain ⟨active, same, _⟩ := slots_eq_some_iff.mp taken
    exact groupFind_eq_none named missing j inside active same
  exact Option.map_eq_none_iff.mp unbound

theorem refines_reset : Refines groupReset fun _ => none where
  represents := Represents.empty fun _ _ => rfl
  sound := fun _ _ known => (Option.some_ne_none _ known.symm).elim

/-- An active room is written over the room of its name, or into a free slot
when no room has its name. -/
theorem Refines.write
    (refines : Refines g m) {room : GroupRoom} {r : RoomLog}
    (inside : i < groupMaxRooms) (active : room.active = true)
    (only :
      ∀ j, j < groupMaxRooms → (g j).active = true →
        (g j).name = room.name → j = i)
    (own : (g i).active = true → (g i).name = room.name)
    (shown : room.view = r.view) (sound : r.Sound) :
    Refines (writeSlot g i room) (Function.update m room.name (some r)) := by
  have written :
      slots (writeSlot g i room) =
        writeSlot g.slots i (some (room.name, r.view)) := by
    funext j
    by_cases here : j = i
    · simp only [slots, writeSlot, if_pos here, active, shown, if_true]
    · simp only [slots, writeSlot, if_neg here]
  constructor
  · rw [written, Function.comp_update]
    refine refines.represents.store inside ?_ ?_ r.view
    · intro j value below taken
      obtain ⟨activeThere, same, _⟩ := slots_eq_some_iff.mp taken
      exact only j below activeThere same
    · intro k value taken
      obtain ⟨activeThere, same, _⟩ := slots_eq_some_iff.mp taken
      rw [← same, own activeThere]
  · intro name r' known
    by_cases same : name = room.name
    · rw [same, Function.update_self, Option.some_inj] at known
      rw [← known]
      exact sound
    · rw [Function.update_of_ne same] at known
      exact refines.sound name r' known

theorem Refines.distinct
    (refines : Refines g m) {j : Nat} (left : i < groupMaxRooms)
    (right : j < groupMaxRooms) (leftActive : (g i).active = true)
    (rightActive : (g j).active = true) (same : (g i).name = (g j).name) :
    i = j :=
  refines.represents.apart i j _ (g i).view (g j).view left right
    (slots_eq_some_iff.mpr ⟨leftActive, rfl, rfl⟩)
    (slots_eq_some_iff.mpr ⟨rightActive, same.symm, rfl⟩)

/-! ## The calls -/

theorem Refines.onRoom
    (refines : Refines g m) (named : name ≠ [])
    {act : GroupRoom → Int × GroupRoom} {model : RoomLog → Int × RoomLog}
    (acts : RoomAct act model) :
    Refines (g.onRoom (some name) act).2 (m.onRoom name model).2 ∧
      GroupResult.status (g.onRoom (some name) act).1 =
        (m.onRoom name model).1 := by
  unfold GroupStore.onRoom GroupModel.onRoom
  rcases found : groupFind g (some name) with _ | i
  · rw [refines.missing named found]
    exact ⟨refines, rfl⟩
  · obtain ⟨r, known, shown⟩ := refines.found found
    obtain ⟨inside, active, same⟩ := groupFind_eq_some found
    obtain ⟨code, shows, sound⟩ :=
      acts.simulates (g i) r (refines.sound name r known) shown
    obtain ⟨keptName, keptActive⟩ := acts.kept (g i)
    have only (j : Nat) (below : j < groupMaxRooms)
        (activeThere : (g j).active = true)
        (other : (g j).name = (act (g i)).2.name) : j = i :=
      refines.distinct below inside activeThere active
        (other.trans keptName)
    have next :=
      refines.write inside (keptActive.trans active) only
        (fun _ => keptName.symm) shows sound
    rw [keptName, same] at next
    rw [known]
    exact ⟨next, congrArg GroupResult.status code⟩

theorem boundKeys_view (m : GroupModel) :
    boundKeys (Option.map RoomLog.view ∘ m) = boundKeys m := by
  ext name
  simp only [boundKeys, Set.mem_ofPred_eq, Function.comp_apply,
    Option.isSome_map]

theorem Refines.ncard_le (refines : Refines g m) :
    (boundKeys m).ncard ≤ groupMaxRooms := by
  rw [← boundKeys_view]
  exact refines.represents.ncard_boundKeys_le

theorem Refines.ncard_lt_iff (refines : Refines g m) :
    (boundKeys m).ncard < groupMaxRooms ↔
      ∃ i, i < groupMaxRooms ∧ (g i).active = false := by
  rw [← boundKeys_view, refines.represents.ncard_boundKeys_lt_iff]
  refine exists_congr fun i => and_congr_right fun _ => ?_
  rw [slots]
  split
  · rename_i active
    rw [active]
    exact ⟨fun taken => (Option.some_ne_none _ taken).elim,
      fun free => (Bool.false_ne_true free.symm).elim⟩
  · rename_i free
    exact ⟨fun _ => Bool.not_eq_true _ ▸ free, fun _ => rfl⟩

theorem any_eq_isSome (named : name ≠ []) :
    ((List.range groupMaxRooms).any fun i =>
        (g i).active && (g i).name == name) =
      (groupFind g (some name)).isSome := by
  rw [groupFind_name, if_neg named, List.isSome_find?]

theorem Refines.isSome_iff (refines : Refines g m) (named : name ≠ []) :
    (m name).isSome = (groupFind g (some name)).isSome := by
  rcases found : groupFind g (some name) with _ | i
  · rw [refines.missing named found]
    rfl
  · obtain ⟨r, known, _⟩ := refines.found found
    rw [known]
    rfl

/-- What the three ways through `group_create` need. -/
theorem groupCreate_cases (named : name ≠ []) (topic : Option Bytes) :
    ((groupFind g (some name)).isSome = true ∧
        groupCreate g (some name) topic = (-2, g)) ∨
      (groupFind g (some name) = none ∧
        (∀ i, i < groupMaxRooms → (g i).active = true) ∧
        groupCreate g (some name) topic = (-3, g)) ∨
      ∃ i room, groupFind g (some name) = none ∧ i < groupMaxRooms ∧
        (g i).active = false ∧
        room.name = snprintfText groupNameMax name ∧ room.active = true ∧
        room.view = RoomLog.view {} ∧
        groupCreate g (some name) topic = (0, writeSlot g i room) := by
  simp only [groupCreate, if_neg named, any_eq_isSome named]
  rcases groupFind g (some name) with _ | i
  · right
    simp only [Option.isSome_none, Bool.false_eq_true, if_false]
    rcases vacant :
        (List.range groupMaxRooms).find? fun i => !(g i).active with _ | i
    · left
      refine ⟨trivial, fun i inside => ?_, rfl⟩
      have taken := List.find?_eq_none.mp vacant i (List.mem_range.mpr inside)
      rwa [Bool.not_eq_true', Bool.not_eq_false] at taken
    · right
      have free : (!(g i).active) = true :=
        List.find?_some (p := fun j => !(g j).active) vacant
      rw [Bool.not_eq_true'] at free
      exact ⟨i, _, trivial,
        List.mem_range.mp (List.mem_of_find?_eq_some vacant), free, rfl, rfl,
        rfl, rfl⟩
  · left
    exact ⟨rfl, rfl⟩

theorem sound_empty : RoomLog.Sound {} :=
  ⟨List.nodup_nil, Nat.zero_le _⟩

theorem Refines.create
    (refines : Refines g m) (named : name ≠ []) (short : name.length ≤ 31)
    (topic : Option Bytes) :
    Refines (g.step (.create name topic)) (m.step (.create name topic)) ∧
      (g.call (.create name topic)).1 = (m.call (.create name topic)).1 := by
  have known := refines.isSome_iff named
  simp only [step, GroupModel.step, call, GroupModel.call, known]
  rcases groupCreate_cases (g := g) named topic with
    ⟨present, done⟩ | ⟨missing, full, done⟩ |
      ⟨i, room, missing, inside, free, same, active, shown, done⟩
  · rw [done, if_pos present]
    exact ⟨refines, rfl⟩
  · have crowded : ¬ (boundKeys m).ncard < groupMaxRooms := by
      rw [refines.ncard_lt_iff]
      rintro ⟨i, inside, free⟩
      rw [full i inside] at free
      exact Bool.false_ne_true free.symm
    rw [done, missing, if_neg crowded]
    exact ⟨refines, rfl⟩
  · have space := refines.ncard_lt_iff.mpr ⟨i, inside, free⟩
    have whole : snprintfText groupNameMax name = name :=
      snprintfText_eq (Nat.lt_succ_of_le short)
    rw [whole] at same
    rw [done, missing, if_pos space, ← same]
    refine ⟨refines.write inside active ?_ ?_ shown sound_empty, rfl⟩
    · intro j below activeThere other
      rw [same] at other
      exact (groupFind_eq_none named missing j below activeThere other).elim
    · intro activeThere
      rw [free] at activeThere
      exact (Bool.false_ne_true activeThere).elim

end

end GroupStore

/-- Besides `group_create` and `group_find` there are only calls that do
something within a room. -/
theorem GroupCall.Sized.cases {call : GroupCall} (sized : call.Sized) :
    (∃ name topic, call = .create name topic) ∨
      (∃ name, call = .find name) ∨
      ∃ act model, RoomAct act model ∧
        (∀ g : GroupStore,
          g.call call =
            (.status (g.onRoom (some call.name) act).1,
              (g.onRoom (some call.name) act).2)) ∧
        ∀ m : GroupModel, m.call call = m.onRoom call.name model := by
  cases call with
  | create name topic =>
      exact Or.inl ⟨name, topic, rfl⟩
  | join name addr port username =>
      exact Or.inr (Or.inr ⟨_, _, roomAct_join username sized.2,
        fun _ => rfl, fun _ => rfl⟩)
  | leave name addr port =>
      exact Or.inr (Or.inr ⟨_, _, roomAct_leave,
        fun _ => rfl, fun _ => rfl⟩)
  | addMessage name sender text seq now =>
      exact Or.inr (Or.inr ⟨_, _,
        roomAct_addMessage seq now sized.2.1 sized.2.2,
        fun _ => rfl, fun _ => rfl⟩)
  | find name =>
      exact Or.inr (Or.inl ⟨name, rfl⟩)

theorem GroupCall.Sized.named {call : GroupCall} (sized : call.Sized) :
    call.name ≠ [] :=
  List.ne_nil_of_length_pos sized.1.1

namespace GroupStore

theorem Refines.call
    {g : GroupStore} {m : GroupModel} (refines : Refines g m)
    {call : GroupCall} (sized : call.Sized) :
    Refines (g.step call) (m.step call) ∧
      (g.call call).1 = (m.call call).1 := by
  rcases sized.cases with
    ⟨name, topic, rfl⟩ | ⟨name, rfl⟩ | ⟨act, model, acts, same, meant⟩
  · exact refines.create sized.named sized.1.2 topic
  · have named : name ≠ [] := sized.named
    refine ⟨refines, ?_⟩
    rw [GroupStore.call, GroupModel.call]
    rcases found : groupFind g (some name) with _ | i
    · rw [refines.missing named found]
      rfl
    · obtain ⟨r, known, shown⟩ := refines.found found
      rw [known, Option.map_some, Option.map_some, shown]
  · rw [step, GroupModel.step, same, meant]
    exact refines.onRoom sized.named acts

theorem refines_after
    {calls : List GroupCall} (sized : ∀ call ∈ calls, call.Sized) :
    Refines (after calls) (GroupModel.after calls) ∧
      results calls = GroupModel.results calls := by
  refine simulation_run GroupCall.Sized ?_ refines_reset sized
  intro g m call fits refines
  obtain ⟨next, same⟩ := refines.call fits
  exact ⟨next, by rw [same]⟩

/-! ## What a call leaves alone -/

/-- A call that fails leaves the store as it is. -/
theorem step_of_failed
    {g : GroupStore} {call : GroupCall} (sized : call.Sized) {code : Int}
    (returned : (g.call call).1 = .status code) (negative : code < 0) :
    g.step call = g := by
  rcases sized.cases with
    ⟨name, topic, rfl⟩ | ⟨name, rfl⟩ | ⟨act, model, acts, same, _⟩
  · have named : name ≠ [] := sized.named
    rw [step, GroupStore.call]
    rw [GroupStore.call] at returned
    rcases groupCreate_cases (g := g) named topic with
      ⟨_, done⟩ | ⟨_, _, done⟩ | ⟨i, room, _, _, _, _, _, _, done⟩
    · rw [done]
    · rw [done]
    · rw [done] at returned
      injection returned with zero
      rw [← zero] at negative
      exact absurd negative (Int.lt_irrefl 0)
  · rfl
  · rw [step, same]
    rw [same, onRoom] at returned
    rw [onRoom]
    split
    · rfl
    · rename_i i found
      rw [found] at returned
      injection returned with result
      rw [← result] at negative
      change writeSlot g i (act (g i)).2 = g
      rw [acts.failed (g i) negative, writeSlot_self]

/-- Everything a call may change is the room of its name, or a free slot that
becomes this room. -/
theorem step_cases
    (g : GroupStore) {call : GroupCall} (sized : call.Sized) :
    g.step call = g ∨
      ∃ i room, ((g i).active = true → (g i).name = call.name) ∧
        room.name = call.name ∧ g.step call = writeSlot g i room := by
  rcases sized.cases with
    ⟨name, topic, rfl⟩ | ⟨name, rfl⟩ | ⟨act, model, acts, same, _⟩
  · have named : name ≠ [] := sized.named
    rw [step, GroupStore.call]
    rcases groupCreate_cases (g := g) named topic with
      ⟨_, done⟩ | ⟨_, _, done⟩ | ⟨i, room, _, _, free, kept, _, _, done⟩
    · exact Or.inl (by rw [done])
    · exact Or.inl (by rw [done])
    · refine Or.inr ⟨i, room, ?_, ?_, by rw [done]⟩
      · intro active
        rw [free] at active
        exact (Bool.false_ne_true active).elim
      · rw [kept]
        exact snprintfText_eq (Nat.lt_succ_of_le sized.1.2)
  · exact Or.inl rfl
  · rw [step, same, onRoom]
    rcases found : groupFind g (some call.name) with _ | i
    · exact Or.inl rfl
    · have kept := (groupFind_eq_some found).2.2
      exact Or.inr ⟨i, (act (g i)).2, fun _ => kept,
        (acts.kept (g i)).1.trans kept, rfl⟩

/-- The record that `group_find` points to. -/
def roomOf (g : GroupStore) (name : Bytes) : Option GroupRoom :=
  (groupFind g (some name)).map g

theorem roomOf_writeSlot
    {g : GroupStore} {i : Nat} {room : GroupRoom} {name : Bytes}
    (before : (g i).active = true → (g i).name ≠ name)
    (after : room.name ≠ name) :
    roomOf (writeSlot g i room) name = roomOf g name := by
  have sameFind :
      groupFind (writeSlot g i room) (some name) =
        groupFind g (some name) := by
    rw [groupFind_name, groupFind_name]
    refine if_congr Iff.rfl rfl (List.find?_congr fun j _ => ?_)
    by_cases here : j = i
    · rw [here, writeSlot, if_pos rfl, beq_eq_false_iff_ne.mpr after,
        Bool.and_false]
      symm
      rw [Bool.and_eq_false_imp]
      intro active
      exact beq_eq_false_iff_ne.mpr (before active)
    · rw [writeSlot, if_neg here]
  rw [roomOf, roomOf, sameFind]
  rcases found : groupFind g (some name) with _ | j
  · rfl
  · obtain ⟨_, active, same⟩ := groupFind_eq_some found
    have apart : j ≠ i := by
      intro equal
      rw [equal] at active same
      exact before active same
    rw [Option.map_some, Option.map_some, writeSlot, if_neg apart]

theorem roomOf_step
    (g : GroupStore) {call : GroupCall} (sized : call.Sized) {name : Bytes}
    (other : name ≠ call.name) :
    roomOf (g.step call) name = roomOf g name := by
  rcases g.step_cases sized with same | ⟨i, room, before, after, written⟩
  · rw [same]
  · rw [written]
    refine roomOf_writeSlot ?_ ?_
    · intro active same
      exact other (same.symm.trans (before active))
    · intro same
      exact other (same.symm.trans after)

end GroupStore

/-- Every sequence of calls returns what the rooms as they are meant return.
The active rooms have distinct names and are the rooms that were created, at
most eight.  Each shows its members, who are at most sixteen and in the order
in which they joined, and the last hundred of its messages.  A further call
that fails changes nothing, and no call changes a room that it is not about. -/
theorem group_store_refines_model
    {calls : List GroupCall} (sized : ∀ call ∈ calls, call.Sized) :
    GroupStore.results calls = GroupModel.results calls ∧
      (GroupStore.after calls).Refines (GroupModel.after calls) ∧
      (boundKeys (GroupModel.after calls)).ncard ≤ groupMaxRooms ∧
      (∀ i j, i < groupMaxRooms → j < groupMaxRooms →
        (GroupStore.after calls i).active = true →
        (GroupStore.after calls j).active = true →
        (GroupStore.after calls i).name = (GroupStore.after calls j).name →
          i = j) ∧
      (∀ i, i < groupMaxRooms → (GroupStore.after calls i).active = true →
        ∃ r, GroupModel.after calls (GroupStore.after calls i).name = some r ∧
          (GroupStore.after calls i).view.members = r.members ∧
          r.members.Nodup ∧ r.members.length ≤ groupMaxMembers ∧
          (GroupStore.after calls i).view.messages =
            r.messages.rtake groupMaxMsgs) ∧
      ∀ call, call.Sized →
        (∀ code, ((GroupStore.after calls).call call).1 = .status code →
            code < 0 →
            (GroupStore.after calls).step call = GroupStore.after calls) ∧
          ∀ name, name ≠ call.name →
            ((GroupStore.after calls).step call).roomOf name =
              (GroupStore.after calls).roomOf name := by
  obtain ⟨refines, same⟩ := GroupStore.refines_after sized
  refine ⟨same, refines, refines.ncard_le, ?_, ?_, ?_⟩
  · intro i j left right leftActive rightActive names
    exact refines.distinct left right leftActive rightActive names
  · intro i inside active
    obtain ⟨r, known, shown⟩ := refines.room inside active
    have sound := refines.sound _ r known
    exact ⟨r, known, congrArg RoomView.members shown, sound.nodup, sound.fits,
      congrArg RoomView.messages shown⟩
  · intro call fits
    refine ⟨fun code returned negative => ?_, fun name other => ?_⟩
    · exact GroupStore.step_of_failed fits returned negative
    · exact GroupStore.roomOf_step _ fits other

/-- A room with one member and one message. -/
def sampleGroupCalls : List GroupCall :=
  [.create [97] none, .join [97] [49] 9001 none,
    .addMessage [97] none (some [104, 105]) 0 5, .find [97]]

theorem group_store_refines_model_sample :
    GroupModel.results sampleGroupCalls =
      [.status 0, .status 0, .status 0,
        .found (some
          { members := [([49], 9001)]
            messages := [(textUnknown, [104, 105])] })] := by
  have sized : ∀ call ∈ sampleGroupCalls, call.Sized := by
    refine List.forall_mem_cons.mpr ⟨⟨by decide, trivial⟩, ?_⟩
    refine List.forall_mem_cons.mpr ⟨⟨by decide, ?_⟩, ?_⟩
    · exact (by decide : ([49] : Bytes).length ≤ 63)
    refine List.forall_mem_cons.mpr ⟨⟨by decide, ?_⟩, ?_⟩
    · exact (by decide :
        ([] : Bytes).length ≤ 31 ∧ ([104, 105] : Bytes).length ≤ 1023)
    exact List.forall_mem_singleton.mpr ⟨by decide, trivial⟩
  rw [← (group_store_refines_model sized).1]
  rfl

end PqComm
