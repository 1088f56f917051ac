import PqComm.Identity.KnownHosts
import PqComm.Lib.ArrayFront
import PqComm.Lib.Runs
import PqComm.Lib.SlotTable

/-!
# Group rooms

`group.c` keeps eight rooms in an array.  Each has an array of members, from
which one leaves by a shift of those behind it, and an array of messages, from
which the oldest is shifted out when it is full.

What the store is for is a map from names to rooms, each with the members that
have joined and not left and with all messages ever added.  The store shows
the last hundred of these.
-/

namespace PqComm

open Lib

/-! ## `group.h` -/

def groupNameMax : Nat := 32
def groupTopicMax : Nat := 128
def groupMsgMax : Nat := 1024
def groupMaxMembers : Nat := 16
def groupMaxMsgs : Nat := 100
def groupMaxRooms : Nat := 8

/-- `group_member_t`. -/
structure GroupMember where
  addr : Bytes
  port : UInt16
  username : Bytes
  isOnline : Bool

/-- `group_message_t`. -/
structure GroupMessage where
  text : Bytes
  sender : Bytes
  seq : UInt32
  timestampMs : UInt64

/-- `group_room_t`. -/
structure GroupRoom where
  name : Bytes
  topic : Bytes
  active : Bool
  members : Nat → GroupMember
  memberCount : Nat
  messages : Nat → GroupMessage
  msgCount : Nat
  msgSeqCounter : UInt32

/-- `g_rooms`. -/
abbrev GroupStore := Nat → GroupRoom

/-! ## `group.c` -/

/-- `snprintf(dst, size, "%s", text)`: what does not fit is cut off. -/
def snprintfText (size : Nat) (text : Bytes) : Bytes :=
  text.take (size - 1)

/-- `group_reset`. -/
def groupReset : GroupStore := fun _ =>
  { name := [], topic := [], active := false
    members := fun _ =>
      { addr := [], port := 0, username := [], isOnline := false }
    memberCount := 0
    messages := fun _ =>
      { text := [], sender := [], seq := 0, timestampMs := 0 }
    msgCount := 0
    msgSeqCounter := 0 }

/-- `group_find`: the place that the result points to. -/
def groupFind (g : GroupStore) (name : Option Bytes) : Option Nat :=
  match name with
  | none => none
  | some name =>
      if name = [] then
        none
      else
        (List.range groupMaxRooms).find? fun i =>
          (g i).active && (g i).name == name

/-- `group_create`. -/
def groupCreate (g : GroupStore) (name topic : Option Bytes) :
    Int × GroupStore :=
  match name with
  | none => (-1, g)
  | some name =>
      if name = [] then
        (-1, g)
      else if
          (List.range groupMaxRooms).any fun i =>
            (g i).active && (g i).name == name then
        (-2, g)
      else
        match (List.range groupMaxRooms).find? fun i => !(g i).active with
        | none => (-3, g)
        | some i =>
            (0, writeSlot g i
              { g i with
                name := snprintfText groupNameMax name
                topic := snprintfText groupTopicMax (topic.getD [])
                active := true
                memberCount := 0
                msgCount := 0
                msgSeqCounter := 0 })

namespace GroupRoom

/-- The loop that `group_join` and `group_leave` look for a member with. -/
def memberAt (room : GroupRoom) (addr : Bytes) (port : UInt16) :
    Option Nat :=
  (List.range room.memberCount).find? fun i =>
    (room.members i).addr == addr && (room.members i).port == port

/-- `group_join` in its room. -/
def join (room : GroupRoom) (addr : Bytes) (port : UInt16)
    (username : Option Bytes) : Int × GroupRoom :=
  match room.memberAt addr port with
  | some _ => (0, room)
  | none =>
      if room.memberCount ≥ groupMaxMembers then
        (-2, room)
      else
        (0, { room with
          members :=
            writeSlot room.members room.memberCount
              { addr := snprintfText 64 addr
                port := port
                username := snprintfText 32 (username.getD addr)
                isOnline := true }
          memberCount := room.memberCount + 1 })

/-- `group_leave` in its room. -/
def leave (room : GroupRoom) (addr : Bytes) (port : UInt16) :
    Int × GroupRoom :=
  match room.memberAt addr port with
  | none => (-2, room)
  | some i =>
      (0, { room with
        members := shiftDown room.members i (room.memberCount - 1 - i)
        memberCount := room.memberCount - 1 })

/-- The oldest message leaves a full history. -/
def makeRoom (room : GroupRoom) : GroupRoom :=
  if room.msgCount ≥ groupMaxMsgs then
    { room with
      messages := shiftDown room.messages 0 (groupMaxMsgs - 1)
      msgCount := groupMaxMsgs - 1 }
  else
    room

/-- `group_add_message` in its room; `now` is what `time` returns. -/
def addMessage (room : GroupRoom) (sender text : Option Bytes)
    (seq : UInt32) (now : UInt64) : Int × GroupRoom :=
  let room := room.makeRoom
  let counter :=
    if seq > 0 then room.msgSeqCounter else room.msgSeqCounter + 1
  (0, { room with
    messages :=
      writeSlot room.messages room.msgCount
        { text := snprintfText groupMsgMax (text.getD [])
          sender := snprintfText 32 (sender.getD textUnknown)
          seq := if seq > 0 then seq else counter
          timestampMs := now * 1000 }
    msgCount := room.msgCount + 1
    msgSeqCounter := counter })

end GroupRoom

/-- What the calls on a room have in common: without the room they return
-1. -/
def GroupStore.onRoom (g : GroupStore) (name : Option Bytes)
    (act : GroupRoom → Int × GroupRoom) : Int × GroupStore :=
  match groupFind g name with
  | none => (-1, g)
  | some i =>
      let done := act (g i)
      (done.1, writeSlot g i done.2)

/-- `group_join`. -/
def groupJoin (g : GroupStore) (name : Option Bytes) (addr : Bytes)
    (port : UInt16) (username : Option Bytes) : Int × GroupStore :=
  g.onRoom name fun room => room.join addr port username

/-- `group_leave`. -/
def groupLeave (g : GroupStore) (name : Option Bytes) (addr : Bytes)
    (port : UInt16) : Int × GroupStore :=
  g.onRoom name fun room => room.leave addr port

/-- `group_add_message`. -/
def groupAddMessage (g : GroupStore) (name sender text : Option Bytes)
    (seq : UInt32) (now : UInt64) : Int × GroupStore :=
  g.onRoom name fun room => room.addMessage sender text seq now

/-! ## Calls, and the rooms they refine -/

/-- A call on a room that is named. -/
inductive GroupCall where
  | create (name : Bytes) (topic : Option Bytes)
  | join (name addr : Bytes) (port : UInt16) (username : Option Bytes)
  | leave (name addr : Bytes) (port : UInt16)
  | addMessage (name : Bytes) (sender text : Option Bytes) (seq : UInt32)
      (now : UInt64)
  | find (name : Bytes)

def GroupCall.name : GroupCall → Bytes
  | .create name _ => name
  | .join name _ _ _ => name
  | .leave name _ _ => name
  | .addMessage name _ _ _ _ => name
  | .find name => name

/-- Nothing is longer than its field, and the name is not empty. -/
def GroupCall.Sized (call : GroupCall) : Prop :=
  (1 ≤ call.name.length ∧ call.name.length ≤ 31) ∧
    match call with
    | .create _ _ => True
    | .join _ addr _ _ => addr.length ≤ 63
    | .leave _ addr _ => addr.length ≤ 63
    | .addMessage _ sender text _ _ =>
        (sender.getD []).length ≤ 31 ∧ (text.getD []).length ≤ 1023
    | .find _ => True

/-- What a room shows: the members with their ports, and the messages with
their senders. -/
structure RoomView where
  members : List (Bytes × UInt16)
  messages : List (Bytes × Bytes)
  deriving DecidableEq

inductive GroupResult where
  | status (code : Int)
  | found (room : Option RoomView)
  deriving DecidableEq

def GroupRoom.view (room : GroupRoom) : RoomView where
  members :=
    (front room.members room.memberCount).map fun m => (m.addr, m.port)
  messages :=
    (front room.messages room.msgCount).map fun m => (m.sender, m.text)

namespace GroupStore

def call (g : GroupStore) : GroupCall → GroupResult × GroupStore
  | .create name topic =>
      let done := groupCreate g (some name) topic
      (.status done.1, done.2)
  | .join name addr port username =>
      let done := groupJoin g (some name) addr port username
      (.status done.1, done.2)
  | .leave name addr port =>
      let done := groupLeave g (some name) addr port
      (.status done.1, done.2)
  | .addMessage name sender text seq now =>
      let done := groupAddMessage g (some name) sender text seq now
      (.status done.1, done.2)
  | .find name =>
      (.found ((groupFind g (some name)).map fun i => (g i).view), g)

def step (g : GroupStore) (call : GroupCall) : GroupStore :=
  (g.call call).2

def results : List GroupCall → List GroupResult :=
  emitted step (fun g call => [(g.call call).1]) groupReset

def after (calls : List GroupCall) : GroupStore :=
  calls.foldl step groupReset

end GroupStore

/-- A room as it is meant: who is in it, and every message ever added. -/
structure RoomLog where
  members : List (Bytes × UInt16) := []
  messages : List (Bytes × Bytes) := []

namespace RoomLog

def join (r : RoomLog) (member : Bytes × UInt16) : Int × RoomLog :=
  if member ∈ r.members then
    (0, r)
  else if r.members.length < groupMaxMembers then
    (0, { r with members := r.members ++ [member] })
  else
    (-2, r)

def leave (r : RoomLog) (member : Bytes × UInt16) : Int × RoomLog :=
  if member ∈ r.members then
    (0, { r with members := r.members.erase member })
  else
    (-2, r)

def addMessage (r : RoomLog) (sender text : Option Bytes) : Int × RoomLog :=
  (0, { r with
    messages := r.messages ++ [(sender.getD textUnknown, text.getD [])] })

/-- Of the messages the last hundred are shown. -/
def view (r : RoomLog) : RoomView where
  members := r.members
  messages := r.messages.rtake groupMaxMsgs

end RoomLog

/-- What the store is for. -/
abbrev GroupModel := Bytes → Option RoomLog

namespace GroupModel

def onRoom (m : GroupModel) (name : Bytes) (act : RoomLog → Int × RoomLog) :
    GroupResult × GroupModel :=
  match m name with
  | none => (.status (-1), m)
  | some r =>
      let done := act r
      (.status done.1, Function.update m name (some done.2))

noncomputable def call (m : GroupModel) : GroupCall → GroupResult × GroupModel
  | .create name _ =>
      if (m name).isSome then
        (.status (-2), m)
      else if (boundKeys m).ncard < groupMaxRooms then
        (.status 0, Function.update m name (some {}))
      else
        (.status (-3), m)
  | .join name addr port _ => m.onRoom name fun r => r.join (addr, port)
  | .leave name addr port => m.onRoom name fun r => r.leave (addr, port)
  | .addMessage name sender text _ _ =>
      m.onRoom name fun r => r.addMessage sender text
  | .find name => (.found ((m name).map RoomLog.view), m)

noncomputable def step (m : GroupModel) (call : GroupCall) : GroupModel :=
  (m.call call).2

noncomputable def results : List GroupCall → List GroupResult :=
  emitted step (fun m call => [(m.call call).1]) fun _ => none

noncomputable def after (calls : List GroupCall) : GroupModel :=
  calls.foldl step fun _ => none

end GroupModel

end PqComm
