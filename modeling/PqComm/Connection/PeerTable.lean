import PqComm.Group.Rooms
import PqComm.Lib.ArrayFront

/-!
# The table of peers

`connection_manager.c` keeps the peers in the front of an array.  A new peer is
written behind the last one and nobody is taken out, so a call changes at most
the entry of the peer it names, and the list of addresses and ports only
grows.
-/

namespace PqComm

open Lib

def maxPeers : Nat := 32

/-- `peer_state_t`. -/
inductive PeerState where
  | idle
  | connecting
  | handshake
  | locked
  | disconnected
  deriving DecidableEq, Repr

/-- `peer_t`. -/
structure Peer where
  addrStr : Bytes := []
  port : UInt16 := 0
  username : Bytes := []
  state : PeerState := .idle
  isOnline : Bool := false
  lastSeenMs : UInt64 := 0

def Peer.key (p : Peer) : Bytes × UInt16 :=
  (p.addrStr, p.port)

/-- `g_peers` and `g_peer_count`, as `connection_manager_init` leaves them. -/
structure PeerTable where
  peers : Nat → Peer := fun _ => {}
  count : Nat := 0

/-! ## The functions -/

/-- `find_peer`. -/
def PeerTable.findPeer
    (t : PeerTable) (addrStr : Bytes) (port : UInt16) : Option Nat :=
  (List.range t.count).find? fun i =>
    (t.peers i).port == port && (t.peers i).addrStr == addrStr

/-- What is done to the peer that `find_peer` finds. -/
def PeerTable.atPeer
    (t : PeerTable) (addrStr : Bytes) (port : UInt16)
    (change : Peer → Peer) : PeerTable :=
  match t.findPeer addrStr port with
  | none => t
  | some i => { t with peers := writeSlot t.peers i (change (t.peers i)) }

/-- What a loop over all peers does to those that meet a condition. -/
def PeerTable.forPeers
    (t : PeerTable) (condition : Peer → Bool) (change : Peer → Peer) :
    PeerTable :=
  { t with
    peers := fun i =>
      if i < t.count ∧ condition (t.peers i) = true then change (t.peers i)
      else t.peers i }

def Peer.connecting (p : Peer) : Peer :=
  { p with state := .connecting, isOnline := true }

/-- `connection_manager_connect`.  A new peer keeps the user name that is in
its slot. -/
def connectionManagerConnect
    (t : PeerTable) (addrStr : Option Bytes) (port : UInt16) :
    Int × PeerTable :=
  match addrStr with
  | none => (-1, t)
  | some addrStr =>
      match t.findPeer addrStr port with
      | some i =>
          (0, { t with peers := writeSlot t.peers i (t.peers i).connecting })
      | none =>
          if t.count ≥ maxPeers then
            (-1, t)
          else
            (0,
              { peers :=
                  writeSlot t.peers t.count
                    { (t.peers t.count).connecting with
                      addrStr := snprintfText 64 addrStr
                      port := port
                      lastSeenMs := 0 }
                count := t.count + 1 })

def PeerState.established (s : PeerState) : Bool :=
  s == .locked || s == .handshake

/-- `connection_manager_disconnect`. -/
def connectionManagerDisconnect (t : PeerTable) : PeerTable :=
  t.forPeers (fun p => p.state.established) fun p =>
    { p with state := .disconnected, isOnline := false }

/-- `connection_manager_update_state`. -/
def connectionManagerUpdateState
    (t : PeerTable) (addrStr : Bytes) (port : UInt16) (state : PeerState) :
    PeerTable :=
  t.atPeer addrStr port fun p =>
    { p with
      state := state
      isOnline := state.established || p.isOnline }

/-- `connection_manager_set_username`. -/
def connectionManagerSetUsername
    (t : PeerTable) (addrStr : Bytes) (port : UInt16)
    (username : Option Bytes) : PeerTable :=
  match username with
  | none => t
  | some username =>
      t.atPeer addrStr port fun p =>
        { p with username := snprintfText 32 username }

/-- `connection_manager_mark_stale`. -/
def connectionManagerMarkStale (t : PeerTable) (now timeout : UInt64) :
    PeerTable :=
  t.forPeers
    (fun p =>
      p.isOnline && decide (p.lastSeenMs > 0) &&
        decide (now - p.lastSeenMs > timeout) && !p.state.established)
    fun p => { p with isOnline := false }

/-- `connection_manager_update_last_seen`. -/
def connectionManagerUpdateLastSeen
    (t : PeerTable) (addrStr : Bytes) (port : UInt16) (now : UInt64) :
    PeerTable :=
  t.atPeer addrStr port fun p =>
    { p with lastSeenMs := now, isOnline := true }

/-! ## Lookup -/

/-- The addresses and ports of the peers in their order. -/
def PeerTable.keys (t : PeerTable) : List (Bytes × UInt16) :=
  (front t.peers t.count).map Peer.key

section

variable {t t' : PeerTable} {addrStr : Bytes} {port : UInt16}

@[simp]
theorem PeerTable.length_keys (t : PeerTable) : t.keys.length = t.count := by
  simp [PeerTable.keys]

/-- What is found depends on the keys only. -/
theorem PeerTable.findPeer_eq (t : PeerTable) (addrStr : Bytes)
    (port : UInt16) :
    t.findPeer addrStr port =
      t.keys.findIdx? fun key => key.2 == port && key.1 == addrStr := by
  rw [PeerTable.keys, List.findIdx?_map, findIdx?_front]
  rfl

theorem PeerTable.findPeer_some {i : Nat}
    (found : t.findPeer addrStr port = some i) :
    i < t.count ∧ (t.peers i).key = (addrStr, port) := by
  obtain ⟨test, inside, -⟩ := List.find?_range_eq_some.mp found
  rw [Bool.and_eq_true, beq_iff_eq, beq_iff_eq] at test
  exact ⟨List.mem_range.mp inside, Prod.ext test.2 test.1⟩

theorem PeerTable.findPeer_none_iff :
    t.findPeer addrStr port = none ↔ (addrStr, port) ∉ t.keys := by
  rw [t.findPeer_eq, List.findIdx?_eq_none_iff]
  constructor
  · intro differs member
    have test := differs _ member
    simp at test
  · intro absent key member
    rw [Bool.eq_false_iff]
    intro test
    rw [Bool.and_eq_true, beq_iff_eq, beq_iff_eq] at test
    have same : key = (addrStr, port) := Prod.ext test.2 test.1
    exact absent (same ▸ member)

/-! ## What a call changes -/

/-- Nothing but the entry of one peer changes, and if the peer is new it comes
behind all others. -/
structure ChangesAt (t t' : PeerTable) (key : Bytes × UInt16) : Prop where
  keys :
    t'.keys = t.keys ∨
      (key ∉ t.keys ∧ t.count < maxPeers ∧ t'.keys = t.keys ++ [key])
  others :
    ∀ i, i < t.count → (t.peers i).key ≠ key → t'.peers i = t.peers i

theorem ChangesAt.refl (t : PeerTable) (key : Bytes × UInt16) :
    ChangesAt t t key :=
  ⟨Or.inl rfl, fun _ _ _ => rfl⟩

theorem ChangesAt.count_le
    {key : Bytes × UInt16} (changes : ChangesAt t t' key) :
    t.count ≤ t'.count := by
  rw [← t.length_keys, ← t'.length_keys]
  rcases changes.keys with same | ⟨-, -, longer⟩
  · rw [same]
  · rw [longer, List.length_append]
    exact Nat.le_add_right _ _

theorem ChangesAt.trans
    {t'' : PeerTable} {key : Bytes × UInt16} (first : ChangesAt t t' key)
    (second : ChangesAt t' t'' key) : ChangesAt t t'' key := by
  constructor
  · rcases first.keys with same | ⟨absent, room, longer⟩
    · have count : t'.count = t.count := by
        rw [← t'.length_keys, same, t.length_keys]
      rw [← same, ← count]
      exact second.keys
    · rcases second.keys with same | ⟨absent', -, -⟩
      · exact Or.inr ⟨absent, room, same.trans longer⟩
      · rw [longer] at absent'
        exact absurd (List.mem_append_right _ (List.mem_singleton_self _))
          absent'
  · intro i inside apart
    have kept := first.others i inside apart
    rw [second.others i (Nat.lt_of_lt_of_le inside first.count_le)
      (by rwa [kept]), kept]

theorem PeerTable.keys_congr
    (count : t'.count = t.count)
    (same : ∀ i, i < t.count → (t'.peers i).key = (t.peers i).key) :
    t'.keys = t.keys := by
  unfold PeerTable.keys front
  rw [List.map_map, List.map_map, count]
  exact List.map_congr_left fun i member => same i (List.mem_range.mp member)

/-- A write to the entry of a peer that keeps its key. -/
theorem ChangesAt.write
    {i : Nat} {key : Bytes × UInt16} {p : Peer} (own : (t.peers i).key = key)
    (same : p.key = key) :
    ChangesAt t { t with peers := writeSlot t.peers i p } key := by
  constructor
  · refine Or.inl (PeerTable.keys_congr rfl fun j _ => ?_)
    dsimp only
    by_cases here : j = i
    · rw [here, writeSlot, if_pos rfl, same, own]
    · rw [writeSlot, if_neg here]
  · intro j _ apart
    have elsewhere : j ≠ i := fun here => apart (by rw [here, own])
    exact if_neg elsewhere

theorem PeerTable.atPeer_changes
    (t : PeerTable) (addrStr : Bytes) (port : UInt16) {change : Peer → Peer}
    (kept : ∀ p, (change p).key = p.key) :
    ChangesAt t (t.atPeer addrStr port change) (addrStr, port) := by
  unfold PeerTable.atPeer
  cases found : t.findPeer addrStr port with
  | none => exact ChangesAt.refl t _
  | some i =>
      obtain ⟨-, own⟩ := PeerTable.findPeer_some found
      exact ChangesAt.write own ((kept _).trans own)

/-- The table with a new peer behind the last one. -/
theorem ChangesAt.append
    {p : Peer} (absent : p.key ∉ t.keys) (room : t.count < maxPeers) :
    ChangesAt t
      { peers := writeSlot t.peers t.count p, count := t.count + 1 }
      p.key := by
  constructor
  · refine Or.inr ⟨absent, room, ?_⟩
    unfold PeerTable.keys
    rw [front_push, List.map_append]
    rfl
  · intro i inside _
    exact if_neg (Nat.ne_of_lt inside)

/-- The entry that `connection_manager_connect` writes for a new peer. -/
def PeerTable.newPeer (t : PeerTable) (addrStr : Bytes) (port : UInt16) :
    Peer :=
  { (t.peers t.count).connecting with
    addrStr := addrStr
    port := port
    lastSeenMs := 0 }

/-- A peer that is listed is set to connecting; a new one is written behind
the last one when there is room. -/
theorem connectionManagerConnect_cases
    (t : PeerTable) {addrStr : Bytes} (short : addrStr.length ≤ 63)
    (port : UInt16) :
    (∃ i, t.findPeer addrStr port = some i ∧
        connectionManagerConnect t (some addrStr) port =
          (0, { t with peers := writeSlot t.peers i (t.peers i).connecting }))
      ∨ t.findPeer addrStr port = none ∧ maxPeers ≤ t.count ∧
          connectionManagerConnect t (some addrStr) port = (-1, t) ∨
        t.findPeer addrStr port = none ∧ t.count < maxPeers ∧
          connectionManagerConnect t (some addrStr) port =
            (0,
              { peers := writeSlot t.peers t.count (t.newPeer addrStr port)
                count := t.count + 1 }) := by
  unfold connectionManagerConnect
  dsimp only
  cases found : t.findPeer addrStr port with
  | some i => exact Or.inl ⟨i, rfl, rfl⟩
  | none =>
      dsimp only
      by_cases full : t.count ≥ maxPeers
      · rw [if_pos full]
        exact Or.inr (Or.inl ⟨rfl, full, rfl⟩)
      · have fits : snprintfText 64 addrStr = addrStr :=
          List.take_of_length_le short
        rw [if_neg full, fits]
        exact Or.inr (Or.inr ⟨rfl, Nat.lt_of_not_le full, rfl⟩)

theorem connectionManagerConnect_changes
    (t : PeerTable) {addrStr : Bytes} (short : addrStr.length ≤ 63)
    (port : UInt16) :
    ChangesAt t (connectionManagerConnect t (some addrStr) port).2
      (addrStr, port) := by
  rcases connectionManagerConnect_cases t short port with
    ⟨i, found, call⟩ | ⟨-, -, call⟩ | ⟨new, room, call⟩
  · obtain ⟨-, own⟩ := PeerTable.findPeer_some found
    rw [call]
    exact ChangesAt.write own own
  · rw [call]
    exact ChangesAt.refl t _
  · have absent := PeerTable.findPeer_none_iff.mp new
    rw [call]
    exact ChangesAt.append (p := t.newPeer addrStr port) absent room

theorem connectionManagerSetUsername_changes
    (t : PeerTable) (addrStr : Bytes) (port : UInt16)
    (username : Option Bytes) :
    ChangesAt t (connectionManagerSetUsername t addrStr port username)
      (addrStr, port) := by
  unfold connectionManagerSetUsername
  cases username with
  | none => exact ChangesAt.refl t _
  | some username =>
      dsimp only
      refine t.atPeer_changes addrStr port fun p => ?_
      rfl

theorem connectionManagerUpdateState_changes
    (t : PeerTable) (addrStr : Bytes) (port : UInt16) (state : PeerState) :
    ChangesAt t (connectionManagerUpdateState t addrStr port state)
      (addrStr, port) := by
  unfold connectionManagerUpdateState
  refine t.atPeer_changes addrStr port fun p => ?_
  rfl

theorem connectionManagerUpdateLastSeen_changes
    (t : PeerTable) (addrStr : Bytes) (port : UInt16) (now : UInt64) :
    ChangesAt t (connectionManagerUpdateLastSeen t addrStr port now)
      (addrStr, port) := by
  unfold connectionManagerUpdateLastSeen
  refine t.atPeer_changes addrStr port fun p => ?_
  rfl

/-- A loop over all peers keeps the keys. -/
theorem PeerTable.forPeers_keys
    (t : PeerTable) (condition : Peer → Bool) {change : Peer → Peer}
    (kept : ∀ p, (change p).key = p.key) :
    (t.forPeers condition change).keys = t.keys := by
  refine PeerTable.keys_congr rfl fun i _ => ?_
  unfold PeerTable.forPeers
  dsimp only
  split
  · exact kept _
  · rfl

/-! ## The table -/

/-- At most 32 peers, and no address and port twice. -/
structure PeerTable.Sound (t : PeerTable) : Prop where
  fits : t.count ≤ maxPeers
  distinct : t.keys.Nodup

theorem PeerTable.Sound.of_keys
    (sound : t.Sound) (same : t'.keys = t.keys) : t'.Sound := by
  refine ⟨?_, same ▸ sound.distinct⟩
  rw [← t'.length_keys, same, t.length_keys]
  exact sound.fits

theorem PeerTable.Sound.of_append
    {key : Bytes × UInt16} (sound : t.Sound) (absent : key ∉ t.keys)
    (room : t.count < maxPeers) (longer : t'.keys = t.keys ++ [key]) :
    t'.Sound := by
  constructor
  · rw [← t'.length_keys, longer, List.length_append, t.length_keys]
    exact room
  · rw [longer]
    refine List.nodup_append.mpr
      ⟨sound.distinct, List.nodup_singleton _, fun k old k' new same => ?_⟩
    rw [List.mem_singleton.mp new] at same
    exact absent (same ▸ old)

/-! ## The state of the peers listed -/

/-- No peer of the table gets another state. -/
def SameStates (t t' : PeerTable) : Prop :=
  ∀ i, i < t.count → (t'.peers i).state = (t.peers i).state

theorem SameStates.trans
    {t'' : PeerTable} (first : SameStates t t') (second : SameStates t' t'')
    (grown : t.count ≤ t'.count) : SameStates t t'' := by
  intro i inside
  rw [second i (Nat.lt_of_lt_of_le inside grown), first i inside]

theorem PeerTable.atPeer_states
    (t : PeerTable) (addrStr : Bytes) (port : UInt16) {change : Peer → Peer}
    (kept : ∀ p, (change p).state = p.state) :
    SameStates t (t.atPeer addrStr port change) := by
  intro i _
  unfold PeerTable.atPeer
  cases found : t.findPeer addrStr port with
  | none => rfl
  | some j =>
      by_cases here : i = j
      · rw [here]
        dsimp only
        rw [writeSlot, if_pos rfl, kept]
      · dsimp only
        rw [writeSlot, if_neg here]

/-- To connect to a new peer leaves the peers listed as they are. -/
theorem connectionManagerConnect_states
    (short : addrStr.length ≤ 63) (new : t.findPeer addrStr port = none) :
    SameStates t (connectionManagerConnect t (some addrStr) port).2 := by
  intro i inside
  rcases connectionManagerConnect_cases t short port with
    ⟨_, found, -⟩ | ⟨-, -, call⟩ | ⟨-, -, call⟩
  · rw [new] at found
    cases found
  · rw [call]
  · rw [call]
    dsimp only
    rw [writeSlot, if_neg (Nat.ne_of_lt inside)]

end

end PqComm
