import PqComm.Connection.Beacons
import PqComm.Lib.Roster

/-!
# The peers one by one

The table of peers is a roster: the first 32 addresses and ports that someone
connects to or that a beacon brings, in that order.  What it records about one
of them comes from the calls that name it, its own beacons and the sweeps over
all peers; what happens to the others is nothing to it.
-/

namespace PqComm

open Lib

/-- What is recorded about a peer besides its address and port. -/
structure PeerInfo where
  username : Bytes := []
  state : PeerState := .idle
  isOnline : Bool := false
  lastSeenMs : UInt64 := 0

def Peer.info (p : Peer) : PeerInfo where
  username := p.username
  state := p.state
  isOnline := p.isOnline
  lastSeenMs := p.lastSeenMs

def PeerTable.entries (t : PeerTable) : List ((Bytes × UInt16) × PeerInfo) :=
  (front t.peers t.count).map fun p => (p.key, p.info)

/-! ## The roster of peers -/

/-- Whose beacon a datagram is: nobody's when it is malformed or from this
host. -/
def beaconKey (inetNtop : Nat → Bytes → Bytes) (datagram fromAddr : Bytes) :
    Option (Bytes × UInt16) :=
  if datagram.length < 8 then
    none
  else if leNat (datagram.take 4) ≠ discoveryMagic ∨
      datagram.getD 4 0 ≠ discoveryVersion then
    none
  else
    let addrStr := beaconSource inetNtop fromAddr
    if addrStr = [] ∨ addrStr = ascii "::1" ∨
        addrStr = ascii "127.0.0.1" then
      none
    else
      some (addrStr, beaconPort datagram)

def PeerInfo.connecting (info : PeerInfo) : PeerInfo :=
  { info with state := .connecting, isOnline := true }

def PeerInfo.named (username : Bytes) (info : PeerInfo) : PeerInfo :=
  { info with username := snprintfText 32 username }

def PeerInfo.seen (now : UInt64) (info : PeerInfo) : PeerInfo :=
  { info with lastSeenMs := now, isOnline := true }

/-- A beacon without a name leaves the name that is known. -/
def PeerInfo.heard (username : Bytes) (now : UInt64) (info : PeerInfo) :
    PeerInfo :=
  ((if username.isEmpty then info else info.named username)).seen now

def PeerInfo.entered (state : PeerState) (info : PeerInfo) : PeerInfo :=
  { info with
    state := state
    isOnline := state.established || info.isOnline }

def PeerInfo.disconnected (info : PeerInfo) : PeerInfo :=
  if info.state.established then
    { info with state := .disconnected, isOnline := false }
  else
    info

def PeerInfo.swept (now timeout : UInt64) (info : PeerInfo) : PeerInfo :=
  if (info.isOnline && decide (info.lastSeenMs > 0) &&
      decide (now - info.lastSeenMs > timeout) &&
        !info.state.established) = true then
    { info with isOnline := false }
  else
    info

section

variable (inetNtop : Nat → Bytes → Bytes)

/-- What is done to the peer that an act is about. -/
def PeerAct.change : PeerAct → PeerInfo → PeerInfo
  | .connect _ _ => PeerInfo.connecting
  | .disconnect => PeerInfo.disconnected
  | .updateState _ _ state => PeerInfo.entered state
  | .setUsername _ _ username =>
      match username with
      | none => id
      | some username => PeerInfo.named username
  | .updateLastSeen _ _ now => PeerInfo.seen now
  | .markStale now timeout => PeerInfo.swept now timeout
  | .beacon datagram _ now => PeerInfo.heard (beaconUsername datagram) now

/-- Whom an act is about: the peer that it names or whose beacon it is, or
everybody. -/
def PeerAct.concerns (act : PeerAct) (key : Bytes × UInt16) : Bool :=
  match act with
  | .connect addrStr port =>
      decide (addrStr.map (fun text => (text, port)) = some key)
  | .disconnect => true
  | .updateState addrStr port _ => decide ((addrStr, port) = key)
  | .setUsername addrStr port _ => decide ((addrStr, port) = key)
  | .updateLastSeen addrStr port _ => decide ((addrStr, port) = key)
  | .markStale _ _ => true
  | .beacon datagram fromAddr _ =>
      decide (beaconKey inetNtop datagram fromAddr = some key)

/-- The peers in their own terms. -/
def peerRoster : Roster (Bytes × UInt16) PeerInfo PeerAct where
  joins
    | .connect addrStr port => addrStr.map fun text => (text, port)
    | .beacon datagram fromAddr _ => beaconKey inetNtop datagram fromAddr
    | _ => none
  fresh
    | .beacon datagram _ now =>
        (PeerInfo.connecting {}).heard (beaconUsername datagram) now
    | _ => PeerInfo.connecting {}
  touch act key info :=
    if act.concerns inetNtop key then act.change info else info

end

/-! ## The table and its entries -/

/-- Nobody has written behind the last peer. -/
def PeerTable.Clean (t : PeerTable) : Prop :=
  ∀ i, t.count ≤ i → t.peers i = {}

section

variable {t t' : PeerTable} {addrStr : Bytes} {port : UInt16}

theorem PeerTable.keys_entries (t : PeerTable) :
    t.entries.map Prod.fst = t.keys := by
  unfold PeerTable.entries PeerTable.keys
  rw [List.map_map]
  rfl

@[simp]
theorem PeerTable.length_entries (t : PeerTable) :
    t.entries.length = t.count := by
  unfold PeerTable.entries
  rw [List.length_map, length_front]

/-- Different places hold different peers. -/
theorem PeerTable.Sound.key_ne
    (sound : t.Sound) {i j : Nat} (left : i < t.count) (right : j < t.count)
    (apart : j ≠ i) : (t.peers j).key ≠ (t.peers i).key := by
  intro same
  have place (k : Nat) (inside : k < t.keys.length) :
      t.keys[k] = (t.peers k).key := by
    simp only [PeerTable.keys, List.getElem_map, getElem_front]
  have left' : i < t.keys.length := by
    rwa [t.length_keys]
  have right' : j < t.keys.length := by
    rwa [t.length_keys]
  have equal : t.keys[j] = t.keys[i] := by
    rw [place j right', place i left', same]
  exact apart (sound.distinct.getElem_inj_iff.mp equal)

theorem PeerTable.entries_atPeer
    (sound : t.Sound) {change : Peer → Peer} {f : PeerInfo → PeerInfo}
    (kept : ∀ p, (change p).key = p.key)
    (does : ∀ p, (change p).info = f p.info) :
    (t.atPeer addrStr port change).entries =
      atKey (addrStr, port) f t.entries := by
  unfold PeerTable.atPeer
  cases found : t.findPeer addrStr port with
  | none =>
      have absent := PeerTable.findPeer_none_iff.mp found
      rw [← t.keys_entries] at absent
      exact (atKey_absent absent).symm
  | some i =>
      obtain ⟨inside, own⟩ := PeerTable.findPeer_some found
      unfold PeerTable.entries atKey
      dsimp only
      rw [front_write, List.map_map]
      refine List.ext_getElem (by simp) fun j left right => ?_
      have within : j < t.count := by
        simpa using left
      rw [List.getElem_map, List.getElem_map, List.getElem_set,
        getElem_front]
      by_cases here : i = j
      · rw [if_pos here, kept, does, ← here]
        exact congrArg (Prod.mk _) (if_pos own).symm
      · have other : (t.peers j).key ≠ (addrStr, port) := by
          rw [← own]
          exact sound.key_ne inside within (Ne.symm here)
        rw [if_neg here]
        exact congrArg (Prod.mk _) (if_neg other).symm

theorem PeerTable.entries_forPeers
    {condition : Peer → Bool} {change : Peer → Peer}
    {f : PeerInfo → PeerInfo}
    (kept : ∀ p, (change p).key = p.key)
    (does : ∀ p, (if condition p = true then change p else p).info =
      f p.info) :
    (t.forPeers condition change).entries =
      t.entries.map fun e => (e.1, f e.2) := by
  unfold PeerTable.entries
  rw [List.map_map]
  refine List.ext_getElem (by simp [PeerTable.forPeers])
    fun j left right => ?_
  have within : j < t.count := by
    simpa using right
  have next : (t.forPeers condition change).peers j =
      if condition (t.peers j) = true then change (t.peers j)
      else t.peers j := by
    unfold PeerTable.forPeers
    simp only [within, true_and]
  rw [List.getElem_map, List.getElem_map, getElem_front, getElem_front, next]
  refine Prod.ext ?_ (does (t.peers j))
  dsimp only
  split
  · exact kept _
  · rfl

/-! ## Places that are free -/

theorem PeerTable.Clean.atPeer
    (clean : t.Clean) (addrStr : Bytes) (port : UInt16)
    (change : Peer → Peer) : (t.atPeer addrStr port change).Clean := by
  unfold PeerTable.atPeer
  cases found : t.findPeer addrStr port with
  | none =>
      exact clean
  | some i =>
      obtain ⟨inside, -⟩ := PeerTable.findPeer_some found
      intro j behind
      have apart : j ≠ i := by
        dsimp only at behind
        omega
      dsimp only
      rw [writeSlot, if_neg apart]
      exact clean j behind

theorem PeerTable.Clean.forPeers
    (clean : t.Clean) (condition : Peer → Bool) (change : Peer → Peer) :
    (t.forPeers condition change).Clean := by
  intro i behind
  have outside : ¬ (i < t.count ∧ condition (t.peers i) = true) :=
    fun both => Nat.not_lt_of_le behind both.1
  unfold PeerTable.forPeers
  dsimp only
  rw [if_neg outside]
  exact clean i behind

theorem PeerTable.Clean.connect
    (clean : t.Clean) (addrStr : Option Bytes) (port : UInt16) :
    (connectionManagerConnect t addrStr port).2.Clean := by
  unfold connectionManagerConnect
  cases addrStr with
  | none =>
      exact clean
  | some addrStr =>
      dsimp only
      cases found : t.findPeer addrStr port with
      | some i =>
          have same := clean.atPeer addrStr port Peer.connecting
          unfold PeerTable.atPeer at same
          rwa [found] at same
      | none =>
          dsimp only
          split
          · exact clean
          · intro j behind
            have apart : j ≠ t.count := by
              dsimp only at behind
              omega
            dsimp only
            rw [writeSlot, if_neg apart]
            exact clean j (by dsimp only at behind; omega)

theorem PeerTable.Clean.joined
    (clean : t.Clean) (addrStr : Bytes) (port : UInt16) :
    (t.joined addrStr port).Clean := by
  unfold PeerTable.joined
  split
  · exact clean
  · exact clean.connect _ _

theorem PeerTable.Clean.named
    (clean : t.Clean) (addrStr : Bytes) (port : UInt16) (username : Bytes) :
    (t.named addrStr port username).Clean := by
  unfold PeerTable.named
  split
  · exact clean
  · exact clean.atPeer _ _ _

theorem ChangesAt.sound
    {key : Bytes × UInt16} (changes : ChangesAt t t' key) (sound : t.Sound) :
    t'.Sound := by
  rcases changes.keys with same | ⟨absent, room, longer⟩
  · exact sound.of_keys same
  · exact sound.of_append absent room longer

/-! ## One act -/

/-- A new peer comes behind the others, when there is room. -/
theorem PeerTable.entries_connect
    (sound : t.Sound) (clean : t.Clean) (short : addrStr.length ≤ 63) :
    (connectionManagerConnect t (some addrStr) port).2.entries =
      if (addrStr, port) ∈ t.keys then
        atKey (addrStr, port) PeerInfo.connecting t.entries
      else if maxPeers ≤ t.count then
        t.entries
      else
        t.entries ++ [((addrStr, port), PeerInfo.connecting {})] := by
  rcases connectionManagerConnect_cases t short port with
    ⟨i, found, call⟩ | ⟨new, full, call⟩ | ⟨new, room, call⟩
  · have listed : (addrStr, port) ∈ t.keys := by
      by_contra absent
      rw [PeerTable.findPeer_none_iff.mpr absent] at found
      cases found
    have same : (connectionManagerConnect t (some addrStr) port).2 =
        t.atPeer addrStr port Peer.connecting := by
      rw [call]
      unfold PeerTable.atPeer
      rw [found]
    rw [if_pos listed, same]
    exact PeerTable.entries_atPeer sound (fun _ => rfl) fun _ => rfl
  · rw [if_neg (PeerTable.findPeer_none_iff.mp new), if_pos full, call]
  · have fresh : t.newPeer addrStr port =
        { state := .connecting, isOnline := true, addrStr := addrStr
          port := port } := by
      unfold PeerTable.newPeer Peer.connecting
      rw [clean t.count (Nat.le_refl _)]
    rw [if_neg (PeerTable.findPeer_none_iff.mp new),
      if_neg (Nat.not_le_of_lt room), call]
    unfold PeerTable.entries
    rw [front_push, List.map_append, fresh]
    rfl

theorem PeerTable.entries_joined
    (sound : t.Sound) (clean : t.Clean) (short : addrStr.length ≤ 63) :
    (t.joined addrStr port).entries =
      if (addrStr, port) ∈ t.keys ∨ maxPeers ≤ t.count then
        t.entries
      else
        t.entries ++ [((addrStr, port), PeerInfo.connecting {})] := by
  unfold PeerTable.joined
  cases found : t.findPeer addrStr port with
  | some i =>
      have listed : (addrStr, port) ∈ t.keys := by
        by_contra absent
        rw [PeerTable.findPeer_none_iff.mpr absent] at found
        cases found
      rw [Option.isSome_some, if_pos rfl, if_pos (Or.inl listed)]
  | none =>
      have absent := PeerTable.findPeer_none_iff.mp found
      rw [Option.isSome_none, if_neg Bool.false_ne_true,
        PeerTable.entries_connect sound clean short, if_neg absent]
      exact if_congr (by simp [absent]) rfl rfl

theorem PeerTable.entries_heard
    (sound : t.Sound) (short : addrStr.length ≤ 63)
    (username : Bytes) (now : UInt64) :
    (t.heard addrStr port username now).entries =
      atKey (addrStr, port) (PeerInfo.heard username now)
        (t.joined addrStr port).entries := by
  obtain ⟨joined, -⟩ := t.joined_changes short port
  obtain ⟨named, -⟩ :=
    (t.joined addrStr port).named_changes addrStr port username
  have soundJoined := joined.sound sound
  have seen :
      (t.heard addrStr port username now).entries =
        atKey (addrStr, port) (PeerInfo.seen now)
          ((t.joined addrStr port).named addrStr port username).entries :=
    PeerTable.entries_atPeer (named.sound soundJoined) (fun _ => rfl)
      fun _ => rfl
  rw [seen]
  unfold PeerTable.named PeerInfo.heard
  by_cases nameless : username.isEmpty = true
  · rw [if_pos nameless]
    simp only [nameless, if_true]
  · have recorded :
        (connectionManagerSetUsername (t.joined addrStr port) addrStr port
          (some username)).entries =
          atKey (addrStr, port) (PeerInfo.named username)
            (t.joined addrStr port).entries :=
      PeerTable.entries_atPeer soundJoined (fun _ => rfl) fun _ => rfl
    rw [if_neg nameless, recorded, atKey_atKey]
    simp only [nameless]
    rfl

variable {inetNtop : Nat → Bytes → Bytes}

theorem tryRecvBeacon_eq (datagram fromAddr : Bytes) (now : UInt64) :
    (tryRecvBeacon inetNtop t datagram fromAddr now).2 =
      match beaconKey inetNtop datagram fromAddr with
      | none => t
      | some (addrStr, port) =>
          t.heard addrStr port (beaconUsername datagram) now := by
  unfold tryRecvBeacon beaconKey
  dsimp only
  split
  · rfl
  · split
    · rfl
    · by_cases unknown : beaconSource inetNtop fromAddr = []
      · rw [if_pos unknown, if_pos (Or.inl unknown)]
      · rw [if_neg unknown]
        by_cases own : beaconSource inetNtop fromAddr = ascii "::1" ∨
            beaconSource inetNtop fromAddr = ascii "127.0.0.1"
        · rw [if_pos own, if_pos (Or.inr own)]
        · rw [if_neg own, if_neg (not_or.mpr ⟨unknown, own⟩)]

theorem beaconKey_source
    {datagram fromAddr : Bytes} {key : Bytes × UInt16}
    (is : beaconKey inetNtop datagram fromAddr = some key) :
    key.1 = beaconSource inetNtop fromAddr := by
  unfold beaconKey at is
  dsimp only at is
  split at is
  · cases is
  · split at is
    · cases is
    · split at is
      · cases is
      · cases is
        rfl

/-- An act about one peer touches his entry alone. -/
theorem touched_atKey
    {act : PeerAct} {key : Bytes × UInt16}
    (about : ∀ k, act.concerns inetNtop k = true ↔ k = key)
    (entries : List ((Bytes × UInt16) × PeerInfo)) :
    (entries.map fun e =>
      (e.1, (peerRoster inetNtop).touch act e.1 e.2)) =
      atKey key act.change entries :=
  List.map_congr_left fun e _ =>
    congrArg (Prod.mk e.1) (if_congr (about e.1) rfl rfl)

theorem touched_nobody
    {act : PeerAct} (about : ∀ k, act.concerns inetNtop k = false)
    (entries : List ((Bytes × UInt16) × PeerInfo)) :
    (entries.map fun e =>
      (e.1, (peerRoster inetNtop).touch act e.1 e.2)) = entries := by
  have same : ∀ e ∈ entries,
      (e.1, (peerRoster inetNtop).touch act e.1 e.2) = e := by
    intro e _
    exact congrArg (Prod.mk e.1) (if_neg (by simp [about e.1]))
  exact (List.map_congr_left same).trans (List.map_id entries)

theorem peerStep_clean (clean : t.Clean) (act : PeerAct) :
    (peerStep inetNtop t act).Clean := by
  cases act with
  | connect addrStr port => exact clean.connect addrStr port
  | disconnect => exact clean.forPeers _ _
  | updateState addrStr port state => exact clean.atPeer _ _ _
  | setUsername addrStr port username =>
      cases username with
      | none => exact clean
      | some username => exact clean.atPeer _ _ _
  | updateLastSeen addrStr port now => exact clean.atPeer _ _ _
  | markStale now timeout => exact clean.forPeers _ _
  | beacon datagram fromAddr now =>
      have step : peerStep inetNtop t (.beacon datagram fromAddr now) = _ :=
        tryRecvBeacon_eq datagram fromAddr now
      rw [step]
      cases beaconKey inetNtop datagram fromAddr with
      | none => exact clean
      | some key =>
          exact ((clean.joined _ _).named _ _ _).atPeer _ _ _

/-- What a step of the roster is for an act by which a peer joins. -/
theorem peerRoster_joins
    {act : PeerAct} {key : Bytes × UInt16}
    (joins : (peerRoster inetNtop).joins act = some key)
    (about : ∀ k, act.concerns inetNtop k = true ↔ k = key)
    (t : PeerTable) :
    (peerRoster inetNtop).step maxPeers t.entries act =
      if key ∈ t.keys then
        atKey key act.change t.entries
      else if maxPeers ≤ t.count then
        t.entries
      else
        t.entries ++ [(key, (peerRoster inetNtop).fresh act)] := by
  unfold Roster.step
  dsimp only
  rw [joins, touched_atKey about]
  dsimp only
  rw [t.keys_entries, t.length_entries]
  by_cases listed : key ∈ t.keys
  · rw [if_pos listed]
    exact if_pos (Or.inl listed)
  · have absent : key ∉ t.entries.map Prod.fst := by
      rwa [t.keys_entries]
    rw [if_neg listed, atKey_absent absent]
    by_cases full : maxPeers ≤ t.count
    · rw [if_pos full]
      exact if_pos (Or.inr full)
    · rw [if_neg full]
      exact if_neg (not_or.mpr ⟨listed, full⟩)

/-- What it is for all others. -/
theorem peerRoster_stays
    {act : PeerAct} (joins : (peerRoster inetNtop).joins act = none)
    (entries : List ((Bytes × UInt16) × PeerInfo)) :
    (peerRoster inetNtop).step maxPeers entries act =
      entries.map fun e =>
        (e.1, (peerRoster inetNtop).touch act e.1 e.2) := by
  unfold Roster.step
  dsimp only
  rw [joins]

/-- The calls of the connection manager that look a peer up. -/
theorem entries_lookup
    {act : PeerAct} {change : Peer → Peer} (sound : t.Sound)
    (step : peerStep inetNtop t act = t.atPeer addrStr port change)
    (joins : (peerRoster inetNtop).joins act = none)
    (about : ∀ k, act.concerns inetNtop k = true ↔ k = (addrStr, port))
    (kept : ∀ p, (change p).key = p.key)
    (does : ∀ p, (change p).info = act.change p.info) :
    (peerStep inetNtop t act).entries =
      (peerRoster inetNtop).step maxPeers t.entries act := by
  rw [step, peerRoster_stays joins, touched_atKey about]
  exact PeerTable.entries_atPeer sound kept does

theorem entries_nobody
    {act : PeerAct} (step : peerStep inetNtop t act = t)
    (joins : (peerRoster inetNtop).joins act = none)
    (about : ∀ k, act.concerns inetNtop k = false) :
    (peerStep inetNtop t act).entries =
      (peerRoster inetNtop).step maxPeers t.entries act := by
  rw [step, peerRoster_stays joins, touched_nobody about]

theorem entries_sweep
    {act : PeerAct} {condition : Peer → Bool} {change : Peer → Peer}
    (step : peerStep inetNtop t act = t.forPeers condition change)
    (joins : (peerRoster inetNtop).joins act = none)
    (about : ∀ k, act.concerns inetNtop k = true)
    (kept : ∀ p, (change p).key = p.key)
    (does : ∀ p, (if condition p = true then change p else p).info =
      act.change p.info) :
    (peerStep inetNtop t act).entries =
      (peerRoster inetNtop).step maxPeers t.entries act := by
  rw [step, peerRoster_stays joins, PeerTable.entries_forPeers kept does]
  refine List.map_congr_left fun e _ => ?_
  exact congrArg (Prod.mk e.1) (if_pos (about e.1)).symm

/-- A datagram lists its sender, where there is room, and marks it. -/
theorem entries_beacon
    (textual : ∀ family address, (inetNtop family address).length ≤ 45)
    (sound : t.Sound) (clean : t.Clean)
    (datagram fromAddr : Bytes) (now : UInt64) :
    (peerStep inetNtop t (.beacon datagram fromAddr now)).entries =
      (peerRoster inetNtop).step maxPeers t.entries
        (.beacon datagram fromAddr now) := by
  have step : peerStep inetNtop t (.beacon datagram fromAddr now) = _ :=
    tryRecvBeacon_eq datagram fromAddr now
  cases is : beaconKey inetNtop datagram fromAddr with
  | none =>
      rw [is] at step
      exact entries_nobody step is fun k => by
        simp [PeerAct.concerns, is]
  | some key =>
      obtain ⟨addrStr, port⟩ := key
      have short : addrStr.length ≤ 63 := by
        have source := beaconKey_source is
        dsimp only at source
        rw [source]
        exact length_beaconSource_le textual fromAddr
      have about : ∀ k,
          (PeerAct.beacon datagram fromAddr now).concerns inetNtop k =
            true ↔ k = (addrStr, port) := by
        intro k
        simp [PeerAct.concerns, is, eq_comm]
      have joins : (peerRoster inetNtop).joins
          (.beacon datagram fromAddr now) = some (addrStr, port) := is
      rw [is] at step
      rw [step, peerRoster_joins joins about t,
        PeerTable.entries_heard sound short,
        PeerTable.entries_joined sound clean short]
      by_cases listed : (addrStr, port) ∈ t.keys
      · rw [if_pos listed, if_pos (Or.inl listed)]
        rfl
      · have absent : (addrStr, port) ∉ t.entries.map Prod.fst := by
          rwa [t.keys_entries]
        rw [if_neg listed]
        by_cases full : maxPeers ≤ t.count
        · rw [if_pos full, if_pos (Or.inr full), atKey_absent absent]
        · rw [if_neg full, if_neg (not_or.mpr ⟨listed, full⟩),
            atKey_append_self _ absent]
          rfl

/-- A call or a datagram does to the entries what it does to the roster. -/
theorem entries_peerStep
    (textual : ∀ family address, (inetNtop family address).length ≤ 45)
    (sound : t.Sound) (clean : t.Clean) (act : PeerAct)
    (admitted : act.Admitted) :
    (peerStep inetNtop t act).entries =
      (peerRoster inetNtop).step maxPeers t.entries act := by
  cases act with
  | connect addrStr port =>
      cases addrStr with
      | none =>
          exact entries_nobody rfl rfl fun _ => rfl
      | some addrStr =>
          have about : ∀ k,
              (PeerAct.connect (some addrStr) port).concerns inetNtop k =
                true ↔ k = (addrStr, port) := by
            intro k
            simp [PeerAct.concerns, eq_comm]
          rw [peerRoster_joins rfl about t]
          exact PeerTable.entries_connect sound clean (admitted addrStr rfl)
  | disconnect =>
      have step : peerStep inetNtop t .disconnect =
          t.forPeers (fun p => p.state.established) fun p =>
            { p with state := .disconnected, isOnline := false } := rfl
      refine entries_sweep step rfl (fun _ => rfl) (fun _ => rfl)
        fun p => ?_
      dsimp only [PeerAct.change, PeerInfo.disconnected, Peer.info]
      split
      · rfl
      · rfl
  | updateState addrStr port state =>
      have step : peerStep inetNtop t (.updateState addrStr port state) =
          t.atPeer addrStr port fun p =>
            { p with
              state := state
              isOnline := state.established || p.isOnline } := rfl
      exact entries_lookup sound step rfl
        (fun k => by simp [PeerAct.concerns, eq_comm]) (fun _ => rfl)
        fun _ => rfl
  | setUsername addrStr port username =>
      cases username with
      | none =>
          have still : atKey (addrStr, port) id t.entries = t.entries := by
            unfold atKey
            simp
          have about : ∀ k,
              (PeerAct.setUsername addrStr port none).concerns inetNtop k =
                true ↔ k = (addrStr, port) := by
            intro k
            simp [PeerAct.concerns, eq_comm]
          rw [peerRoster_stays rfl, touched_atKey about]
          exact still.symm
      | some username =>
          have step :
              peerStep inetNtop t (.setUsername addrStr port username) =
                t.atPeer addrStr port fun p =>
                  { p with username := snprintfText 32 username } := rfl
          exact entries_lookup sound step rfl
            (fun k => by simp [PeerAct.concerns, eq_comm]) (fun _ => rfl)
            fun _ => rfl
  | updateLastSeen addrStr port now =>
      have step : peerStep inetNtop t (.updateLastSeen addrStr port now) =
          t.atPeer addrStr port fun p =>
            { p with lastSeenMs := now, isOnline := true } := rfl
      exact entries_lookup sound step rfl
        (fun k => by simp [PeerAct.concerns, eq_comm]) (fun _ => rfl)
        fun _ => rfl
  | markStale now timeout =>
      have step : peerStep inetNtop t (.markStale now timeout) =
          t.forPeers
            (fun p =>
              p.isOnline && decide (p.lastSeenMs > 0) &&
                decide (now - p.lastSeenMs > timeout) &&
                  !p.state.established)
            fun p => { p with isOnline := false } := rfl
      refine entries_sweep step rfl (fun _ => rfl) (fun _ => rfl)
        fun p => ?_
      dsimp only [PeerAct.change, PeerInfo.swept, Peer.info]
      split
      · rfl
      · rfl
  | beacon datagram fromAddr now =>
      exact entries_beacon textual sound clean datagram fromAddr now

end

/-! ## Runs -/

/-- The table is the roster of what has happened. -/
theorem entries_run
    {inetNtop : Nat → Bytes → Bytes}
    (textual : ∀ family address, (inetNtop family address).length ≤ 45)
    (acts : List PeerAct) (admitted : ∀ act ∈ acts, act.Admitted) :
    (acts.foldl (peerStep inetNtop) {}).Clean ∧
      (acts.foldl (peerStep inetNtop) {}).entries =
        (peerRoster inetNtop).run maxPeers acts := by
  induction acts using List.reverseRecOn with
  | nil =>
      exact ⟨fun _ _ => rfl, rfl⟩
  | append_singleton acts act inductionHypothesis =>
      have earlier : ∀ act ∈ acts, act.Admitted :=
        fun act member => admitted act (List.mem_append_left _ member)
      have last : act.Admitted :=
        admitted act (List.mem_append_right _ (List.mem_singleton_self act))
      have empty : PeerTable.Sound {} := ⟨Nat.zero_le _, List.nodup_nil⟩
      have sound := empty.run textual acts earlier
      obtain ⟨clean, same⟩ := inductionHypothesis earlier
      rw [List.foldl_append, Roster.run_append, ← same]
      exact ⟨peerStep_clean clean act,
        entries_peerStep textual sound clean act last⟩

/-- After any calls and datagrams, the peers are the first 32 that somebody
connected to or whose beacon came, in that order, and what is recorded about
each comes from the acts that are about him, as if the others were not
there. -/
theorem peers_lead_own_lives
    (inetNtop : Nat → Bytes → Bytes)
    (textual : ∀ family address, (inetNtop family address).length ≤ 45)
    (acts : List PeerAct) (admitted : ∀ act ∈ acts, act.Admitted) :
    let t := acts.foldl (peerStep inetNtop) {}
    t.keys =
        ((acts.filterMap (peerRoster inetNtop).joins).eraseDups).take
          maxPeers ∧
      ∀ i, i < t.count →
        (acts.filter fun act =>
            act.concerns inetNtop (t.peers i).key).foldl
          ((peerRoster inetNtop).life (t.peers i).key) none =
            some (t.peers i).info := by
  intro t
  obtain ⟨-, same⟩ := entries_run textual acts admitted
  constructor
  · rw [← t.keys_entries, same]
    exact Roster.keys_run acts
  · intro i inside
    have silent : ∀ act : PeerAct,
        act.concerns inetNtop (t.peers i).key = false →
          (peerRoster inetNtop).joins act ≠ some (t.peers i).key ∧
            ∀ info, (peerRoster inetNtop).touch act (t.peers i).key info =
              info := by
      intro act about
      refine ⟨fun joins => ?_, fun info => if_neg (by simp [about])⟩
      cases act with
      | connect addrStr port =>
          have named : addrStr.map (fun text => (text, port)) =
              some (t.peers i).key := joins
          simp [PeerAct.concerns, named] at about
      | beacon datagram fromAddr now =>
          have named : beaconKey inetNtop datagram fromAddr =
              some (t.peers i).key := joins
          simp [PeerAct.concerns, named] at about
      | disconnect => cases joins
      | updateState addrStr port state => cases joins
      | setUsername addrStr port username => cases joins
      | updateLastSeen addrStr port now => cases joins
      | markStale now timeout => cases joins
    have member : ((t.peers i).key, (t.peers i).info) ∈
        (peerRoster inetNtop).run maxPeers acts := by
      rw [← same]
      exact List.mem_map.mpr ⟨t.peers i,
        List.mem_map.mpr ⟨i, List.mem_range.mpr inside, rfl⟩, rfl⟩
    have trimmed := Roster.life_filter
      (fun act : PeerAct => act.concerns inetNtop (t.peers i).key) silent none
      acts
    exact trimmed.trans (Roster.life_of_mem member)

/-- Somebody connects to 10.0.0.7, then bob is heard at 10.0.0.2. -/
def sampleMeetings : List PeerAct :=
  [.connect (some (ascii "10.0.0.7")) 9000,
    .beacon (sendBeacon (ascii "bob") 9000)
      ([2, 0, 0, 0, 10, 0, 0, 2] ++ zeros 20) 5,
    .updateState (ascii "10.0.0.7") 9000 .locked]

def sampleNtop (_ : Nat) (_ : Bytes) : Bytes :=
  ascii "10.0.0.2"

theorem peers_lead_own_lives_bob :
    let t := sampleMeetings.foldl (peerStep sampleNtop) {}
    t.keys = [(ascii "10.0.0.7", 9000), (ascii "10.0.0.2", 9000)] ∧
      (sampleMeetings.filter fun act =>
          act.concerns sampleNtop (t.peers 1).key).foldl
        ((peerRoster sampleNtop).life (t.peers 1).key) none =
          some (t.peers 1).info := by
  have admitted : ∀ act ∈ sampleMeetings, act.Admitted := by
    intro act member
    simp only [sampleMeetings, List.mem_cons, List.not_mem_nil, or_false]
      at member
    rcases member with rfl | rfl | rfl
    · intro text same
      cases same
      decide
    · exact (by decide +kernel :
        (sendBeacon (ascii "bob") 9000).length ≤ 64)
    · exact (by decide : (ascii "10.0.0.7").length ≤ 63)
  have lives := peers_lead_own_lives sampleNtop
    (fun _ _ => (by decide : (ascii "10.0.0.2").length ≤ 45)) sampleMeetings
    admitted
  exact ⟨lives.1.trans (by decide +kernel), lives.2 1 (by decide +kernel)⟩

end PqComm
