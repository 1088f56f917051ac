import PqComm.Connection.PeerTable
import PqComm.Core.Session
import PqComm.Lib.Text

/-!
# Beacons on the local network

`send_beacon` and `try_recv_beacon` of `lan_discovery.c`, and the peer table
under arbitrary calls and datagrams.  `inetNtop` stands for `inet_ntop`: it
takes the family and the bytes of an address and gives the text.
-/

namespace PqComm

open Lib

def discoveryMagic : Nat := 0xDEADBEEF
def discoveryVersion : UInt8 := 1
def afInet : Nat := 2
def afInet6 : Nat := 10

/-- The message of `send_beacon`. -/
def sendBeacon (username : Bytes) (port : UInt16) : Bytes :=
  let unameLen := min username.length 31
  leBytes 4 discoveryMagic ++ [discoveryVersion] ++ leBytes 2 port.toNat ++
    [UInt8.ofNat unameLen] ++ username.take unameLen

/-- The text `addr_str` of a sender. -/
def beaconSource (inetNtop : Nat → Bytes → Bytes) (fromAddr : Bytes) :
    Bytes :=
  let family := leNat (fromAddr.take 2)
  if family = afInet6 then
    inetNtop afInet6 (sin6Addr fromAddr)
  else if family = afInet then
    inetNtop afInet ((fromAddr.drop 4).take 4)
  else
    []

/-- The port that a beacon names. -/
def beaconPort (datagram : Bytes) : UInt16 :=
  UInt16.ofNat (leNat ((datagram.drop 5).take 2))

/-- The user name that a beacon brings, a C string. -/
def beaconUsername (datagram : Bytes) : Bytes :=
  let unameLen := min (datagram.getD 7 0).toNat 31
  if datagram.length ≥ 8 + unameLen then
    cText ((datagram.drop 8).take unameLen)
  else
    []

/-- The sender of a beacon is connected to when it is not listed. -/
def PeerTable.joined (t : PeerTable) (addrStr : Bytes) (port : UInt16) :
    PeerTable :=
  if (t.findPeer addrStr port).isSome then
    t
  else
    (connectionManagerConnect t (some addrStr) port).2

/-- A user name that is not empty is recorded. -/
def PeerTable.named
    (t : PeerTable) (addrStr : Bytes) (port : UInt16) (username : Bytes) :
    PeerTable :=
  if username.isEmpty then
    t
  else
    connectionManagerSetUsername t addrStr port (some username)

/-- The end of `try_recv_beacon`, for a sender that is not this host. -/
def PeerTable.heard
    (t : PeerTable) (addrStr : Bytes) (port : UInt16) (username : Bytes)
    (now : UInt64) : PeerTable :=
  connectionManagerUpdateLastSeen
    ((t.joined addrStr port).named addrStr port username) addrStr port now

/-- `try_recv_beacon`, with the datagram and the sender that it receives. -/
def tryRecvBeacon
    (inetNtop : Nat → Bytes → Bytes) (t : PeerTable)
    (datagram fromAddr : Bytes) (now : UInt64) : Int × PeerTable :=
  if datagram.length < 8 then
    (0, t)
  else if leNat (datagram.take 4) ≠ discoveryMagic ∨
      datagram.getD 4 0 ≠ discoveryVersion then
    (0, t)
  else
    let addrStr := beaconSource inetNtop fromAddr
    if addrStr = [] then
      (1, t)
    else if addrStr = ascii "::1" ∨ addrStr = ascii "127.0.0.1" then
      (1, t)
    else
      (1,
        t.heard addrStr (beaconPort datagram) (beaconUsername datagram) now)

/-! ## What a beacon changes -/

section

variable {t : PeerTable} {addrStr : Bytes}

theorem PeerTable.joined_changes
    (t : PeerTable) (short : addrStr.length ≤ 63) (port : UInt16) :
    ChangesAt t (t.joined addrStr port) (addrStr, port) ∧
      SameStates t (t.joined addrStr port) := by
  unfold PeerTable.joined
  cases found : t.findPeer addrStr port with
  | some i =>
      rw [Option.isSome_some, if_pos rfl]
      exact ⟨ChangesAt.refl t _, fun _ _ => rfl⟩
  | none =>
      rw [Option.isSome_none, if_neg Bool.false_ne_true]
      exact ⟨connectionManagerConnect_changes t short port,
        connectionManagerConnect_states short found⟩

theorem PeerTable.named_changes
    (t : PeerTable) (addrStr : Bytes) (port : UInt16) (username : Bytes) :
    ChangesAt t (t.named addrStr port username) (addrStr, port) ∧
      SameStates t (t.named addrStr port username) := by
  unfold PeerTable.named
  split
  · exact ⟨ChangesAt.refl t _, fun _ _ => rfl⟩
  · refine ⟨connectionManagerSetUsername_changes t addrStr port _, ?_⟩
    exact t.atPeer_states addrStr port fun _ => rfl

theorem PeerTable.heard_changes
    (t : PeerTable) (short : addrStr.length ≤ 63) (port : UInt16)
    (username : Bytes) (now : UInt64) :
    ChangesAt t (t.heard addrStr port username now) (addrStr, port) ∧
      SameStates t (t.heard addrStr port username now) := by
  unfold PeerTable.heard
  obtain ⟨joined, same⟩ := t.joined_changes short port
  obtain ⟨named, same'⟩ :=
    (t.joined addrStr port).named_changes addrStr port username
  have both := joined.trans named
  constructor
  · exact both.trans (connectionManagerUpdateLastSeen_changes _ _ _ now)
  · refine (same.trans same' joined.count_le).trans ?_ both.count_le
    exact PeerTable.atPeer_states _ addrStr port fun _ => rfl

/-- The keys of a table after `find_peer` decide what it finds. -/
theorem findPeer_congr
    {t' : PeerTable} (same : t'.keys = t.keys) (port : UInt16) :
    t'.findPeer addrStr port = t.findPeer addrStr port := by
  rw [t'.findPeer_eq, same, ← t.findPeer_eq]

theorem findPeer_isSome_of_mem
    {port : UInt16} (member : (addrStr, port) ∈ t.keys) :
    ∃ i, t.findPeer addrStr port = some i := by
  cases found : t.findPeer addrStr port with
  | some i => exact ⟨i, rfl⟩
  | none => exact absurd member (PeerTable.findPeer_none_iff.mp found)

/-- A peer that is listed or for whom there is room is listed then. -/
theorem PeerTable.joined_mem
    (short : addrStr.length ≤ 63) (port : UInt16)
    (listed : (addrStr, port) ∈ t.keys ∨ t.count < maxPeers) :
    (addrStr, port) ∈ (t.joined addrStr port).keys := by
  unfold PeerTable.joined
  cases found : t.findPeer addrStr port with
  | some i =>
      rw [Option.isSome_some, if_pos rfl]
      by_contra absent
      rw [PeerTable.findPeer_none_iff.mpr absent] at found
      cases found
  | none =>
      have absent := PeerTable.findPeer_none_iff.mp found
      have room := listed.resolve_left absent
      rw [Option.isSome_none, if_neg Bool.false_ne_true]
      rcases connectionManagerConnect_cases t short port with
        ⟨i, known, -⟩ | ⟨-, full, -⟩ | ⟨-, -, call⟩
      · rw [found] at known
        cases known
      · exact absurd room (Nat.not_lt_of_le full)
      · rw [call]
        unfold PeerTable.keys
        rw [front_push, List.map_append]
        exact List.mem_append_right _ (List.mem_singleton_self _)

/-- What is done to a peer that is listed. -/
theorem PeerTable.atPeer_of_mem
    {port : UInt16} (member : (addrStr, port) ∈ t.keys)
    (change : Peer → Peer) :
    ∃ i, t.findPeer addrStr port = some i ∧ i < t.count ∧
      (t.atPeer addrStr port change).peers i = change (t.peers i) ∧
      (t.peers i).key = (addrStr, port) := by
  obtain ⟨i, found⟩ := findPeer_isSome_of_mem member
  obtain ⟨inside, own⟩ := PeerTable.findPeer_some found
  refine ⟨i, found, inside, ?_, own⟩
  unfold PeerTable.atPeer
  rw [found]
  exact if_pos rfl

theorem PeerTable.named_keys
    {port : UInt16} (member : (addrStr, port) ∈ t.keys) (username : Bytes) :
    (t.named addrStr port username).keys = t.keys := by
  rcases (t.named_changes addrStr port username).1.keys with
    same | ⟨absent, -, -⟩
  · exact same
  · exact absurd member absent

/-- The name that was heard is recorded. -/
theorem PeerTable.heard_records
    (short : addrStr.length ≤ 63) (port : UInt16) {username : Bytes}
    (filled : username ≠ []) (fits : username.length ≤ 31) (now : UInt64)
    (listed : (addrStr, port) ∈ t.keys ∨ t.count < maxPeers) :
    ∃ i, i < (t.heard addrStr port username now).count ∧
      ((t.heard addrStr port username now).peers i).key = (addrStr, port) ∧
      ((t.heard addrStr port username now).peers i).username = username := by
  have whole : snprintfText 32 username = username :=
    List.take_of_length_le fits
  have member := PeerTable.joined_mem short port listed
  have kept := PeerTable.named_keys member username
  obtain ⟨i, found, -, recorded, -⟩ :=
    PeerTable.atPeer_of_mem member fun p =>
      { p with username := snprintfText 32 username }
  obtain ⟨j, found', inside, seen, own⟩ :=
    PeerTable.atPeer_of_mem (kept ▸ member) fun p =>
      { p with lastSeenMs := now, isOnline := true }
  have same : j = i := by
    rw [findPeer_congr kept, found] at found'
    exact (Option.some_inj.mp found').symm
  have name :
      (((t.joined addrStr port).named addrStr port username).peers j).username
        = username := by
    unfold PeerTable.named connectionManagerSetUsername
    rw [if_neg (by simpa using filled), same]
    dsimp only
    rw [recorded, whole]
  have grown := (connectionManagerUpdateLastSeen_changes
    ((t.joined addrStr port).named addrStr port username) addrStr port
    now).count_le
  refine ⟨j, Nat.lt_of_lt_of_le inside grown, ?_, ?_⟩
  · unfold PeerTable.heard connectionManagerUpdateLastSeen
    rw [seen]
    exact own
  · unfold PeerTable.heard connectionManagerUpdateLastSeen
    rw [seen]
    exact name

end

/-! ## Reading a beacon back -/

section

variable {username : Bytes} (port : UInt16)

theorem sendBeacon_eq (fits : username.length ≤ 31) :
    sendBeacon username port =
      leBytes 4 discoveryMagic ++
        (discoveryVersion ::
          (leBytes 2 port.toNat ++
            (UInt8.ofNat username.length :: username))) := by
  unfold sendBeacon
  dsimp only
  rw [Nat.min_eq_left fits, List.take_length]
  simp only [List.append_assoc, List.cons_append, List.nil_append]

theorem beaconPort_sendBeacon (fits : username.length ≤ 31) :
    beaconPort (sendBeacon username port) = port := by
  rw [sendBeacon_eq port fits]
  unfold beaconPort
  change UInt16.ofNat (leNat (leBytes 2 port.toNat)) = port
  have whole : port.toNat % 256 ^ 2 = port.toNat :=
    Nat.mod_eq_of_lt port.toNat_lt
  rw [leNat_leBytes, whole, UInt16.ofNat_toNat]

theorem beaconUsername_sendBeacon
    (fits : username.length ≤ 31) (text : 0 ∉ username) :
    beaconUsername (sendBeacon username port) = username := by
  have byte : (UInt8.ofNat username.length).toNat = username.length := by
    rw [UInt8.toNat_ofNat', Nat.mod_eq_of_lt (by omega)]
  have length :
      (sendBeacon username port).getD 7 0 = UInt8.ofNat username.length := by
    rw [sendBeacon_eq port fits]
    rfl
  have rest : (sendBeacon username port).drop 8 = username := by
    rw [sendBeacon_eq port fits]
    rfl
  have whole : 8 + username.length ≤ (sendBeacon username port).length := by
    rw [sendBeacon_eq port fits]
    simp only [List.length_append, List.length_cons, length_leBytes]
    omega
  unfold beaconUsername
  dsimp only
  rw [length, byte, Nat.min_eq_left fits, if_pos whole, rest,
    List.take_length]
  exact cText_of_not_mem text

/-- A beacon is accepted from everyone but this host. -/
theorem tryRecvBeacon_sendBeacon
    (inetNtop : Nat → Bytes → Bytes) (t : PeerTable) (fromAddr : Bytes)
    (now : UInt64) (fits : username.length ≤ 31) (text : 0 ∉ username)
    (known : beaconSource inetNtop fromAddr ≠ [])
    (foreign : beaconSource inetNtop fromAddr ≠ ascii "::1" ∧
      beaconSource inetNtop fromAddr ≠ ascii "127.0.0.1") :
    tryRecvBeacon inetNtop t (sendBeacon username port) fromAddr now =
      (1, t.heard (beaconSource inetNtop fromAddr) port username now) := by
  have long : ¬ (sendBeacon username port).length < 8 := by
    rw [sendBeacon_eq port fits]
    simp only [List.length_append, List.length_cons, length_leBytes]
    omega
  have magic :
      leNat ((sendBeacon username port).take 4) = discoveryMagic := by
    rw [sendBeacon_eq port fits, List.take_left' (length_leBytes _ _),
      leNat_leBytes]
    rfl
  have version :
      (sendBeacon username port).getD 4 0 = discoveryVersion := by
    rw [sendBeacon_eq port fits]
    rfl
  unfold tryRecvBeacon
  rw [if_neg long, magic, version, if_neg (by decide)]
  dsimp only
  rw [if_neg known, if_neg (not_or.mpr foreign),
    beaconPort_sendBeacon port fits, beaconUsername_sendBeacon port fits text]

end

/-! ## Runs -/

/-- The calls of the connection manager, and a datagram of a sender. -/
inductive PeerAct where
  | connect (addrStr : Option Bytes) (port : UInt16)
  | disconnect
  | updateState (addrStr : Bytes) (port : UInt16) (state : PeerState)
  | setUsername (addrStr : Bytes) (port : UInt16) (username : Option Bytes)
  | updateLastSeen (addrStr : Bytes) (port : UInt16) (now : UInt64)
  | markStale (now timeout : UInt64)
  | beacon (datagram fromAddr : Bytes) (now : UInt64)

section

variable (inetNtop : Nat → Bytes → Bytes)

def peerStep (t : PeerTable) : PeerAct → PeerTable
  | .connect addrStr port => (connectionManagerConnect t addrStr port).2
  | .disconnect => connectionManagerDisconnect t
  | .updateState addrStr port state =>
      connectionManagerUpdateState t addrStr port state
  | .setUsername addrStr port username =>
      connectionManagerSetUsername t addrStr port username
  | .updateLastSeen addrStr port now =>
      connectionManagerUpdateLastSeen t addrStr port now
  | .markStale now timeout => connectionManagerMarkStale t now timeout
  | .beacon datagram fromAddr now =>
      (tryRecvBeacon inetNtop t datagram fromAddr now).2

/-- The peer that an act is about. -/
def PeerAct.names : PeerAct → Option (Bytes × UInt16)
  | .connect addrStr port => addrStr.map fun addrStr => (addrStr, port)
  | .updateState addrStr port _ => some (addrStr, port)
  | .setUsername addrStr port _ => some (addrStr, port)
  | .updateLastSeen addrStr port _ => some (addrStr, port)
  | .beacon datagram fromAddr _ =>
      some (beaconSource inetNtop fromAddr, beaconPort datagram)
  | .disconnect => none
  | .markStale _ _ => none

end

/-- The acts that go over all peers. -/
def PeerAct.Sweeps : PeerAct → Prop
  | .disconnect => True
  | .markStale _ _ => True
  | _ => False

def PeerAct.IsBeacon : PeerAct → Prop
  | .beacon _ _ _ => True
  | _ => False

/-- Addresses of at most 63 bytes and datagrams of at most 64. -/
def PeerAct.Admitted : PeerAct → Prop
  | .connect addrStr _ => ∀ text ∈ addrStr, text.length ≤ 63
  | .updateState addrStr _ _ => addrStr.length ≤ 63
  | .setUsername addrStr _ _ => addrStr.length ≤ 63
  | .updateLastSeen addrStr _ _ => addrStr.length ≤ 63
  | .beacon datagram _ _ => datagram.length ≤ 64
  | .disconnect => True
  | .markStale _ _ => True

/-- What an act does to the table. -/
structure PeerStepEffect
    (inetNtop : Nat → Bytes → Bytes) (t t' : PeerTable) (act : PeerAct) :
    Prop where
  keys :
    t'.keys = t.keys ∨
      ∃ key, act.names inetNtop = some key ∧ key ∉ t.keys ∧
        t.count < maxPeers ∧ t'.keys = t.keys ++ [key]
  others :
    ¬ act.Sweeps → ∀ i, i < t.count →
      some (t.peers i).key ≠ act.names inetNtop → t'.peers i = t.peers i
  states : act.IsBeacon → SameStates t t'

section

variable {inetNtop : Nat → Bytes → Bytes} {t t' : PeerTable} {act : PeerAct}

theorem PeerStepEffect.refl (t : PeerTable) (act : PeerAct) :
    PeerStepEffect inetNtop t t act :=
  ⟨Or.inl rfl, fun _ _ _ _ => rfl, fun _ _ _ => rfl⟩

theorem PeerStepEffect.of_changes
    {key : Bytes × UInt16} (names : act.names inetNtop = some key)
    (changes : ChangesAt t t' key) (states : act.IsBeacon → SameStates t t') :
    PeerStepEffect inetNtop t t' act := by
  refine ⟨?_, fun _ i inside apart => changes.others i inside ?_, states⟩
  · rcases changes.keys with same | ⟨absent, room, longer⟩
    · exact Or.inl same
    · exact Or.inr ⟨key, names, absent, room, longer⟩
  · intro same
    exact apart (by rw [names, same])

theorem PeerStepEffect.of_sweep
    (sweeps : act.Sweeps) (quiet : ¬ act.IsBeacon)
    (same : t'.keys = t.keys) : PeerStepEffect inetNtop t t' act :=
  ⟨Or.inl same, fun other => absurd sweeps other,
    fun beacon => absurd beacon quiet⟩

theorem length_beaconSource_le
    (textual : ∀ family address, (inetNtop family address).length ≤ 45)
    (fromAddr : Bytes) : (beaconSource inetNtop fromAddr).length ≤ 63 := by
  unfold beaconSource
  dsimp only
  split
  · exact Nat.le_trans (textual _ _) (by decide)
  · split
    · exact Nat.le_trans (textual _ _) (by decide)
    · exact Nat.zero_le _

theorem peerStep_effect
    (textual : ∀ family address, (inetNtop family address).length ≤ 45)
    (t : PeerTable) (act : PeerAct) (admitted : act.Admitted) :
    PeerStepEffect inetNtop t (peerStep inetNtop t act) act := by
  cases act with
  | connect addrStr port =>
      cases addrStr with
      | none => exact PeerStepEffect.refl t _
      | some addrStr =>
          exact PeerStepEffect.of_changes rfl
            (connectionManagerConnect_changes t (admitted addrStr rfl) port)
            False.elim
  | disconnect =>
      refine PeerStepEffect.of_sweep trivial id (t.forPeers_keys _ ?_)
      exact fun _ => rfl
  | updateState addrStr port state =>
      exact PeerStepEffect.of_changes rfl
        (connectionManagerUpdateState_changes t addrStr port state) False.elim
  | setUsername addrStr port username =>
      exact PeerStepEffect.of_changes rfl
        (connectionManagerSetUsername_changes t addrStr port username)
        False.elim
  | updateLastSeen addrStr port now =>
      exact PeerStepEffect.of_changes rfl
        (connectionManagerUpdateLastSeen_changes t addrStr port now) False.elim
  | markStale now timeout =>
      refine PeerStepEffect.of_sweep trivial id (t.forPeers_keys _ ?_)
      exact fun _ => rfl
  | beacon datagram fromAddr now =>
      have short := length_beaconSource_le textual fromAddr
      unfold peerStep tryRecvBeacon
      dsimp only
      split
      · exact PeerStepEffect.refl t _
      · split
        · exact PeerStepEffect.refl t _
        · split
          · exact PeerStepEffect.refl t _
          · split
            · exact PeerStepEffect.refl t _
            · obtain ⟨changes, states⟩ :=
                t.heard_changes short (beaconPort datagram)
                  (beaconUsername datagram) now
              exact PeerStepEffect.of_changes rfl changes fun _ => states

theorem PeerTable.Sound.step
    (sound : t.Sound) (effect : PeerStepEffect inetNtop t t' act) :
    t'.Sound := by
  rcases effect.keys with same | ⟨key, -, absent, room, longer⟩
  · exact sound.of_keys same
  · exact sound.of_append absent room longer

theorem PeerTable.Sound.run
    (textual : ∀ family address, (inetNtop family address).length ≤ 45)
    (sound : t.Sound) (acts : List PeerAct)
    (admitted : ∀ act ∈ acts, act.Admitted) :
    (acts.foldl (peerStep inetNtop) t).Sound := by
  induction acts generalizing t with
  | nil => exact sound
  | cons act rest inductionHypothesis =>
      rw [List.forall_mem_cons] at admitted
      exact inductionHypothesis
        (sound.step (peerStep_effect textual t act admitted.1)) admitted.2

end

/-- After any calls and datagrams the table has at most 32 peers, none twice.
An act adds at most the peer it names, behind all others, changes no other
entry unless it goes over all of them, and a beacon changes the state of no
peer that is listed.  A beacon of another host records the name it was sent
with. -/
theorem peer_directory
    (inetNtop : Nat → Bytes → Bytes)
    (textual : ∀ family address, (inetNtop family address).length ≤ 45)
    (acts : List PeerAct) (admitted : ∀ act ∈ acts, act.Admitted) :
    let t := acts.foldl (peerStep inetNtop) {}
    (t.count ≤ maxPeers ∧ t.keys.Nodup) ∧
      (∀ act, act.Admitted →
        PeerStepEffect inetNtop t (peerStep inetNtop t act) act) ∧
      ∀ username port fromAddr now, username ≠ [] → username.length ≤ 31 →
        0 ∉ username →
        beaconSource inetNtop fromAddr ∉
          [[], ascii "::1", ascii "127.0.0.1"] →
        ((beaconSource inetNtop fromAddr, port) ∈ t.keys ∨
          t.count < maxPeers) →
        let t' :=
          (tryRecvBeacon inetNtop t (sendBeacon username port) fromAddr now).2
        ∃ i, i < t'.count ∧
          (t'.peers i).key = (beaconSource inetNtop fromAddr, port) ∧
          (t'.peers i).username = username := by
  intro t
  have empty : PeerTable.Sound {} := ⟨Nat.zero_le _, List.nodup_nil⟩
  have sound := empty.run textual acts admitted
  refine ⟨⟨sound.fits, sound.distinct⟩, peerStep_effect textual t, ?_⟩
  intro username port fromAddr now filled fits text foreign listed t'
  rw [List.mem_cons, List.mem_cons, List.mem_singleton, not_or, not_or]
    at foreign
  have short := length_beaconSource_le textual fromAddr
  have received := tryRecvBeacon_sendBeacon port inetNtop t fromAddr now fits
    text foreign.1 foreign.2
  have heard : t' =
      t.heard (beaconSource inetNtop fromAddr) port username now :=
    congrArg Prod.snd received
  rw [heard]
  exact PeerTable.heard_records short port filled fits now listed

/-- A beacon of `bob` from 10.0.0.2 comes while another peer is listed. -/
theorem peer_directory_one_beacon :
    ∃ i,
      i <
        (tryRecvBeacon (fun _ _ => ascii "10.0.0.2")
          ([.connect (some (ascii "10.0.0.7")) 9000].foldl
            (peerStep fun _ _ => ascii "10.0.0.2") {})
          (sendBeacon (ascii "bob") 9000)
          ([2, 0, 0, 0, 10, 0, 0, 2] ++ zeros 20) 5).2.count ∧
        ((tryRecvBeacon (fun _ _ => ascii "10.0.0.2")
          ([.connect (some (ascii "10.0.0.7")) 9000].foldl
            (peerStep fun _ _ => ascii "10.0.0.2") {})
          (sendBeacon (ascii "bob") 9000)
          ([2, 0, 0, 0, 10, 0, 0, 2] ++ zeros 20) 5).2.peers i).key =
            (ascii "10.0.0.2", 9000) ∧
        ((tryRecvBeacon (fun _ _ => ascii "10.0.0.2")
          ([.connect (some (ascii "10.0.0.7")) 9000].foldl
            (peerStep fun _ _ => ascii "10.0.0.2") {})
          (sendBeacon (ascii "bob") 9000)
          ([2, 0, 0, 0, 10, 0, 0, 2] ++ zeros 20) 5).2.peers i).username =
            ascii "bob" :=
  (peer_directory (fun _ _ => ascii "10.0.0.2")
    (fun _ _ => (by decide : (ascii "10.0.0.2").length ≤ 45))
    [.connect (some (ascii "10.0.0.7")) 9000]
    (List.forall_mem_singleton.mpr fun text same => by
      cases same
      decide)).2.2 (ascii "bob") 9000 ([2, 0, 0, 0, 10, 0, 0, 2] ++ zeros 20)
    5 (by decide) (by decide) (by decide) (by decide) (Or.inr (by decide))

end PqComm
