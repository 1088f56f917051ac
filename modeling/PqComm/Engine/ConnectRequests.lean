import PqComm.Engine.Control

/-!
# Connect requests from the wire into the table

`conn_request_build` writes two names, each behind its length, and
`conn_request_handle` computes the places of the names again from the lengths
it reads.  The request is kept in the first free entry of a shared table.
-/

namespace PqComm

open Lib

/-! ## The fields -/

/-- A text behind a byte with its length. -/
def prefixed (text : Bytes) : Bytes :=
  UInt8.ofNat text.length :: text

@[simp]
theorem length_prefixed (text : Bytes) :
    (prefixed text).length = 1 + text.length := by
  rw [prefixed, List.length_cons, Nat.add_comm]

/-- The length and the text are read back from where they were written. -/
theorem read_prefixed
    {mem : Mem} {off : Nat} {text : Bytes} (short : text.length < 256)
    (written : memSlice mem off (1 + text.length) = prefixed text) :
    (mem off).toNat = text.length ∧
      memSlice mem (off + 1) text.length = text := by
  rw [memSlice_append] at written
  have head : memSlice mem off 1 = [mem off] := rfl
  rw [head, prefixed, List.singleton_append] at written
  injection written with length rest
  refine ⟨?_, rest⟩
  rw [length, UInt8.toNat_ofNat', Nat.mod_eq_of_lt short]

/-- The payload of a connect request. -/
def connRequestPayload (username displayName : Bytes) : Bytes :=
  ctrlConnectRequest :: (prefixed username ++ prefixed displayName)

/-- What the decoder finds in a buffer that holds the payload. -/
structure CarriesRequest (p : PacketBuf) (username displayName : Bytes) :
    Prop where
  isRequest : p.opcode = ctrlConnectRequest
  nameLength : (p.data 25).toNat = username.length
  name : memSlice p.data 26 username.length = username
  displayLength :
    (p.data (26 + username.length)).toNat = displayName.length
  display :
    memSlice p.data (27 + username.length) displayName.length = displayName

theorem CarriesRequest.of_payload
    {p : PacketBuf} {username displayName : Bytes}
    (shortName : username.length ≤ 31)
    (shortDisplay : displayName.length ≤ 63)
    (payload :
      memSlice p.data 24 (connRequestPayload username displayName).length =
        connRequestPayload username displayName) :
    CarriesRequest p username displayName := by
  have size :
      (connRequestPayload username displayName).length =
        1 + ((1 + username.length) + (1 + displayName.length)) := by
    simp only [connRequestPayload, List.length_cons, List.length_append,
      length_prefixed]
    omega
  rw [size, memSlice_append, memSlice_append] at payload
  have head : memSlice p.data 24 1 = [p.data 24] := rfl
  rw [head, connRequestPayload, List.singleton_append] at payload
  injection payload with opcode names
  obtain ⟨first, second⟩ := List.append_inj names (by simp)
  obtain ⟨nameLength, name⟩ :=
    read_prefixed (Nat.lt_of_le_of_lt shortName (by decide)) first
  have place : 24 + 1 + (1 + username.length) = 26 + username.length := by
    omega
  rw [place] at second
  obtain ⟨displayLength, display⟩ :=
    read_prefixed (Nat.lt_of_le_of_lt shortDisplay (by decide)) second
  have next : 26 + username.length + 1 = 27 + username.length := by
    omega
  rw [next] at display
  exact ⟨opcode, nameLength, name, displayLength, display⟩

/-- What follows the header on the wire does not depend on the buffer. -/
theorem payload_of_same_wire
    {p q : PacketBuf} (same : p.wire = q.wire) {n : Nat}
    (size : q.len = 24 + n) :
    memSlice p.data 24 n = memSlice q.data 24 n := by
  have length := congrArg List.length same
  rw [PacketBuf.wire, PacketBuf.wire, length_memSlice, length_memSlice]
    at length
  rw [PacketBuf.wire, PacketBuf.wire, length, size, memSlice_append,
    memSlice_append] at same
  exact (List.append_inj same (by simp)).2

section

variable (s : Session) (buf : PacketBuf) (seq : UInt32)
  {username displayName : Bytes}

/-- The packet that `conn_request_build` sends. -/
def connRequestPacket (username displayName : Bytes) : PacketBuf :=
  (controlPacket buf false s.sessionId seq
    (connRequestPayload username displayName)).sendTo s.addr

theorem connRequestBuild_short
    (shortName : username.length ≤ 31)
    (shortDisplay : displayName.length ≤ 63) :
    connRequestBuild s (some buf) seq username displayName =
      { ret := 0
        sess := s
        seq := seq + 1
        out := some (connRequestPacket s buf seq username displayName) } := by
  unfold connRequestBuild
  rw [if_neg (by omega)]
  rfl

/-- A built request, wherever it arrives. -/
theorem carriesRequest_received
    {received : PacketBuf} (shortName : username.length ≤ 31)
    (shortDisplay : displayName.length ≤ 63)
    (same :
      received.wire = (connRequestPacket s buf seq username displayName).wire) :
    CarriesRequest received username displayName := by
  refine CarriesRequest.of_payload shortName shortDisplay ?_
  rw [payload_of_same_wire same rfl]
  exact buildPacket_payload buf false 0 s.sessionId chControl seq
    (connRequestPayload username displayName)

end

/-! ## The table -/

section

variable {table : ConnRequestTable}

/-- The entry that is taken is free and within the table. -/
theorem free_of_exists
    (free : ∃ i, i < connRequestMaxPending ∧ table i = none) :
    ∃ slot, table.free = some slot ∧ slot < connRequestMaxPending ∧
      table slot = none := by
  cases found : table.free with
  | none =>
      obtain ⟨i, inside, empty⟩ := free
      have taken := List.find?_range_eq_none.mp found i inside
      rw [empty] at taken
      cases taken
  | some slot =>
      obtain ⟨empty, inside, -⟩ := List.find?_range_eq_some.mp found
      exact ⟨slot, rfl, List.mem_range.mp inside,
        Option.isNone_iff_eq_none.mp empty⟩

/-- The table with a request in one of its entries. -/
def ConnRequestTable.keep
    (table : ConnRequestTable) (slot : Nat) (request : PendingRequest) :
    ConnRequestTable :=
  fun i => if i = slot then some request else table i

/-- Whether a request comes from an address. -/
def PendingRequest.isFrom (request : PendingRequest) (addr : Bytes) : Prop :=
  request.addr = sin6Addr addr ∧ request.port = ntohs (sinPort addr)

/-- The only request from an address is the one that is found. -/
theorem connRequestFind_of_unique
    {addr : Bytes} {slot : Nat} {request : PendingRequest}
    (inside : slot < connRequestMaxPending) (entry : table slot = some request)
    (own : request.isFrom addr)
    (others : ∀ i other, i < connRequestMaxPending → i ≠ slot →
      table i = some other → ¬ other.isFrom addr) :
    connRequestFind table addr = some request := by
  obtain ⟨sameAddr, samePort⟩ := own
  refine List.find?_filterMap.trans ?_
  have first :
      ((List.range connRequestMaxPending).find? fun i =>
        (table i).any fun request =>
          request.addr == sin6Addr addr &&
            request.port == ntohs (sinPort addr)) = some slot := by
    refine List.find?_range_eq_some.mpr
      ⟨?_, List.mem_range.mpr inside, fun i before => ?_⟩
    · rw [entry]
      simp [sameAddr, samePort]
    · cases held : table i with
      | none => rfl
      | some other =>
          have apart := others i other (Nat.lt_trans before inside)
            (Nat.ne_of_lt before) held
          have differs :
              (other.addr == sin6Addr addr &&
                other.port == ntohs (sinPort addr)) = false := by
            rw [Bool.eq_false_iff]
            intro both
            rw [Bool.and_eq_true, beq_iff_eq, beq_iff_eq] at both
            exact apart both
          rw [Option.any_some, differs]
          rfl
  rw [first]
  exact entry

end

/-- A request that was built for any session and arrives from an address that
has no request yet is kept in a free entry with its exact names and is the one
found for that address; all other requests stay. -/
theorem connRequest_round_trip
    (s : Session) (buf : PacketBuf) (seq : UInt32)
    (username displayName : Bytes) (shortName : username.length ≤ 31)
    (shortDisplay : displayName.length ≤ 63) (table : ConnRequestTable)
    (source : Bytes) (now : UInt64)
    (free : ∃ i, i < connRequestMaxPending ∧ table i = none)
    (unknown : ∀ i request, i < connRequestMaxPending →
      table i = some request → ¬ request.isFrom source) :
    ∃ p, connRequestBuild s (some buf) seq username displayName =
        { ret := 0, sess := s, seq := seq + 1, out := some p } ∧
      ∀ received : PacketBuf, received.wire = p.wire →
        received.addr = source →
        ∃ after, connRequestHandle table received true true now = (1, after) ∧
          connRequestFind after source =
            some
              { addr := sin6Addr source
                port := ntohs (sinPort source)
                username := username
                displayName := displayName
                timestampMs := now } ∧
          ∀ i request, table i = some request → after i = some request := by
  refine ⟨connRequestPacket s buf seq username displayName,
    connRequestBuild_short s buf seq shortName shortDisplay,
    fun received same sender => ?_⟩
  have carries : CarriesRequest received username displayName :=
    carriesRequest_received s buf seq shortName shortDisplay same
  obtain ⟨slot, taken, inside, empty⟩ := free_of_exists free
  refine ⟨table.keep slot
    { addr := sin6Addr source
      port := ntohs (sinPort source)
      username := username
      displayName := displayName
      timestampMs := now }, ?_, ?_, ?_⟩
  · unfold connRequestHandle
    rw [if_neg (by decide), if_pos carries.isRequest, if_neg (by decide)]
    dsimp only
    rw [carries.nameLength, if_neg (by omega), taken]
    dsimp only
    rw [carries.displayLength, Nat.min_eq_left shortDisplay, carries.name,
      carries.display, sender]
    rfl
  · refine connRequestFind_of_unique inside (if_pos rfl) ⟨rfl, rfl⟩ ?_
    intro i other below apart held
    rw [ConnRequestTable.keep, if_neg apart] at held
    exact unknown i other below held
  · intro i request held
    have apart : i ≠ slot := by
      intro equal
      rw [equal, empty] at held
      cases held
    rw [ConnRequestTable.keep, if_neg apart]
    exact held

/-- A request of `ab`, shown as `c`, comes to an empty table. -/
theorem connRequest_round_trip_empty_table :
    ∃ p, connRequestBuild sessionInit (some default) 0 [97, 98] [99] =
        { ret := 0, sess := sessionInit, seq := 1, out := some p } ∧
      ∀ received : PacketBuf, received.wire = p.wire →
        received.addr = zeros 28 →
        ∃ after,
          connRequestHandle (fun _ => none) received true true 5 =
            (1, after) ∧
          connRequestFind after (zeros 28) =
            some
              { addr := zeros 16
                port := 0
                username := [97, 98]
                displayName := [99]
                timestampMs := 5 } ∧
          ∀ i request,
            (none : Option PendingRequest) = some request →
              after i = some request :=
  connRequest_round_trip sessionInit default 0 [97, 98] [99] (by decide)
    (by decide) (fun _ => none) (zeros 28) 5 ⟨0, by decide, rfl⟩
    fun _ _ _ held => by cases held

end PqComm
