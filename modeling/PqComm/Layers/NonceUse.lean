import PqComm.Layers.SessionEnc

/-!
# Nonces of one locked session

The two endpoints of a locked session hold one session key and one session
identifier, and each numbers the packets it builds with a counter of its own.
`nonceUses` is the list of key and nonce pairs that the successful
`session_enc_apply` calls of a run consume, whoever makes them.

The nonce names neither the sender nor the upper half of the sequence number,
so a pair is used once exactly as long as no two sealed packets of one channel
have sequence numbers that agree modulo `2 ^ 16`.
-/

namespace PqComm

open Lib

/-- The endpoints of one locked session and their counters. -/
structure LockedPair where
  session : Side → Session
  seqCounter : Side → UInt32
  locked : ∀ side, (session side).state = .locked
  sameKey :
    (session .left).keys.sessionKey = (session .right).keys.sessionKey
  sameId : (session .left).sessionId = (session .right).sessionId

/-- One packet a side builds and passes to `session_enc_apply`. -/
structure TxCall where
  side : Side
  buf : PacketBuf
  clear : Bool
  channel : UInt8
  payload : Bytes

/-- `(*seq_counter)++`. -/
def bump (counter : Side → UInt32) (side : Side) : Side → UInt32 :=
  fun s => if s = side then counter s + 1 else counter s

section

variable (C : CryptoSuite)

/-- The key and the nonce a successful encryption of `p` uses. -/
def nonceUse (sess : Session) (p : PacketBuf) : Option (Bytes × Bytes) :=
  match packetParse p with
  | none =>
      none
  | some v =>
      let result := sessionEncApply C p v sess
      if result.1 ∧ result.2.data 5 &&& packetFlagEncrypted ≠ 0 then
        some (sess.keys.sessionKey, memSlice result.2.data headerSize 12)
      else
        none

/-- The packet a call builds with sequence number `seq`. -/
def TxCall.packet (call : TxCall) (sess : Session) (seq : UInt32) :
    PacketBuf :=
  buildPacket call.buf call.clear 0 sess.sessionId call.channel seq
    call.payload

/-- A run of the pair: every call draws the counter of its side. -/
def nonceUses (pair : LockedPair) :
    (Side → UInt32) → List TxCall → List (Bytes × Bytes)
  | _, [] => []
  | counter, call :: rest =>
      let sess := pair.session call.side
      (nonceUse C sess (call.packet sess (counter call.side))).toList ++
        nonceUses pair (bump counter call.side) rest

end

/-- The call is one that `session_enc_apply` encrypts. -/
def TxCall.Encrypts (call : TxCall) : Prop :=
  call.channel ≠ chControl ∧ call.payload.length ≤ 1476

/-- Every call with the sequence number it draws: the start value of its side
plus the number of packets that side has built before. -/
def draws (counter : Side → UInt32) (calls : List TxCall) :
    List (TxCall × UInt32) :=
  calls.mapIdx fun i call =>
    (call,
      counter call.side +
        UInt32.ofNat ((calls.take i).countP (·.side = call.side)))

/-- Sealed packets of one channel draw numbers that differ modulo
`2 ^ 16`. -/
def DrawsApart (counter : Side → UInt32) (calls : List TxCall) : Prop :=
  (draws counter calls).Pairwise fun first second =>
    first.1.Encrypts → second.1.Encrypts →
      first.1.channel = second.1.channel →
        first.2.toNat % 65536 ≠ second.2.toNat % 65536

/-! ## One call -/

/-- A call uses a nonce exactly when it encrypts. -/
theorem nonceUse_packet
    (C : CryptoSuite) {sess : Session} (call : TxCall) (seq : UInt32)
    (locked : sess.state = .locked) (use : Bytes × Bytes) :
    nonceUse C sess (call.packet sess seq) = some use ↔
      call.Encrypts ∧
        use =
          (sess.keys.sessionKey,
            encNonce sess.sessionId call.channel seq) := by
  unfold nonceUse TxCall.packet
  by_cases fits : call.payload.length ≤ 1476
  · rw [packetParse_buildPacket _ _ _ _ _ _ _ (by decide) fits]
    dsimp only
    by_cases control : call.channel = chControl
    · have plain :
          sessionEncApply C
              (buildPacket call.buf call.clear 0 sess.sessionId call.channel
                seq call.payload)
              (builtView call.buf call.clear 0 sess.sessionId call.channel
                seq call.payload) sess =
            (true,
              buildPacket call.buf call.clear 0 sess.sessionId call.channel
                seq call.payload) := by
        simp [sessionEncApply, builtView, control]
      rw [plain, buildPacket_flags]
      simp [TxCall.Encrypts, control]
    · rw [sessionEncApply_buildPacket C _ _ _ _ _ _ _ locked control fits]
      have nonce :
          memSlice
              (buildPacket call.buf call.clear packetFlagEncrypted
                sess.sessionId call.channel seq
                (encPayload C call.buf call.clear sess.sessionId
                  call.channel seq call.payload sess)).data
              headerSize 12 =
            encNonce sess.sessionId call.channel seq := by
        have slice := buildPacket_payload_slice call.buf call.clear
          packetFlagEncrypted sess.sessionId call.channel seq
          (encPayload C call.buf call.clear sess.sessionId call.channel
            seq call.payload sess)
          (by rw [length_encPayload]; omega : 0 + 12 ≤ _)
        rw [List.drop_zero, encPayload,
          List.take_left' (length_encNonce _ _ _)] at slice
        exact slice
      rw [buildPacket_flags, nonce]
      simp [TxCall.Encrypts, control, fits, packetFlagEncrypted, eq_comm]
  · rw [packetParse_buildPacket_eq_none _ _ _ _ _ _ _ (by omega)]
    simp [TxCall.Encrypts, fits]

/-! ## A run -/

theorem draws_cons
    (counter : Side → UInt32) (call : TxCall) (rest : List TxCall) :
    draws counter (call :: rest) =
      (call, counter call.side) :: draws (bump counter call.side) rest := by
  simp only [draws, List.mapIdx_cons, List.take_zero, List.countP_nil,
    List.take_succ_cons, List.countP_cons]
  congr 1
  · simp
  · rw [List.mapIdx_eq_mapIdx_iff]
    intro i inside
    simp only [bump, Prod.mk.injEq, true_and]
    by_cases same : call.side = (rest[i]).side
    · simp only [same, decide_true, if_true, UInt32.ofNat_add]
      rw [UInt32.add_assoc, UInt32.add_comm 1]
      rfl
    · simp [same, Ne.symm same]

/-- The uses of a run are those of its draws, in order. -/
theorem nonceUses_eq
    (C : CryptoSuite) (pair : LockedPair) (counter : Side → UInt32)
    (calls : List TxCall) :
    nonceUses C pair counter calls =
      (draws counter calls).filterMap fun draw =>
        nonceUse C (pair.session draw.1.side)
          (draw.1.packet (pair.session draw.1.side) draw.2) := by
  induction calls generalizing counter with
  | nil =>
      rfl
  | cons call rest inductionHypothesis =>
      rw [nonceUses, draws_cons, List.filterMap_cons, inductionHypothesis]
      cases nonceUse C (pair.session call.side)
          (call.packet (pair.session call.side) (counter call.side)) with
      | none =>
          rfl
      | some use =>
          rfl

theorem LockedPair.sessionId_eq (pair : LockedPair) (one two : Side) :
    (pair.session one).sessionId = (pair.session two).sessionId := by
  cases one <;> cases two <;> simp [pair.sameId]

theorem LockedPair.sessionKey_eq (pair : LockedPair) (one two : Side) :
    (pair.session one).keys.sessionKey =
      (pair.session two).keys.sessionKey := by
  cases one <;> cases two <;> simp [pair.sameKey]

/-- No key and nonce pair is used twice exactly when the sealed packets of
each channel draw numbers that differ modulo `2 ^ 16`. -/
theorem nonceUses_nodup_iff
    (C : CryptoSuite) (pair : LockedPair) (calls : List TxCall) :
    (nonceUses C pair pair.seqCounter calls).Nodup ↔
      DrawsApart pair.seqCounter calls := by
  rw [nonceUses_eq, List.Nodup, List.pairwise_filterMap, DrawsApart]
  apply List.Pairwise.iff
  intro first second
  simp only [nonceUse_packet C _ _ (pair.locked _)]
  have collide :
      (((pair.session first.1.side).keys.sessionKey,
          encNonce (pair.session first.1.side).sessionId first.1.channel
            first.2) =
        ((pair.session second.1.side).keys.sessionKey,
          encNonce (pair.session second.1.side).sessionId second.1.channel
            second.2)) ↔
      first.1.channel = second.1.channel ∧
        first.2.toNat % 65536 = second.2.toNat % 65536 := by
    rw [pair.sessionKey_eq first.1.side second.1.side,
      pair.sessionId_eq first.1.side second.1.side, Prod.mk.injEq,
      encNonce_eq_iff]
    simp
  constructor
  · intro distinct firstSealed secondSealed channel agree
    exact distinct _ ⟨firstSealed, rfl⟩ _ ⟨secondSealed, rfl⟩
      (collide.mpr ⟨channel, agree⟩)
  · rintro apart _ ⟨firstSealed, rfl⟩ _ ⟨secondSealed, rfl⟩ same
    obtain ⟨channel, agree⟩ := collide.mp same
    exact apart firstSealed secondSealed channel agree

/-- Two endpoints that have just locked, with fresh counters. -/
def freshPair : LockedPair where
  session := fun _ => { sessionId := 7, state := .locked }
  seqCounter := fun _ => 1
  locked := fun _ => rfl
  sameKey := rfl
  sameId := rfl

/-- The first chat message of a side: a letter and the terminator. -/
def firstChat (side : Side) (letter : UInt8) : TxCall :=
  { side := side, buf := default, clear := false, channel := chChat
    payload := [letter, 0] }

/-- The first messages of the two sides are sealed with one nonce. -/
theorem nonceUses_first_chats_collide :
    ¬ (nonceUses sampleSuite freshPair freshPair.seqCounter
        [firstChat .left 0x68, firstChat .right 0x79]).Nodup := by
  decide +kernel

end PqComm
