import PqComm.Core.Session
import Mathlib.Tactic.IntervalCases

/-!
# Session encryption

`session_enc_check` and `session_enc_apply` of `session_enc.c`.

A packet built without flags and sealed by `session_enc_apply` is the packet
one would build with the encrypted flag and the payload nonce, ciphertext,
tag.  `sessionEncApply_buildPacket` says so, and everything else about sealed
packets is read off from it.
-/

namespace PqComm

open Lib

/-- `build_aad`, which `session_enc_apply` repeats inline: the header without
the encrypted flag, folded with the channel key. -/
def buildAad (keys : SessionKeys) (channel : UInt8) (d : Mem) : Bytes :=
  let aad :=
    memSlice (memWrite d 5 [d 5 &&& ~~~packetFlagEncrypted]) 0 headerSize
  if channel < 6 then
    xorBytes aad (keys.channelKeys.getD channel.toNat [])
  else
    aad

/-- The nonce of `session_enc_apply`: only the low half of the sequence number
enters it. -/
def encNonce (sessionId : UInt64) (channel : UInt8) (seq : UInt32) : Bytes :=
  leBytes 8 sessionId.toNat ++
    [channel, 0, UInt8.ofNat (seq.toNat / 256), UInt8.ofNat seq.toNat]

section

variable (C : CryptoSuite)

/-- `session_enc_check`: the packet is decrypted in place.  `none` stands for
-1. -/
def sessionEncCheck (v : PacketView) (sess : Session) :
    Session × Option PacketView :=
  if sess.state ≠ .locked then
    (sess, some v)
  else if v.channelId = chControl then
    (sess, some v)
  else
    match
      aeadDecrypt C sess.keys.sessionKey v.nonce
        (buildAad sess.keys v.channelId v.buf.data) v.payloadBytes v.tag with
    | none =>
        ({ sess with hs := { sess.hs with lastError := hsErrBadIdentity } },
          none)
    | some plain =>
        (sess,
          some
            { v with
              encrypted := false
              buf :=
                { v.buf with
                  data := memWrite v.buf.data v.payload plain } })

/-- `session_enc_apply`: whether it returned 0, and the buffer it leaves.  The
length field is written before the cipher can fail. -/
def sessionEncApply (p : PacketBuf) (v : PacketView) (sess : Session) :
    Bool × PacketBuf :=
  if sess.state ≠ .locked then
    (true, p)
  else if v.channelId = chControl then
    (true, p)
  else
    let encLen := aeadNonceSize + v.length + aeadTagSize
    let d := memWrite p.data 19 (leBytes 4 encLen)
    let nonce := encNonce sess.sessionId v.channelId v.seq
    match
      aeadEncrypt C sess.keys.sessionKey nonce
        (buildAad sess.keys v.channelId d)
        (memSlice d v.payload v.length) with
    | none =>
        (false, { p with data := d })
    | some (cipher, tag) =>
        let d := memWrite d (headerSize + aeadNonceSize) cipher
        let d := memWrite d 5 [d 5 ||| packetFlagEncrypted]
        let d := memWrite d headerSize nonce
        let d := memWrite d (headerSize + aeadNonceSize + v.length) tag
        (true, { p with len := headerSize + encLen, data := d })

/-- `encrypt_tx_packet` of the engine. -/
def encryptTxPacket (p : PacketBuf) (sess : Session) : Bool × PacketBuf :=
  match packetParse p with
  | none =>
      (false, p)
  | some v =>
      if v.channelId = chControl then
        (true, p)
      else
        sessionEncApply C p v sess

/-- The AEAD tag of a view verifies under the session key. -/
def TagVerifies (sess : Session) (v : PacketView) : Prop :=
  ∃ plain,
    aeadDecrypt C sess.keys.sessionKey v.nonce
      (buildAad sess.keys v.channelId v.buf.data) v.payloadBytes v.tag =
        some plain

end

/-- On the data channels of a locked session the check succeeds only when the
tag verifies. -/
theorem tagVerifies_of_sessionEncCheck
    {C : CryptoSuite} {v v' : PacketView} {sess : Session}
    (locked : sess.state = .locked) (data : v.channelId ≠ chControl)
    (checked : (sessionEncCheck C v sess).2 = some v') :
    TagVerifies C sess v := by
  unfold sessionEncCheck at checked
  rw [if_neg (by simpa using locked), if_neg data] at checked
  split at checked
  · cases checked
  · rename_i plain opened
    exact ⟨plain, opened⟩

/-! ## The nonce -/

@[simp]
theorem length_encNonce
    (sessionId : UInt64) (channel : UInt8) (seq : UInt32) :
    (encNonce sessionId channel seq).length = 12 := by
  simp [encNonce]

private theorem low_half_eq_iff (left right : UInt32) :
    (UInt8.ofNat (left.toNat / 256) = UInt8.ofNat (right.toNat / 256) ∧
        UInt8.ofNat left.toNat = UInt8.ofNat right.toNat) ↔
      left.toNat % 65536 = right.toNat % 65536 := by
  simp only [← UInt8.toNat_inj, UInt8.toNat_ofNat']
  omega

/-- Two nonces of one session agree exactly when the channels agree and the
sequence numbers agree modulo `2 ^ 16`. -/
theorem encNonce_eq_iff
    (sessionId : UInt64) (leftChannel rightChannel : UInt8)
    (leftSeq rightSeq : UInt32) :
    encNonce sessionId leftChannel leftSeq =
        encNonce sessionId rightChannel rightSeq ↔
      leftChannel = rightChannel ∧
        leftSeq.toNat % 65536 = rightSeq.toNat % 65536 := by
  rw [← low_half_eq_iff]
  simp [encNonce]

/-! ## Sealing a built packet -/

section Sealing

variable (C : CryptoSuite) (buf : PacketBuf) (clear : Bool)
  (sessionId : UInt64) (channel : UInt8) (seq : UInt32) (payload : Bytes)
  (sess : Session)

/-- What `session_enc_apply` puts behind the header of a built packet. -/
def encPayload : Bytes :=
  let nonce := encNonce sess.sessionId channel seq
  let header :=
    memWrite
      (buildPacket buf clear 0 sessionId channel seq payload).data 19
      (leBytes 4 (28 + payload.length))
  let sealed :=
    C.aeadSeal sess.keys.sessionKey nonce
      (buildAad sess.keys channel header) payload
  nonce ++ (sealed.1 ++ sealed.2)

@[simp]
theorem length_encPayload :
    (encPayload C buf clear sessionId channel seq payload sess).length =
      28 + payload.length := by
  simp only [encPayload, List.length_append, length_encNonce]
  rw [(C.length_aeadSeal _ _ _ _).1, (C.length_aeadSeal _ _ _ _).2]
  omega

private theorem sealed_header_at
    (mem : Mem) (pad : UInt8) (length sealedLength : Nat) {i : Nat}
    (inside : i < 24) :
    memWrite
        (memWrite
          (memWrite mem 0 (packetHeader pad 0 sessionId channel seq length))
          19 (leBytes 4 sealedLength))
        5 [packetFlagEncrypted] i =
      memWrite mem 0
        (packetHeader pad packetFlagEncrypted sessionId channel seq
          sealedLength) i := by
  have header : i < 0 + (packetHeader pad packetFlagEncrypted sessionId
      channel seq sealedLength).length := by
    simpa using inside
  rw [memWrite_inside (Nat.zero_le i) header]
  interval_cases i <;> rfl

/-- The writes of `session_enc_apply` on a built packet, in its order, give
the packet built from the sealed payload. -/
private theorem sealed_data
    (mem : Mem) (pad : UInt8) (nonce cipher tag : Bytes)
    (nonceLength : nonce.length = 12)
    (cipherLength : cipher.length = payload.length)
    (tagLength : tag.length = 16) :
    memWrite
        (memWrite
          (memWrite
            (memWrite
              (memWrite
                (memWrite mem 0
                  (packetHeader pad 0 sessionId channel seq payload.length ++
                    payload))
                19 (leBytes 4 (28 + payload.length)))
              36 cipher)
            5 [packetFlagEncrypted])
          24 nonce)
        (36 + payload.length) tag =
      memWrite mem 0
        (packetHeader pad packetFlagEncrypted sessionId channel seq
          (28 + payload.length) ++ (nonce ++ (cipher ++ tag))) := by
  simp only [memWrite_append, length_packetHeader, nonceLength, cipherLength,
    Nat.zero_add, Nat.reduceAdd]
  funext i
  -- The six blocks of the packet, from the tag down to the header.
  by_cases behind : 36 + payload.length + 16 ≤ i
  · rw [memWrite_after (by omega), memWrite_after (by omega),
      memWrite_after (by simp; omega), memWrite_after (by omega),
      memWrite_after (by simp; omega), memWrite_after (by omega),
      memWrite_after (by simp; omega), memWrite_after (by omega),
      memWrite_after (by omega), memWrite_after (by omega),
      memWrite_after (by simp; omega)]
  by_cases inTag : 36 + payload.length ≤ i
  · rw [memWrite_inside inTag (by omega), memWrite_inside inTag (by omega)]
  have beforeTag : i < 36 + payload.length := by
    omega
  rw [memWrite_before beforeTag, memWrite_before beforeTag]
  by_cases inCipher : 36 ≤ i
  · rw [memWrite_after (by omega : 24 + nonce.length ≤ i),
      memWrite_after (by simp; omega : 5 + [packetFlagEncrypted].length ≤ i),
      memWrite_inside inCipher (by omega),
      memWrite_inside inCipher (by omega)]
  have beforeCipher : i < 36 := by
    omega
  by_cases inNonce : 24 ≤ i
  · rw [memWrite_inside inNonce (by omega), memWrite_before beforeCipher,
      memWrite_inside inNonce (by omega)]
  have inHeader : i < 24 := by
    omega
  rw [memWrite_before inHeader, memWrite_before beforeCipher,
    memWrite_before inHeader,
    ← sealed_header_at sessionId channel seq mem pad payload.length _
      inHeader]
  -- Inside the header the payload and the ciphertext do not matter.
  by_cases flag : i = 5
  · have inside : i < 5 + [packetFlagEncrypted].length := by
      simp [flag]
    rw [memWrite_inside (by omega : 5 ≤ i) inside,
      memWrite_inside (by omega : 5 ≤ i) inside]
  have apart : i < 5 ∨ 6 ≤ i := by
    omega
  have noFlag :
      ∀ m : Mem, memWrite m 5 [packetFlagEncrypted] i = m i := by
    intro m
    rcases apart with before | after
    · exact memWrite_before before
    · exact memWrite_after after
  rw [noFlag, noFlag, memWrite_before beforeCipher]
  by_cases lengthField : 19 ≤ i ∧ i < 23
  · rw [memWrite_inside lengthField.1 (by simp; omega),
      memWrite_inside lengthField.1 (by simp; omega)]
  have noLength :
      ∀ m : Mem,
        memWrite m 19 (leBytes 4 (28 + payload.length)) i = m i := by
    intro m
    by_cases before : i < 19
    · exact memWrite_before before
    · exact memWrite_after (by simp; omega)
  rw [noLength, noLength, memWrite_before (by omega)]

theorem sessionEncApply_buildPacket
    (locked : sess.state = .locked) (data : channel ≠ chControl)
    (fits : payload.length ≤ 1476) :
    sessionEncApply C
        (buildPacket buf clear 0 sessionId channel seq payload)
        (builtView buf clear 0 sessionId channel seq payload) sess =
      (true,
        buildPacket buf clear packetFlagEncrypted sessionId channel seq
          (encPayload C buf clear sessionId channel seq payload sess)) := by
  have encLen :
      aeadNonceSize + payload.length + aeadTagSize =
        28 + payload.length := by
    simp only [aeadNonceSize, aeadTagSize]
    omega
  have plain :
      memSlice
          (memWrite
            (buildPacket buf clear 0 sessionId channel seq payload).data 19
            (leBytes 4 (28 + payload.length)))
          24 payload.length = payload := by
    rw [memSlice_memWrite_disjoint (by simp), buildPacket_payload]
  have room : ¬ payload.length + aeadTagSize > maxPacketSize := by
    simp only [aeadTagSize, maxPacketSize]
    omega
  simp only [sessionEncApply, builtView, locked, data, ne_eq,
    not_true_eq_false, if_false, encLen, headerSize, plain, aeadEncrypt,
    room]
  have flag :
      ∀ cipher : Bytes,
        memWrite
            (memWrite
              (buildPacket buf clear 0 sessionId channel seq payload).data
              19 (leBytes 4 (28 + payload.length)))
            (24 + aeadNonceSize) cipher 5 ||| packetFlagEncrypted =
          packetFlagEncrypted := by
    intro cipher
    rw [memWrite_before (by decide), memWrite_before (by decide),
      buildPacket_flags]
    decide
  rw [flag]
  have lengths := C.length_aeadSeal sess.keys.sessionKey
    (encNonce sess.sessionId channel seq)
    (buildAad sess.keys channel
      (memWrite
        (buildPacket buf clear 0 sessionId channel seq payload).data 19
        (leBytes 4 (28 + payload.length)))) payload
  have written := sealed_data sessionId channel seq payload buf.data
    (if clear then 0 else buf.data 23) _ _ _
    (length_encNonce sess.sessionId channel seq) lengths.1 lengths.2
  simp only [Prod.mk.injEq, true_and, aeadNonceSize]
  simp only [buildPacket, length_encPayload, PacketBuf.mk.injEq, true_and,
    headerSize]
  exact written

end Sealing

end PqComm
