import PqComm.Lib.Bytes

/-!
# Packets on the wire

The 24-byte header, the packet buffer of the pool, the view the parser fills
and the two checks every inbound packet meets first: `packetParse` and
`staticCheck`.

Every sender of the library writes the same header by hand.  `buildPacket` is
that common body, and the builders of the other modules are instances of it.
Some of them clear the header first and some do not, which decides the unused
byte 23 only.
-/

namespace PqComm

open Lib

/-! ## Constants of `config.h`, `channel.h` and `session.h` -/

def maxPacketSize : Nat := 1500
def headerSize : Nat := 24
def ringSize : Nat := 1024
def aeadNonceSize : Nat := 12
def aeadTagSize : Nat := 16

def protoMagic : Nat := 0xAABBCCDD
def decoyMagic : Nat := 0xDEADBEEF
def protoVersion : UInt8 := 1

def packetFlagEncrypted : UInt8 := 0x01
def packetFlagFecParity : UInt8 := 0x02

def chControl : UInt8 := 1
def chAudio : UInt8 := 2
def chChat : UInt8 := 3
def chFile : UInt8 := 4
def chRoute : UInt8 := 5
def chVideo : UInt8 := 6

def ctrlHello : UInt8 := 1
def ctrlAccept : UInt8 := 2
def ctrlPqKemInit : UInt8 := 3
def ctrlPqKemResponse : UInt8 := 4
def ctrlIdentityProof : UInt8 := 5
def ctrlSessionLocked : UInt8 := 6
def ctrlPortHop : UInt8 := 8
def ctrlPortHopAck : UInt8 := 9
def ctrlHeartbeat : UInt8 := 10
def ctrlHeartbeatAck : UInt8 := 11
def ctrlReconnect : UInt8 := 12
def ctrlReconnectAck : UInt8 := 13
def ctrlRouteData : UInt8 := 14
def ctrlRekeyInit : UInt8 := 15
def ctrlRekeyConfirm : UInt8 := 16
def ctrlConnectRequest : UInt8 := 17
def ctrlConnectAccept : UInt8 := 18
def ctrlConnectDecline : UInt8 := 19
def ctrlFileMeta : UInt8 := 26
def ctrlTyping : UInt8 := 29
def ctrlDeliveryAck : UInt8 := 30
def ctrlReadAck : UInt8 := 31

/-! ## Buffers and views -/

/-- `packet_buf_t`: a pooled buffer.  `data` holds the bytes of the current
packet in its first `len` places and what an earlier packet left behind in
the others. -/
structure PacketBuf where
  addr : Bytes
  addrLen : Nat
  len : Nat
  data : Mem

instance : Inhabited PacketBuf :=
  ⟨⟨zeros 32, 0, 0, fun _ => 0⟩⟩

/-- The datagram a buffer stands for. -/
def PacketBuf.wire (p : PacketBuf) : Bytes :=
  memSlice p.data 0 p.len

/-- `packet_view_t`.  The payload pointer is an offset into `buf.data`. -/
structure PacketView where
  buf : PacketBuf
  magic : Nat
  version : UInt8
  flags : UInt8
  sessionId : UInt64
  channelId : UInt8
  seq : UInt32
  length : Nat
  payload : Nat
  nonce : Bytes
  tag : Bytes
  encrypted : Bool
  pathIdx : Nat

/-- `view->payload[i]`, which reads the buffer whatever `length` says. -/
def PacketView.payloadAt (v : PacketView) (i : Nat) : UInt8 :=
  v.buf.data (v.payload + i)

/-- The `length` bytes at `view->payload`. -/
def PacketView.payloadBytes (v : PacketView) : Bytes :=
  memSlice v.buf.data v.payload v.length

/-! ## Building -/

/-- The header bytes every builder writes; `pad` is byte 23. -/
def packetHeader
    (pad flags : UInt8) (sessionId : UInt64) (channel : UInt8)
    (seq : UInt32) (length : Nat) : Bytes :=
  leBytes 4 protoMagic ++ [protoVersion, flags] ++
    leBytes 8 sessionId.toNat ++ [channel] ++
    leBytes 4 seq.toNat ++ leBytes 4 length ++ [pad]

/-- The common body of the builders: header, then payload.  With `clear` the
header is zeroed first, otherwise byte 23 keeps what the buffer held. -/
def buildPacket
    (buf : PacketBuf) (clear : Bool) (flags : UInt8) (sessionId : UInt64)
    (channel : UInt8) (seq : UInt32) (payload : Bytes) : PacketBuf :=
  { buf with
    len := headerSize + payload.length
    data :=
      memWrite buf.data 0
        (packetHeader (if clear then 0 else buf.data 23) flags
          sessionId channel seq payload.length ++ payload) }

/-- `memcpy(p->addr, addr, ...)` with its length. -/
def PacketBuf.setAddr (p : PacketBuf) (addr : Bytes) (addrLen : Nat) :
    PacketBuf :=
  { p with addr := addr, addrLen := addrLen }

/-! ## Parsing -/

/-- `packet_parse`: `none` stands for -1. -/
def packetParse (p : PacketBuf) : Option PacketView :=
  if p.len < headerSize then
    none
  else
    let d := p.data
    let flags := d 5
    let length := leNat (memSlice d 19 4)
    if length > maxPacketSize - headerSize then
      none
    else if p.len ≠ headerSize + length then
      none
    else
      let view : PacketView :=
        { buf := p
          magic := leNat (memSlice d 0 4)
          version := d 4
          flags := flags
          sessionId := UInt64.ofNat (leNat (memSlice d 6 8))
          channelId := d 14
          seq := UInt32.ofNat (leNat (memSlice d 15 4))
          length := length
          payload := headerSize
          nonce := zeros aeadNonceSize
          tag := zeros aeadTagSize
          encrypted := false
          pathIdx := 0 }
      if flags &&& packetFlagEncrypted ≠ 0 then
        if length < aeadNonceSize + aeadTagSize then
          none
        else
          let inner := length - (aeadNonceSize + aeadTagSize)
          some
            { view with
              length := inner
              payload := headerSize + aeadNonceSize
              nonce := memSlice d headerSize aeadNonceSize
              tag :=
                memSlice d (headerSize + aeadNonceSize + inner) aeadTagSize
              encrypted := true }
      else
        some view

/-- `static_check`. -/
def staticCheck (v : PacketView) : Bool :=
  v.magic == protoMagic &&
  v.version == protoVersion &&
  !(v.length == 0 || decide (v.length > 1400)) &&
  v.flags &&& ~~~(packetFlagEncrypted ||| packetFlagFecParity) == 0 &&
  !(decide (v.channelId < chControl) || decide (v.channelId > chVideo)) &&
  v.seq != 0

/-- The length field of the header. -/
def wireLength (p : PacketBuf) : Nat :=
  leNat (memSlice p.data 19 4)

/-- The sequence number of the header. -/
def packetSeq (p : PacketBuf) : UInt32 :=
  UInt32.ofNat (leNat (memSlice p.data 15 4))

/-- The view of a packet without the encrypted flag. -/
def clearView (p : PacketBuf) : PacketView :=
  { buf := p
    magic := leNat (memSlice p.data 0 4)
    version := p.data 4
    flags := p.data 5
    sessionId := UInt64.ofNat (leNat (memSlice p.data 6 8))
    channelId := p.data 14
    seq := packetSeq p
    length := wireLength p
    payload := headerSize
    nonce := zeros aeadNonceSize
    tag := zeros aeadTagSize
    encrypted := false
    pathIdx := 0 }

/-- The view of a packet with the encrypted flag. -/
def cipherView (p : PacketBuf) : PacketView :=
  { clearView p with
    length := wireLength p - 28
    payload := 36
    nonce := memSlice p.data 24 12
    tag := memSlice p.data (36 + (wireLength p - 28)) 16
    encrypted := true }

theorem packetParse_cases
    {p : PacketBuf} {v : PacketView} (parsed : packetParse p = some v) :
    wireLength p ≤ 1476 ∧ p.len = 24 + wireLength p ∧
      ((p.data 5 &&& packetFlagEncrypted ≠ 0 ∧ 28 ≤ wireLength p ∧
          v = cipherView p) ∨
        (p.data 5 &&& packetFlagEncrypted = 0 ∧ v = clearView p)) := by
  unfold packetParse at parsed
  split at parsed
  · cases parsed
  · dsimp only at parsed
    split at parsed
    · cases parsed
    · rename_i room
      split at parsed
      · cases parsed
      · rename_i size
        refine ⟨Nat.not_lt.mp room, not_not.mp size, ?_⟩
        split at parsed
        · rename_i flagged
          split at parsed
          · cases parsed
          · rename_i long
            cases parsed
            exact Or.inl ⟨flagged, Nat.not_lt.mp long, rfl⟩
        · rename_i plain
          cases parsed
          exact Or.inr ⟨not_not.mp plain, rfl⟩

/-- The fields of a view that the parser copies from fixed places. -/
structure ParsedAs (p : PacketBuf) (v : PacketView) : Prop where
  buf : v.buf = p
  flags : v.flags = p.data 5
  channelId : v.channelId = p.data 14
  encrypted : v.encrypted = true ↔ p.data 5 &&& packetFlagEncrypted ≠ 0
  long : headerSize ≤ p.len

theorem parsedAs_of_packetParse
    {p : PacketBuf} {v : PacketView} (parsed : packetParse p = some v) :
    ParsedAs p v := by
  obtain ⟨-, size, ⟨flagged, -, rfl⟩ | ⟨plain, rfl⟩⟩ :=
    packetParse_cases parsed
  · exact ⟨rfl, rfl, rfl, iff_of_true rfl flagged,
      size ▸ Nat.le_add_right _ _⟩
  · exact ⟨rfl, rfl, rfl, iff_of_false Bool.false_ne_true (by simp [plain]),
      size ▸ Nat.le_add_right _ _⟩

theorem seq_of_packetParse
    {p : PacketBuf} {v : PacketView} (parsed : packetParse p = some v) :
    v.seq = packetSeq p ∧ v.pathIdx = 0 := by
  obtain ⟨-, -, ⟨-, -, rfl⟩ | ⟨-, rfl⟩⟩ := packetParse_cases parsed
  · exact ⟨rfl, rfl⟩
  · exact ⟨rfl, rfl⟩

theorem length_le_of_packetParse
    {p : PacketBuf} {v : PacketView} (parsed : packetParse p = some v) :
    headerSize + v.length ≤ p.len := by
  obtain ⟨-, size, ⟨-, -, rfl⟩ | ⟨-, rfl⟩⟩ := packetParse_cases parsed
  · rw [size]
    exact Nat.add_le_add_left (Nat.sub_le _ _) _
  · rw [size]
    exact Nat.le_refl _

theorem payload_of_packetParse
    {p : PacketBuf} {v : PacketView} (parsed : packetParse p = some v) :
    headerSize ≤ v.payload := by
  obtain ⟨-, -, ⟨-, -, rfl⟩ | ⟨-, rfl⟩⟩ := packetParse_cases parsed
  · exact (by decide : 24 ≤ 36)
  · exact Nat.le_refl _

/-- The header fields `static_check` looks at besides magic, version and
length. -/
def HeaderFits (flags channel : UInt8) (seq : UInt32) : Prop :=
  flags &&& ~~~(packetFlagEncrypted ||| packetFlagFecParity) = 0 ∧
    chControl ≤ channel ∧ channel ≤ chVideo ∧ seq ≠ 0

theorem staticCheck_iff (v : PacketView) :
    staticCheck v = true ↔
      v.magic = protoMagic ∧ v.version = protoVersion ∧
        HeaderFits v.flags v.channelId v.seq ∧
          1 ≤ v.length ∧ v.length ≤ 1400 := by
  have low : v.channelId < chControl ↔ ¬ chControl ≤ v.channelId :=
    UInt8.not_le.symm
  have high : v.channelId > chVideo ↔ ¬ v.channelId ≤ chVideo :=
    UInt8.not_le.symm
  have nonempty : 1 ≤ v.length ↔ v.length ≠ 0 :=
    Nat.one_le_iff_ne_zero
  simp only [staticCheck, HeaderFits, low, high, nonempty]
  grind

theorem nonempty_of_staticCheck
    {v : PacketView} (static : staticCheck v = true) : 1 ≤ v.length :=
  ((staticCheck_iff v).mp static).2.2.2.1

/-! ## Reading back what a builder wrote -/

@[simp]
theorem length_packetHeader
    (pad flags : UInt8) (sessionId : UInt64) (channel : UInt8)
    (seq : UInt32) (length : Nat) :
    (packetHeader pad flags sessionId channel seq length).length = 24 := by
  simp [packetHeader]

section BuildPacket

variable (buf : PacketBuf) (clear : Bool) (flags : UInt8)
  (sessionId : UInt64) (channel : UInt8) (seq : UInt32) (payload : Bytes)

@[simp]
theorem buildPacket_len :
    (buildPacket buf clear flags sessionId channel seq payload).len =
      24 + payload.length :=
  rfl

/-- A slice of a built packet that lies inside the written block. -/
theorem buildPacket_slice
    {off n : Nat} (inside : off + n ≤ 24 + payload.length) :
    memSlice
        (buildPacket buf clear flags sessionId channel seq payload).data
        off n =
      ((packetHeader (if clear then 0 else buf.data 23) flags sessionId
          channel seq payload.length ++ payload).drop off).take n := by
  rw [buildPacket, memSlice_memWrite_within (Nat.zero_le off)
    (by simp only [List.length_append, length_packetHeader]; omega)]
  rfl

theorem buildPacket_at
    {i : Nat} (inside : i < 24 + payload.length) :
    (buildPacket buf clear flags sessionId channel seq payload).data i =
      (packetHeader (if clear then 0 else buf.data 23) flags sessionId
        channel seq payload.length ++ payload).getD i 0 := by
  simp only [buildPacket]
  rw [memWrite_inside (Nat.zero_le i)
    (by simp only [List.length_append, length_packetHeader]; omega)]
  rfl

theorem buildPacket_flags :
    (buildPacket buf clear flags sessionId channel seq payload).data 5 =
      flags := by
  rw [buildPacket_at _ _ _ _ _ _ _ (by omega)]
  rfl

theorem buildPacket_channel :
    (buildPacket buf clear flags sessionId channel seq payload).data 14 =
      channel := by
  rw [buildPacket_at _ _ _ _ _ _ _ (by omega)]
  rfl

theorem buildPacket_length :
    leNat (memSlice
        (buildPacket buf clear flags sessionId channel seq payload).data
        19 4) = payload.length % 256 ^ 4 := by
  rw [buildPacket_slice _ _ _ _ _ _ _ (by omega), ← leNat_leBytes]
  rfl

theorem buildPacket_seq :
    UInt32.ofNat (leNat (memSlice
        (buildPacket buf clear flags sessionId channel seq payload).data
        15 4)) = seq := by
  rw [buildPacket_slice _ _ _ _ _ _ _ (by omega)]
  exact uint32_leNat_leBytes seq

theorem buildPacket_sessionId :
    UInt64.ofNat (leNat (memSlice
        (buildPacket buf clear flags sessionId channel seq payload).data
        6 8)) = sessionId := by
  rw [buildPacket_slice _ _ _ _ _ _ _ (by omega)]
  exact uint64_leNat_leBytes sessionId

theorem buildPacket_magic :
    leNat (memSlice
        (buildPacket buf clear flags sessionId channel seq payload).data
        0 4) = protoMagic := by
  rw [buildPacket_slice _ _ _ _ _ _ _ (by omega)]
  change leNat (leBytes 4 protoMagic) = protoMagic
  rw [leNat_leBytes]
  decide

theorem buildPacket_version :
    (buildPacket buf clear flags sessionId channel seq payload).data 4 =
      protoVersion := by
  rw [buildPacket_at _ _ _ _ _ _ _ (by omega)]
  rfl

/-- The payload of a built packet, read at offset 24. -/
theorem buildPacket_payload :
    memSlice
        (buildPacket buf clear flags sessionId channel seq payload).data
        24 payload.length = payload := by
  rw [buildPacket_slice _ _ _ _ _ _ _ (by omega),
    List.drop_left' (length_packetHeader _ _ _ _ _ _), List.take_length]

/-- A part of the payload of a built packet. -/
theorem buildPacket_payload_slice
    {off n : Nat} (inside : off + n ≤ payload.length) :
    memSlice
        (buildPacket buf clear flags sessionId channel seq payload).data
        (24 + off) n = (payload.drop off).take n := by
  rw [buildPacket_slice _ _ _ _ _ _ _ (by omega), ← List.drop_drop,
    List.drop_left' (length_packetHeader _ _ _ _ _ _)]

/-- What the parser sees in a packet built without the encrypted flag. -/
def builtView : PacketView :=
  { buf := buildPacket buf clear flags sessionId channel seq payload
    magic := protoMagic
    version := protoVersion
    flags := flags
    sessionId := sessionId
    channelId := channel
    seq := seq
    length := payload.length
    payload := headerSize
    nonce := zeros aeadNonceSize
    tag := zeros aeadTagSize
    encrypted := false
    pathIdx := 0 }

theorem packetParse_buildPacket
    (plain : flags &&& packetFlagEncrypted = 0)
    (fits : payload.length ≤ 1476) :
    packetParse
        (buildPacket buf clear flags sessionId channel seq payload) =
      some (builtView buf clear flags sessionId channel seq payload) := by
  have length :
      leNat (memSlice
        (buildPacket buf clear flags sessionId channel seq payload).data
        19 4) = payload.length := by
    rw [buildPacket_length]
    exact Nat.mod_eq_of_lt (by omega)
  simp only [packetParse, length, buildPacket_flags, plain,
    buildPacket_magic, buildPacket_version, buildPacket_sessionId,
    buildPacket_channel, buildPacket_seq, buildPacket_len]
  simp [headerSize, maxPacketSize, builtView, fits]

/-- A built packet that does not fit in the buffer is not parsed. -/
theorem packetParse_buildPacket_eq_none
    (large : 1476 < payload.length) :
    packetParse
        (buildPacket buf clear flags sessionId channel seq payload) =
      none := by
  simp only [packetParse, buildPacket_length, buildPacket_len, headerSize,
    maxPacketSize]
  rw [if_neg (by omega)]
  split
  · rfl
  · rw [if_pos (by omega)]

@[simp]
theorem builtView_payloadBytes :
    (builtView buf clear flags sessionId channel seq
      payload).payloadBytes = payload :=
  buildPacket_payload buf clear flags sessionId channel seq payload

/-- What the parser sees in a packet built with the encrypted flag. -/
def sealedView : PacketView :=
  { builtView buf clear flags sessionId channel seq payload with
    length := payload.length - 28
    payload := headerSize + aeadNonceSize
    nonce := payload.take aeadNonceSize
    tag := payload.drop (payload.length - aeadTagSize)
    encrypted := true }

theorem packetParse_buildPacket_sealed
    (flagged : flags &&& packetFlagEncrypted ≠ 0)
    (long : 28 ≤ payload.length) (fits : payload.length ≤ 1476) :
    packetParse
        (buildPacket buf clear flags sessionId channel seq payload) =
      some (sealedView buf clear flags sessionId channel seq payload) := by
  have length :
      leNat (memSlice
        (buildPacket buf clear flags sessionId channel seq payload).data
        19 4) = payload.length := by
    rw [buildPacket_length]
    exact Nat.mod_eq_of_lt (by omega)
  have nonce :
      memSlice
          (buildPacket buf clear flags sessionId channel seq payload).data
          24 12 = payload.take 12 :=
    buildPacket_payload_slice buf clear flags sessionId channel seq payload
      (by omega : 0 + 12 ≤ payload.length)
  have tag :
      memSlice
          (buildPacket buf clear flags sessionId channel seq payload).data
          (24 + 12 + (payload.length - 28)) 16 =
        payload.drop (payload.length - 16) := by
    have place :
        24 + 12 + (payload.length - 28) = 24 + (payload.length - 16) := by
      omega
    rw [place, buildPacket_payload_slice _ _ _ _ _ _ _ (by omega)]
    exact List.take_of_length_le (by rw [List.length_drop]; omega)
  have size : ¬ payload.length < 28 := by
    omega
  simp only [packetParse, length, buildPacket_flags, buildPacket_magic,
    buildPacket_version, buildPacket_sessionId, buildPacket_channel,
    buildPacket_seq, buildPacket_len, headerSize, maxPacketSize,
    aeadNonceSize, aeadTagSize, flagged, ne_eq, not_false_eq_true, if_true,
    Nat.reduceAdd, Nat.reduceSub, nonce, tag, size, if_false]
  simp [fits, sealedView, builtView, headerSize, aeadNonceSize, aeadTagSize]

theorem staticCheck_sealedView :
    staticCheck (sealedView buf clear flags sessionId channel seq payload) =
        true ↔
      HeaderFits flags channel seq ∧
        1 ≤ payload.length - 28 ∧ payload.length - 28 ≤ 1400 := by
  rw [staticCheck_iff]
  simp only [sealedView, builtView, true_and]

end BuildPacket

end PqComm
