import PqComm.Layers.SessionEnc

/-!
# Integrity of sealed packets

The associated data of a packet is its header without the encrypted flag,
folded with a mask of its channel.  The magic number is the same in every
header, so the first four bytes of the folded header give the mask away; when
the masks differ there, the header can be read off from the associated data.
A packet whose tag verifies is then the packet that was sealed.
-/

namespace PqComm

open Lib

/-- What `build_aad` folds into the header of a channel.  Nothing is folded on
the channels from 6 on. -/
def channelMask (keys : SessionKeys) (channel : UInt8) : Bytes :=
  if channel < 6 then keys.channelKeys.getD channel.toNat [] else zeros 32

/-- The header without the encrypted flag. -/
def aadHeader (d : Mem) : Bytes :=
  memSlice (memWrite d 5 [d 5 &&& ~~~packetFlagEncrypted]) 0 24

theorem buildAad_eq (keys : SessionKeys) (channel : UInt8) (d : Mem) :
    buildAad keys channel d =
      xorBytes (aadHeader d) (channelMask keys channel) := by
  unfold buildAad channelMask
  dsimp only
  split
  · rfl
  · rw [xorBytes_zeros]
    rfl

/-- A data channel, 2 to 6. -/
def DataChannel (channel : UInt8) : Prop :=
  chAudio ≤ channel ∧ channel ≤ chVideo

instance (channel : UInt8) : Decidable (DataChannel channel) :=
  inferInstanceAs (Decidable (_ ∧ _))

/-- The channel keys have their size and differ within their first four
bytes, the zero mask of channel 6 included. -/
structure ChannelKeysApart (keys : SessionKeys) : Prop where
  length : ∀ channel, DataChannel channel →
    (channelMask keys channel).length = 32
  apart : ∀ left right, DataChannel left → DataChannel right →
    (channelMask keys left).take 4 = (channelMask keys right).take 4 →
      left = right

/-! ## Reading the header off the associated data -/

theorem aadHeader_take (d : Mem) :
    (aadHeader d).take 4 = memSlice d 0 4 := by
  have split : (24 : Nat) = 4 + 20 := rfl
  unfold aadHeader
  rw [split, memSlice_append, List.take_left' (length_memSlice _ _ _)]
  exact memSlice_memWrite_disjoint (Or.inl (by decide))

theorem magic_eq {d d' : Mem}
    (left : leNat (memSlice d 0 4) = protoMagic)
    (right : leNat (memSlice d' 0 4) = protoMagic) :
    memSlice d 0 4 = memSlice d' 0 4 :=
  leNat_inj (by simp) (left.trans right.symm)

/-- Under one set of keys that are apart, equal associated data come from one
channel and one header. -/
theorem buildAad_inj
    {keys : SessionKeys} (keysApart : ChannelKeysApart keys)
    {channel channel' : UInt8} {d d' : Mem}
    (data : DataChannel channel) (data' : DataChannel channel')
    (magic : leNat (memSlice d 0 4) = protoMagic)
    (magic' : leNat (memSlice d' 0 4) = protoMagic)
    (equal : buildAad keys channel d = buildAad keys channel' d') :
    channel = channel' ∧ aadHeader d = aadHeader d' := by
  rw [buildAad_eq, buildAad_eq] at equal
  have same : channel = channel' := by
    apply keysApart.apart channel channel' data data'
    have first := congrArg (List.take 4) equal
    rw [take_xorBytes, take_xorBytes, aadHeader_take, aadHeader_take,
      magic_eq magic magic'] at first
    apply xorBytes_left_inj _ _ first
    · simp [keysApart.length channel data]
    · simp [keysApart.length channel' data']
  refine ⟨same, ?_⟩
  rw [same] at equal
  exact xorBytes_right_inj _ equal

private theorem flag_set_again (flags : UInt8) :
    flags &&& ~~~packetFlagEncrypted ||| packetFlagEncrypted =
      flags ||| packetFlagEncrypted := by
  have all : ∀ n : Fin 256,
      UInt8.ofFin n &&& ~~~packetFlagEncrypted ||| packetFlagEncrypted =
        UInt8.ofFin n ||| packetFlagEncrypted := by
    decide +kernel
  exact all flags.toFin

private theorem flag_set_already {flags : UInt8}
    (flagged : flags &&& packetFlagEncrypted ≠ 0) :
    flags ||| packetFlagEncrypted = flags := by
  have all : ∀ n : Fin 256, UInt8.ofFin n &&& packetFlagEncrypted ≠ 0 →
      UInt8.ofFin n ||| packetFlagEncrypted = UInt8.ofFin n := by
    decide +kernel
  exact all flags.toFin flagged

private theorem flag_restored {left right : UInt8}
    (equal : left &&& ~~~packetFlagEncrypted =
      right &&& ~~~packetFlagEncrypted)
    (flagged : right &&& packetFlagEncrypted ≠ 0) :
    left ||| packetFlagEncrypted = right := by
  rw [← flag_set_again, equal, flag_set_again, flag_set_already flagged]

/-- The header of a flagged packet is the header without the flag, with the
flag set. -/
theorem header_of_aadHeader
    {d d' : Mem} (equal : aadHeader d = aadHeader d')
    (flagged : d' 5 &&& packetFlagEncrypted ≠ 0) :
    memSlice (memWrite d 5 [d 5 ||| packetFlagEncrypted]) 0 24 =
      memSlice d' 0 24 := by
  have bytes : ∀ i, i < 24 →
      memWrite d 5 [d 5 &&& ~~~packetFlagEncrypted] i =
        memWrite d' 5 [d' 5 &&& ~~~packetFlagEncrypted] i := by
    intro i inside
    have here := congrArg (fun list : Bytes => list.getD i 0) equal
    simpa only [aadHeader, getD_memSlice inside, Nat.zero_add] using here
  apply memSlice_congr
  intro i _ inside
  have inside' : i < 24 := by
    omega
  have here := bytes i inside'
  by_cases flag : i = 5
  · subst flag
    rw [memWrite_byte_self, memWrite_byte_self] at here
    rw [memWrite_byte_self]
    exact flag_restored here flagged
  · rw [memWrite_byte_ne flag, memWrite_byte_ne flag] at here
    rw [memWrite_byte_ne flag]
    exact here

/-! ## The bytes of a sealed packet -/

/-- The packet with the length field of its sealed form, which is what the
associated data is computed from. -/
def sealingData (p : PacketBuf) (v : PacketView) : Mem :=
  memWrite p.data 19 (leBytes 4 (aeadNonceSize + v.length + aeadTagSize))

/-- One call of the cipher: the nonce, the associated data and its output. -/
structure AeadCall where
  nonce : Bytes
  aad : Bytes
  cipher : Bytes
  tag : Bytes
  deriving DecidableEq

section

variable (C : CryptoSuite)

/-- The call that `session_enc_apply` makes. -/
def sealingCall (p : PacketBuf) (v : PacketView) (s : Session) : AeadCall :=
  let nonce := encNonce s.sessionId v.channelId v.seq
  let aad := buildAad s.keys v.channelId (sealingData p v)
  let sealed :=
    C.aeadSeal s.keys.sessionKey nonce aad
      (memSlice (sealingData p v) v.payload v.length)
  { nonce := nonce, aad := aad, cipher := sealed.1, tag := sealed.2 }

/-- A packet that went through `session_enc_apply` under `keys`, on a data
channel and with the magic number in its header. -/
structure Emission (keys : SessionKeys) where
  packet : PacketBuf
  view : PacketView
  sess : Session
  parsed : packetParse packet = some view
  magic : view.magic = protoMagic
  channel : DataChannel view.channelId
  locked : sess.state = .locked
  underKeys : sess.keys = keys
  applied : (sessionEncApply C packet view sess).1 = true

variable {C}

/-- The packet that leaves. -/
def Emission.out {keys : SessionKeys} (e : Emission C keys) : PacketBuf :=
  (sessionEncApply C e.packet e.view e.sess).2

def Emission.call {keys : SessionKeys} (e : Emission C keys) : AeadCall :=
  sealingCall C e.packet e.view e.sess

theorem DataChannel.ne_control
    {channel : UInt8} (data : DataChannel channel) : channel ≠ chControl := by
  rintro rfl
  exact absurd data.1 (by decide)

private theorem sealed_slices
    (d : Mem) {nonce tag : Bytes} (cipher : Bytes)
    (nonceLength : nonce.length = 12) (tagLength : tag.length = 16)
    (byte : UInt8) :
    memSlice
        (memWrite
          (memWrite (memWrite (memWrite d 36 cipher) 5 [byte]) 24 nonce)
          (36 + cipher.length) tag)
        0 (24 + (12 + cipher.length + 16)) =
      memSlice (memWrite d 5 [byte]) 0 24 ++
        (nonce ++ (cipher ++ tag)) := by
  have blocks :
      24 + (12 + cipher.length + 16) = 24 + (12 + (cipher.length + 16)) := by
    omega
  rw [blocks, memSlice_append, memSlice_append, memSlice_append]
  congr 1
  · rw [memSlice_memWrite_disjoint (Or.inl (by omega)),
      memSlice_memWrite_disjoint (Or.inl (by omega))]
    apply memSlice_congr
    intro i _ inside
    by_cases flag : i = 5
    · subst flag
      rw [memWrite_byte_self, memWrite_byte_self]
    · rw [memWrite_byte_ne flag, memWrite_byte_ne flag,
        memWrite_before (by omega)]
  · congr 1
    · rw [memSlice_memWrite_disjoint (Or.inl (by omega))]
      have self := memSlice_memWrite_self
        (memWrite (memWrite d 36 cipher) 5 [byte]) 24 nonce
      rwa [nonceLength] at self
    · congr 1
      · rw [memSlice_memWrite_disjoint (Or.inl (by omega)),
          memSlice_memWrite_disjoint (Or.inr (by omega)),
          memSlice_memWrite_disjoint (Or.inr (by simp))]
        exact memSlice_memWrite_self d 36 cipher
      · have self := memSlice_memWrite_self
          (memWrite (memWrite (memWrite d 36 cipher) 5 [byte]) 24 nonce)
          (36 + cipher.length) tag
        rwa [tagLength] at self

/-- The buffer `session_enc_apply` leaves when the cipher has not failed. -/
def sealedPacket (p : PacketBuf) (v : PacketView) (call : AeadCall) :
    PacketBuf :=
  let d := memWrite (sealingData p v) 36 call.cipher
  { p with
    len := 24 + (12 + v.length + 16)
    data :=
      memWrite
        (memWrite (memWrite d 5 [d 5 ||| packetFlagEncrypted]) 24 call.nonce)
        (36 + v.length) call.tag }

theorem sessionEncApply_eq
    {p : PacketBuf} {v : PacketView} {s : Session}
    (locked : s.state = .locked) (data : v.channelId ≠ chControl)
    (applied : (sessionEncApply C p v s).1 = true) :
    (sessionEncApply C p v s).2 = sealedPacket p v (sealingCall C p v s) := by
  unfold sessionEncApply at applied ⊢
  rw [if_neg (by simp [locked]), if_neg data] at applied ⊢
  simp only [aeadEncrypt, length_memSlice] at applied ⊢
  by_cases large : v.length + aeadTagSize > maxPacketSize
  · rw [if_pos large] at applied
    cases applied
  · rw [if_neg large]
    rfl

theorem length_sealingCall (p : PacketBuf) (v : PacketView) (s : Session) :
    (sealingCall C p v s).nonce.length = 12 ∧
      (sealingCall C p v s).cipher.length = v.length ∧
      (sealingCall C p v s).tag.length = 16 := by
  have lengths := C.length_aeadSeal s.keys.sessionKey
    (sealingCall C p v s).nonce (sealingCall C p v s).aad
    (memSlice (sealingData p v) v.payload v.length)
  rw [length_memSlice] at lengths
  exact ⟨length_encNonce _ _ _, lengths⟩

/-- The header of a sealed packet. -/
def sealedHeader (p : PacketBuf) (v : PacketView) : Bytes :=
  memSlice
    (memWrite (sealingData p v) 5
      [sealingData p v 5 ||| packetFlagEncrypted]) 0 24

/-- The datagram that leaves: the header with the flag set and the output of
the cipher. -/
theorem wire_sealedPacket (p : PacketBuf) (v : PacketView) (s : Session) :
    (sealedPacket p v (sealingCall C p v s)).wire =
      sealedHeader p v ++
        ((sealingCall C p v s).nonce ++
          ((sealingCall C p v s).cipher ++ (sealingCall C p v s).tag)) := by
  obtain ⟨nonceLength, cipherLength, tagLength⟩ :=
    length_sealingCall (C := C) p v s
  have slices := sealed_slices (sealingData p v)
    (sealingCall C p v s).cipher nonceLength tagLength
    (sealingData p v 5 ||| packetFlagEncrypted)
  have before :
      memWrite (sealingData p v) 36 (sealingCall C p v s).cipher 5 =
        sealingData p v 5 :=
    memWrite_before (by decide)
  rw [cipherLength] at slices
  simp only [PacketBuf.wire, sealedPacket, before]
  exact slices

theorem Emission.wire_out {keys : SessionKeys} (e : Emission C keys) :
    e.out.wire =
      sealedHeader e.packet e.view ++
        (e.call.nonce ++ (e.call.cipher ++ e.call.tag)) := by
  rw [Emission.out,
    sessionEncApply_eq e.locked e.channel.ne_control e.applied]
  exact wire_sealedPacket e.packet e.view e.sess

/-- A flagged packet that parses is its header, its nonce, its ciphertext and
its tag. -/
theorem wire_of_packetParse
    {p : PacketBuf} {v : PacketView} (parsed : packetParse p = some v)
    (encrypted : v.encrypted = true) :
    p.wire =
      memSlice p.data 0 24 ++ (v.nonce ++ (v.payloadBytes ++ v.tag)) := by
  obtain ⟨-, size, ⟨-, long, rfl⟩ | ⟨-, rfl⟩⟩ := packetParse_cases parsed
  · have blocks :
        24 + wireLength p = 24 + (12 + (wireLength p - 28 + 16)) := by
      omega
    rw [PacketBuf.wire, size, blocks, memSlice_append, memSlice_append,
      memSlice_append]
    rfl
  · cases encrypted

theorem lengths_of_packetParse
    {p : PacketBuf} {v : PacketView} (parsed : packetParse p = some v) :
    v.nonce.length = 12 ∧ v.tag.length = 16 := by
  obtain ⟨-, -, ⟨-, -, rfl⟩ | ⟨-, rfl⟩⟩ := packetParse_cases parsed
  · exact ⟨length_memSlice _ _ _, length_memSlice _ _ _⟩
  · exact ⟨length_zeros _, length_zeros _⟩

theorem magic_of_packetParse
    {p : PacketBuf} {v : PacketView} (parsed : packetParse p = some v) :
    v.magic = leNat (memSlice p.data 0 4) := by
  obtain ⟨-, -, ⟨-, -, rfl⟩ | ⟨-, rfl⟩⟩ := packetParse_cases parsed
  · rfl
  · rfl

/-! ## Opening what was sealed -/

private theorem flag_cleared (flags : UInt8) :
    (flags ||| packetFlagEncrypted) &&& ~~~packetFlagEncrypted =
      flags &&& ~~~packetFlagEncrypted := by
  have all : ∀ n : Fin 256,
      (UInt8.ofFin n ||| packetFlagEncrypted) &&& ~~~packetFlagEncrypted =
        UInt8.ofFin n &&& ~~~packetFlagEncrypted := by
    decide +kernel
  exact all flags.toFin

/-- The receiver computes the associated data of the sender from the sealed
header. -/
theorem aadHeader_of_sealedHeader
    {p : PacketBuf} {v : PacketView} {d : Mem}
    (header : memSlice d 0 24 = sealedHeader p v) :
    aadHeader d = aadHeader (sealingData p v) ∧ d 14 = p.data 14 := by
  have bytes : ∀ i, i < 24 →
      d i =
        memWrite (sealingData p v) 5
          [sealingData p v 5 ||| packetFlagEncrypted] i := by
    intro i inside
    have here := congrArg (fun list : Bytes => list.getD i 0) header
    simpa only [sealedHeader, getD_memSlice inside, Nat.zero_add] using here
  constructor
  · apply memSlice_congr
    intro i _ inside
    by_cases flag : i = 5
    · subst flag
      rw [memWrite_byte_self, memWrite_byte_self, bytes 5 (by decide),
        memWrite_byte_self]
      exact flag_cleared _
    · rw [memWrite_byte_ne flag, memWrite_byte_ne flag, bytes i (by omega),
        memWrite_byte_ne flag]
  · rw [bytes 14 (by decide), memWrite_after (by simp), sealingData,
      memWrite_before (by decide)]

private theorem flag_present (flags : UInt8) :
    (flags ||| packetFlagEncrypted) &&& packetFlagEncrypted ≠ 0 := by
  have all : ∀ n : Fin 256,
      (UInt8.ofFin n ||| packetFlagEncrypted) &&& packetFlagEncrypted ≠ 0 := by
    decide +kernel
  exact all flags.toFin

theorem sealedPacket_flagged
    (p : PacketBuf) (v : PacketView) (call : AeadCall) :
    (sealedPacket p v call).data 5 &&& packetFlagEncrypted ≠ 0 := by
  simp only [sealedPacket]
  rw [memWrite_before (by omega), memWrite_before (by decide),
    memWrite_byte_self]
  exact flag_present _

theorem sealedPacket_channel
    (p : PacketBuf) (v : PacketView) (call : AeadCall) :
    (sealedPacket p v call).data 14 = p.data 14 := by
  simp only [sealedPacket, sealingData]
  rw [memWrite_before (by omega), memWrite_before (by decide),
    memWrite_byte_ne (by decide), memWrite_before (by decide),
    memWrite_before (by decide)]

/-- The cipher opens a datagram that was sealed under the same session key and
the same channel mask. -/
theorem aeadDecrypt_sealed
    (inverts : AeadInverts C) {p q : PacketBuf} {v w : PacketView}
    {s s' : Session} (parsed : packetParse p = some v)
    (wire : q.wire = (sealedPacket p v (sealingCall C p v s)).wire)
    (parsed' : packetParse q = some w) (encrypted : w.encrypted = true)
    (key : s'.keys.sessionKey = s.keys.sessionKey)
    (mask :
      channelMask s'.keys v.channelId = channelMask s.keys v.channelId) :
    aeadDecrypt C s'.keys.sessionKey w.nonce
        (buildAad s'.keys w.channelId w.buf.data) w.payloadBytes w.tag =
      some (memSlice (sealingData p v) v.payload v.length) := by
  rw [wire_sealedPacket, wire_of_packetParse parsed' encrypted] at wire
  obtain ⟨nonceLength, cipherLength, tagLength⟩ :=
    length_sealingCall (C := C) p v s
  obtain ⟨nonceLength', tagLength'⟩ := lengths_of_packetParse parsed'
  -- Block by block the receiver reads what the sender wrote.
  obtain ⟨header, rest⟩ := List.append_inj wire (by simp [sealedHeader])
  obtain ⟨nonce, rest⟩ := List.append_inj rest (by rw [nonceLength', nonceLength])
  obtain ⟨cipher, tag⟩ := List.append_inj' rest (by rw [tagLength', tagLength])
  obtain ⟨aad, channel⟩ := aadHeader_of_sealedHeader header
  have fields := parsedAs_of_packetParse parsed'
  have sameChannel : w.channelId = v.channelId := by
    rw [fields.channelId, channel,
      (parsedAs_of_packetParse parsed).channelId]
  have fits : ¬ w.payloadBytes.length + aeadTagSize > maxPacketSize := by
    have short := length_le_of_packetParse parsed'
    have bounded := (packetParse_cases parsed').1
    have size := (packetParse_cases parsed').2.1
    simp only [PacketView.payloadBytes, length_memSlice, headerSize,
      aeadTagSize, maxPacketSize] at short ⊢
    omega
  rw [aeadDecrypt, if_neg fits, key, nonce, cipher, tag, sameChannel,
    fields.buf, buildAad_eq, aad, mask, ← buildAad_eq]
  exact inverts _ _ _ _

/-- A sealed packet that parses is opened under the keys it was sealed
with. -/
theorem sessionEncCheck_sealed
    (inverts : AeadInverts C) {p q : PacketBuf} {v w : PacketView}
    {s s' : Session} (parsed : packetParse p = some v)
    (data : v.channelId ≠ chControl) (locked : s.state = .locked)
    (applied : sessionEncApply C p v s = (true, q))
    (parsed' : packetParse q = some w) (keys : s'.keys = s.keys) :
    (sessionEncCheck C w s').2.isSome = true := by
  have made : q = sealedPacket p v (sealingCall C p v s) := by
    rw [← sessionEncApply_eq locked data (by rw [applied]), applied]
  have encrypted : w.encrypted = true := by
    apply (parsedAs_of_packetParse parsed').encrypted.mpr
    rw [made]
    exact sealedPacket_flagged p v _
  have opened :=
    aeadDecrypt_sealed inverts parsed (congrArg PacketBuf.wire made) parsed'
      encrypted (congrArg SessionKeys.sessionKey keys)
      (congrArg (channelMask · v.channelId) keys)
  unfold sessionEncCheck
  split
  · rfl
  · split
    · rfl
    · rw [opened]
      rfl

/-! ## Integrity -/

/-- An ideal cipher opens under a key only what was sealed under it. -/
def OpensOnly (C : CryptoSuite) (key : Bytes) (calls : List AeadCall) :
    Prop :=
  ∀ nonce aad cipher tag plain,
    C.aeadOpen key nonce aad cipher tag = some plain →
      ⟨nonce, aad, cipher, tag⟩ ∈ calls

/-- What a receiver accepts as encrypted data is, byte for byte, a packet that
was sealed under its keys. -/
theorem accepted_packet_was_emitted
    (C : CryptoSuite) (sess : Session) (locked : sess.state = .locked)
    (keysApart : ChannelKeysApart sess.keys)
    (emitted : List (Emission C sess.keys))
    (ideal :
      OpensOnly C sess.keys.sessionKey (emitted.map Emission.call))
    (p : PacketBuf) (v : PacketView) (parsed : packetParse p = some v)
    (encrypted : v.encrypted = true) (static : staticCheck v = true)
    (data : DataChannel v.channelId)
    (accepted : (sessionEncCheck C v sess).2.isSome = true) :
    ∃ e ∈ emitted, p.wire = e.out.wire := by
  obtain ⟨v', checked⟩ := Option.isSome_iff_exists.mp accepted
  obtain ⟨plain, opened⟩ :=
    tagVerifies_of_sessionEncCheck locked data.ne_control checked
  unfold aeadDecrypt at opened
  split at opened
  · cases opened
  obtain ⟨e, member, call⟩ :=
    List.mem_map.mp (ideal _ _ _ _ _ opened)
  have fields := parsedAs_of_packetParse parsed
  have nonce : e.call.nonce = v.nonce := congrArg AeadCall.nonce call
  have cipher : e.call.cipher = v.payloadBytes :=
    congrArg AeadCall.cipher call
  have tag : e.call.tag = v.tag := congrArg AeadCall.tag call
  have aad :
      buildAad sess.keys e.view.channelId (sealingData e.packet e.view) =
        buildAad sess.keys v.channelId p.data := by
    have same : e.call.aad = buildAad sess.keys v.channelId v.buf.data :=
      congrArg AeadCall.aad call
    have made :
        e.call.aad =
          buildAad e.sess.keys e.view.channelId
            (sealingData e.packet e.view) :=
      rfl
    rw [e.underKeys] at made
    rw [← made, same, fields.buf]
  have magic :
      leNat (memSlice (sealingData e.packet e.view) 0 4) = protoMagic := by
    unfold sealingData
    rw [memSlice_memWrite_disjoint (Or.inl (by decide)),
      ← magic_of_packetParse e.parsed]
    exact e.magic
  have magic' : leNat (memSlice p.data 0 4) = protoMagic := by
    rw [← magic_of_packetParse parsed]
    exact ((staticCheck_iff v).mp static).1
  have header : sealedHeader e.packet e.view = memSlice p.data 0 24 :=
    header_of_aadHeader
      (buildAad_inj keysApart e.channel data magic magic' aad).2
      (fields.encrypted.mp encrypted)
  refine ⟨e, member, ?_⟩
  rw [wire_of_packetParse parsed encrypted, e.wire_out, header, nonce,
    cipher, tag]

end

/-! ## One sealed packet -/

/-- A locked session whose channel keys are apart. -/
def sampleKeyed : Session :=
  { sessionId := 5
    state := .locked
    keys :=
      { channelKeys :=
          (List.range 6).map fun i => List.replicate 32 (UInt8.ofNat i + 1) } }

def sampleChatPacket : PacketBuf :=
  buildPacket default true 0 5 chChat 3 [104, 105]

def sampleChatView : PacketView :=
  builtView default true 0 5 chChat 3 [104, 105]

/-- The sample suite, opening nothing but the one call of the sample. -/
def tableSuite : CryptoSuite :=
  { sampleSuite with
    aeadOpen := fun key nonce aad cipher tag =>
      if (⟨nonce, aad, cipher, tag⟩ : AeadCall) =
          sealingCall sampleSuite sampleChatPacket sampleChatView sampleKeyed
      then
        some (sampleMask key cipher)
      else
        none
    length_aeadOpen := by
      intro key nonce aad cipher tag plain opened
      split at opened
      · cases opened
        exact List.length_map _
      · cases opened }

theorem sampleChat_parsed :
    packetParse sampleChatPacket = some sampleChatView :=
  packetParse_buildPacket _ _ _ _ _ _ _ (by decide) (by decide)

def sampleEmission : Emission tableSuite sampleKeyed.keys where
  packet := sampleChatPacket
  view := sampleChatView
  sess := sampleKeyed
  parsed := sampleChat_parsed
  magic := rfl
  channel := by decide
  locked := rfl
  underKeys := rfl
  applied := by decide +kernel

theorem sampleKeyed_apart : ChannelKeysApart sampleKeyed.keys := by
  have lengths : ∀ n : Fin 256, DataChannel (UInt8.ofFin n) →
      (channelMask sampleKeyed.keys (UInt8.ofFin n)).length = 32 := by
    decide +kernel
  have apart : ∀ n : Fin 256, DataChannel (UInt8.ofFin n) →
      ∀ m : Fin 256, DataChannel (UInt8.ofFin m) →
        (channelMask sampleKeyed.keys (UInt8.ofFin n)).take 4 =
            (channelMask sampleKeyed.keys (UInt8.ofFin m)).take 4 →
          UInt8.ofFin n = UInt8.ofFin m := by
    decide +kernel
  exact
    { length := fun channel data => lengths channel.toFin data
      apart := fun left right data data' =>
        apart left.toFin data right.toFin data' }

theorem accepted_packet_was_emitted_sample :
    ∃ e ∈ [sampleEmission], sampleEmission.out.wire = e.out.wire := by
  have accepted :
      ((packetParse sampleEmission.out).any fun v =>
        v.encrypted && staticCheck v && v.channelId == chChat &&
          (sessionEncCheck tableSuite v sampleKeyed).2.isSome) = true := by
    decide +kernel
  obtain ⟨v, parsed, facts⟩ := (Option.any_eq_true _ _).mp accepted
  obtain ⟨⟨⟨encrypted, static⟩, chat⟩, opened⟩ :
      ((v.encrypted = true ∧ staticCheck v = true) ∧ v.channelId = chChat) ∧
        (sessionEncCheck tableSuite v sampleKeyed).2.isSome = true := by
    simpa using facts
  refine accepted_packet_was_emitted tableSuite sampleKeyed rfl
    sampleKeyed_apart [sampleEmission] ?_ sampleEmission.out v parsed
    encrypted static ?_ opened
  · intro nonce aad cipher tag plain opens
    have known :
        (⟨nonce, aad, cipher, tag⟩ : AeadCall) =
          sealingCall sampleSuite sampleChatPacket sampleChatView
            sampleKeyed := by
      by_contra other
      simp only [tableSuite, if_neg other] at opens
      cases opens
    rw [known]
    exact List.mem_singleton.mpr rfl
  · rw [chat]
    decide

end PqComm
