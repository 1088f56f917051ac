import PqComm.Core.Packet

/-!
# The wire format and its parser

`WireGrammar` is the format of a datagram: the header, a length field that
covers exactly what follows it and, with the encrypted flag, room for the
nonce and the tag.  `packet_parse` accepts these datagrams and no others, the
fields of its view are the datagram cut into pieces, and the pieces of a
well-formed view put together are parsed to the same view.
-/

namespace PqComm

open Lib

/-- The datagrams of the format. -/
structure WireGrammar (p : PacketBuf) : Prop where
  header : headerSize ≤ p.len
  length : wireLength p = p.len - headerSize
  fits : wireLength p ≤ maxPacketSize - headerSize
  sealed :
    p.data 5 &&& packetFlagEncrypted ≠ 0 →
      aeadNonceSize + aeadTagSize ≤ wireLength p

namespace PacketView

/-- The length field that a view was parsed from. -/
def fieldLength (v : PacketView) : Nat :=
  if v.encrypted then v.length + (aeadNonceSize + aeadTagSize) else v.length

/-- The header of a view; `pad` is the reserved byte. -/
def header (v : PacketView) (pad : UInt8) : Bytes :=
  leBytes 4 v.magic ++ (v.version :: v.flags ::
    (leBytes 8 v.sessionId.toNat ++ (v.channelId ::
      (leBytes 4 v.seq.toNat ++ (leBytes 4 v.fieldLength ++ [pad])))))

/-- What follows the header. -/
def body (v : PacketView) : Bytes :=
  if v.encrypted then v.nonce ++ (v.payloadBytes ++ v.tag)
  else v.payloadBytes

/-- A view and the reserved byte, written out. -/
def serialise (v : PacketView) (pad : UInt8) : Bytes :=
  v.header pad ++ v.body

/-- The views that fit in a packet. -/
structure WellFormed (v : PacketView) : Prop where
  magic : v.magic < 2 ^ 32
  flag : v.encrypted = true ↔ v.flags &&& packetFlagEncrypted ≠ 0
  fits : v.fieldLength ≤ maxPacketSize - headerSize
  nonce : v.encrypted = true → v.nonce.length = aeadNonceSize
  tag : v.encrypted = true → v.tag.length = aeadTagSize

/-- Two views of the same contents, wherever these are stored.  The nonce and
the tag of a view that is not encrypted mean nothing. -/
structure SameFields (v w : PacketView) : Prop where
  magic : w.magic = v.magic
  version : w.version = v.version
  flags : w.flags = v.flags
  sessionId : w.sessionId = v.sessionId
  channelId : w.channelId = v.channelId
  seq : w.seq = v.seq
  length : w.length = v.length
  encrypted : w.encrypted = v.encrypted
  payload : w.payloadBytes = v.payloadBytes
  nonce : v.encrypted = true → w.nonce = v.nonce
  tag : v.encrypted = true → w.tag = v.tag

/-- `static_check` looks at the fields only. -/
theorem SameFields.staticCheck {v w : PacketView} (same : v.SameFields w) :
    PqComm.staticCheck w = PqComm.staticCheck v := by
  unfold PqComm.staticCheck
  rw [same.magic, same.version, same.length, same.flags, same.channelId,
    same.seq]

@[simp]
theorem length_header (v : PacketView) (pad : UInt8) :
    (v.header pad).length = 24 := by
  simp [header]

theorem WellFormed.length_body {v : PacketView} (fit : v.WellFormed) :
    v.body.length = v.fieldLength := by
  unfold body fieldLength
  split
  · rename_i encrypted
    rw [List.length_append, List.length_append, fit.nonce encrypted,
      fit.tag encrypted, payloadBytes, length_memSlice]
    omega
  · rw [payloadBytes, length_memSlice]

end PacketView

/-! ## Acceptance -/

/-- The view of a packet of the format. -/
def viewOf (p : PacketBuf) : PacketView :=
  if p.data 5 &&& packetFlagEncrypted ≠ 0 then cipherView p else clearView p

theorem packetParse_of_grammar {p : PacketBuf} (grammar : WireGrammar p) :
    packetParse p = some (viewOf p) := by
  have long := grammar.header
  have field : leNat (memSlice p.data 19 4) = wireLength p := rfl
  have size : p.len = headerSize + wireLength p := by
    rw [grammar.length]
    omega
  unfold packetParse viewOf
  rw [if_neg (Nat.not_lt.mpr long)]
  dsimp only
  rw [field, if_neg (Nat.not_lt.mpr grammar.fits), if_neg (not_not.mpr size)]
  by_cases flagged : p.data 5 &&& packetFlagEncrypted ≠ 0
  · rw [if_pos flagged, if_pos flagged,
      if_neg (Nat.not_lt.mpr (grammar.sealed flagged))]
    rfl
  · rw [if_neg flagged, if_neg flagged]
    rfl

theorem grammar_of_packetParse
    {p : PacketBuf} {v : PacketView} (parsed : packetParse p = some v) :
    WireGrammar p := by
  obtain ⟨fits, size, shape⟩ := packetParse_cases parsed
  refine ⟨?_, ?_, fits, fun flagged => ?_⟩
  · rw [size]
    exact Nat.le_add_right _ _
  · rw [size]
    exact (Nat.add_sub_cancel_left _ _).symm
  · rcases shape with ⟨-, long, -⟩ | ⟨plain, -⟩
    · exact long
    · exact absurd plain flagged

/-! ## The pieces of a datagram -/

/-- The fields of the header, where they stand. -/
def headerPieces (d : Mem) : Bytes :=
  memSlice d 0 4 ++ (d 4 :: d 5 ::
    (memSlice d 6 8 ++ (d 14 ::
      (memSlice d 15 4 ++ (memSlice d 19 4 ++ [d 23])))))

theorem wire_eq_pieces {p : PacketBuf} (long : headerSize ≤ p.len) :
    p.wire = headerPieces p.data ++ memSlice p.data 24 (p.len - 24) := by
  have split : p.len = 24 + (p.len - 24) := by
    simp only [headerSize] at long
    omega
  have pieces : memSlice p.data 0 24 = headerPieces p.data := rfl
  rw [PacketBuf.wire, split, memSlice_append, pieces, Nat.zero_add,
    Nat.add_sub_cancel_left]

/-- The header of a view whose fields were read from the header. -/
theorem header_of_pieces
    {v : PacketView} {d : Mem} (magic : v.magic = leNat (memSlice d 0 4))
    (version : v.version = d 4) (flags : v.flags = d 5)
    (sessionId : v.sessionId = UInt64.ofNat (leNat (memSlice d 6 8)))
    (channelId : v.channelId = d 14)
    (seq : v.seq = UInt32.ofNat (leNat (memSlice d 15 4)))
    (length : v.fieldLength = leNat (memSlice d 19 4)) :
    v.header (d 23) = headerPieces d := by
  have id64 : v.sessionId.toNat = leNat (memSlice d 6 8) := by
    rw [sessionId]
    exact UInt64.toNat_ofNat_of_lt (leNat_memSlice_lt d 6 8)
  have seq32 : v.seq.toNat = leNat (memSlice d 15 4) := by
    rw [seq]
    exact UInt32.toNat_ofNat_of_lt (leNat_memSlice_lt d 15 4)
  rw [PacketView.header, magic, version, flags, id64, channelId, seq32,
    length]
  simp only [leBytes_memSlice]
  rfl

theorem serialise_viewOf {p : PacketBuf} (grammar : WireGrammar p) :
    (viewOf p).WellFormed ∧ (viewOf p).serialise (p.data 23) = p.wire := by
  have long := grammar.header
  have length := grammar.length
  have size : p.len - 24 = wireLength p := length.symm
  unfold viewOf
  rw [wire_eq_pieces long, size, PacketView.serialise]
  by_cases flagged : p.data 5 &&& packetFlagEncrypted ≠ 0
  · rw [if_pos flagged]
    have room : 28 ≤ wireLength p := grammar.sealed flagged
    have field : (cipherView p).fieldLength = wireLength p :=
      Nat.sub_add_cancel room
    have blocks : wireLength p = 12 + (wireLength p - 28 + 16) := by
      omega
    have body :
        (cipherView p).body = memSlice p.data 24 (wireLength p) := by
      rw [blocks, memSlice_append, memSlice_append]
      rfl
    refine ⟨⟨leNat_memSlice_lt p.data 0 4, iff_of_true rfl flagged, ?_,
      fun _ => length_memSlice _ _ _, fun _ => length_memSlice _ _ _⟩, ?_⟩
    · rw [field]
      exact grammar.fits
    · rw [header_of_pieces (v := cipherView p) (d := p.data) rfl rfl rfl rfl
        rfl rfl field, body]
  · rw [if_neg flagged]
    refine ⟨⟨leNat_memSlice_lt p.data 0 4,
      iff_of_false Bool.false_ne_true flagged, grammar.fits, nofun, nofun⟩,
      ?_⟩
    rw [header_of_pieces (v := clearView p) (d := p.data) rfl rfl rfl rfl rfl
      rfl rfl]
    rfl

/-! ## Parsing what was serialised -/

/-- The bytes of a datagram that a view was serialised to. -/
structure CarriesView (p : PacketBuf) (v : PacketView) (pad : UInt8) :
    Prop where
  size : p.len = 24 + v.fieldLength
  magic : leNat (memSlice p.data 0 4) = v.magic
  version : p.data 4 = v.version
  flags : p.data 5 = v.flags
  sessionId : UInt64.ofNat (leNat (memSlice p.data 6 8)) = v.sessionId
  channelId : p.data 14 = v.channelId
  seq : packetSeq p = v.seq
  length : wireLength p = v.fieldLength
  pad : p.data 23 = pad
  body : memSlice p.data 24 v.fieldLength = v.body

theorem carries_of_serialise
    {p : PacketBuf} {v : PacketView} {pad : UInt8} (fit : v.WellFormed)
    (wire : p.wire = v.serialise pad) : CarriesView p v pad := by
  have size : p.len = 24 + v.fieldLength := by
    have lengths := congrArg List.length wire
    rw [PacketBuf.wire, length_memSlice, PacketView.serialise,
      List.length_append, PacketView.length_header, fit.length_body]
      at lengths
    exact lengths
  have small : v.fieldLength < 256 ^ 4 := by
    have bound := fit.fits
    simp only [maxPacketSize, headerSize] at bound
    omega
  have long : headerSize ≤ p.len := by
    rw [size]
    exact Nat.le_add_right _ _
  rw [wire_eq_pieces long, size, Nat.add_sub_cancel_left] at wire
  obtain ⟨header, body⟩ := List.append_inj wire (by simp [headerPieces])
  unfold headerPieces PacketView.header at header
  obtain ⟨magic, header⟩ := List.append_inj header (by simp)
  rw [List.cons.injEq, List.cons.injEq] at header
  obtain ⟨version, flags, header⟩ := header
  obtain ⟨sessionId, header⟩ := List.append_inj header (by simp)
  rw [List.cons.injEq] at header
  obtain ⟨channelId, header⟩ := header
  obtain ⟨seq, header⟩ := List.append_inj header (by simp)
  obtain ⟨length, pad⟩ := List.append_inj header (by simp)
  refine ⟨size, ?_, version, flags, ?_, channelId, ?_, ?_,
    List.singleton_inj.mp pad, body⟩
  · rw [magic, leNat_leBytes]
    exact Nat.mod_eq_of_lt fit.magic
  · rw [sessionId, uint64_leNat_leBytes]
  · rw [packetSeq, seq, uint32_leNat_leBytes]
  · rw [wireLength, length, leNat_leBytes]
    exact Nat.mod_eq_of_lt small

theorem grammar_of_carries
    {p : PacketBuf} {v : PacketView} {pad : UInt8} (fit : v.WellFormed)
    (carries : CarriesView p v pad) : WireGrammar p := by
  refine ⟨?_, ?_, ?_, fun flagged => ?_⟩
  · rw [carries.size]
    exact Nat.le_add_right _ _
  · rw [carries.length, carries.size]
    exact (Nat.add_sub_cancel_left _ _).symm
  · rw [carries.length]
    exact fit.fits
  · rw [carries.flags] at flagged
    rw [carries.length, PacketView.fieldLength,
      if_pos (fit.flag.mpr flagged)]
    exact Nat.le_add_left _ _

theorem sameFields_of_carries
    {p : PacketBuf} {v : PacketView} {pad : UInt8} (fit : v.WellFormed)
    (carries : CarriesView p v pad) : v.SameFields (viewOf p) := by
  have body := carries.body
  unfold viewOf
  rw [carries.flags]
  cases encrypted : v.encrypted with
  | true =>
      have field : v.fieldLength = v.length + 28 := by
        unfold PacketView.fieldLength
        rw [if_pos encrypted]
        rfl
      have inner : wireLength p - 28 = v.length := by
        rw [carries.length, field]
        exact Nat.add_sub_cancel _ _
      have blocks : v.length + 28 = 12 + (v.length + 16) := by
        omega
      rw [field, blocks, memSlice_append, memSlice_append, PacketView.body,
        if_pos encrypted] at body
      obtain ⟨nonce, rest⟩ :=
        List.append_inj body (by rw [length_memSlice, fit.nonce encrypted]; rfl)
      obtain ⟨payload, tag⟩ :=
        List.append_inj rest (by simp [PacketView.payloadBytes])
      rw [if_pos (fit.flag.mp encrypted)]
      refine ⟨carries.magic, carries.version, carries.flags,
        carries.sessionId, carries.channelId, carries.seq, inner,
        encrypted.symm, ?_, fun _ => nonce, fun _ => ?_⟩
      · rw [← payload]
        change memSlice p.data 36 (wireLength p - 28) = _
        rw [inner]
      · rw [← tag]
        change memSlice p.data (36 + (wireLength p - 28)) 16 = _
        rw [inner]
  | false =>
      have field : v.fieldLength = v.length := by
        unfold PacketView.fieldLength
        rw [if_neg (by rw [encrypted]; exact Bool.false_ne_true)]
      have plain : ¬v.flags &&& packetFlagEncrypted ≠ 0 := fun flagged =>
        Bool.false_ne_true (encrypted.symm.trans (fit.flag.mpr flagged))
      have inner : wireLength p = v.length := by
        rw [carries.length, field]
      rw [if_neg plain]
      refine ⟨carries.magic, carries.version, carries.flags,
        carries.sessionId, carries.channelId, carries.seq, inner,
        encrypted.symm, ?_, ?_, ?_⟩
      · rw [field, PacketView.body,
          if_neg (by rw [encrypted]; exact Bool.false_ne_true)] at body
        rw [← body]
        change memSlice p.data 24 (wireLength p) = _
        rw [inner]
      · rw [encrypted]
        exact nofun
      · rw [encrypted]
        exact nofun

/-- The parser sees the datagram only, not the buffer it arrives in. -/
theorem packetParse_same_wire
    {p q : PacketBuf} {v : PacketView} (parsed : packetParse p = some v)
    (wire : q.wire = p.wire) :
    ∃ w, packetParse q = some w ∧ v.SameFields w := by
  have grammar := grammar_of_packetParse parsed
  rw [packetParse_of_grammar grammar] at parsed
  cases parsed
  obtain ⟨fit, serialised⟩ := serialise_viewOf grammar
  have carries := carries_of_serialise fit (wire.trans serialised.symm)
  exact ⟨viewOf q, packetParse_of_grammar (grammar_of_carries fit carries),
    sameFields_of_carries fit carries⟩

/-- `packet_parse` accepts exactly the datagrams of the format; a view and the
reserved byte give the datagram back; and what a well-formed view is
serialised to is parsed to that view. -/
theorem packetParse_format (p : PacketBuf) :
    ((packetParse p).isSome = true ↔
      24 ≤ p.len ∧ wireLength p = p.len - 24 ∧ wireLength p ≤ 1476 ∧
        (p.data 5 &&& packetFlagEncrypted ≠ 0 → 28 ≤ wireLength p)) ∧
    (∀ v : PacketView, packetParse p = some v →
      v.WellFormed ∧ v.serialise (p.data 23) = p.wire) ∧
    (∀ (v : PacketView) (pad : UInt8), v.WellFormed →
      p.wire = v.serialise pad →
      ∃ w, packetParse p = some w ∧ v.SameFields w ∧ p.data 23 = pad) := by
  refine ⟨⟨fun accepted => ?_, ?_⟩, fun v parsed => ?_,
    fun v pad fit wire => ?_⟩
  · obtain ⟨v, parsed⟩ := Option.isSome_iff_exists.mp accepted
    obtain ⟨header, length, fits, sealed⟩ := grammar_of_packetParse parsed
    exact ⟨header, length, fits, sealed⟩
  · rintro ⟨header, length, fits, sealed⟩
    rw [packetParse_of_grammar ⟨header, length, fits, sealed⟩]
    rfl
  · have grammar := grammar_of_packetParse parsed
    rw [packetParse_of_grammar grammar] at parsed
    cases parsed
    exact serialise_viewOf grammar
  · have carries := carries_of_serialise fit wire
    exact ⟨viewOf p, packetParse_of_grammar (grammar_of_carries fit carries),
      sameFields_of_carries fit carries, carries.pad⟩

end PqComm
