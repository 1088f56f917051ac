import PqComm.Engine.Rekey

/-!
# What the control handlers read behind the end of a packet

A pooled buffer keeps the bytes of its earlier packets behind `len`.  The
handlers of `heartbeat.c`, `reconnect.c`, `port_hop.c`, `rekey.c` and
`conn_request.c` read their fields at fixed offsets, and only the first and
the third compare every one of them with `len`.

`controlExtent` is how far the handlers look.  A packet that long is handled
the same way whatever the buffer held before, and a shorter one is not.
-/

namespace PqComm

open Lib

/-- Two buffers that hold the same datagram, with whatever stands behind it. -/
structure SameReceived (p q : PacketBuf) : Prop where
  len : q.len = p.len
  addr : q.addr = p.addr
  addrLen : q.addrLen = p.addrLen
  data : ∀ i, i < p.len → q.data i = p.data i

/-- Where the last field of a CONNECT_REQUEST ends; a name that is too long
is refused after its length byte. -/
def connRequestExtent (p : PacketBuf) : Nat :=
  let unameLen := (p.data 25).toNat
  if unameLen > 31 then
    26
  else
    27 + unameLen + min (p.data (26 + unameLen)).toNat 63

/-- The first offset that no handler reads. -/
def controlExtent (p : PacketBuf) : Nat :=
  if p.opcode = ctrlReconnect ∨ p.opcode = ctrlReconnectAck then
    33
  else if p.opcode = ctrlRekeyInit then
    33 + kemPkSize
  else if p.opcode = ctrlRekeyConfirm then
    33 + kemCtSize
  else if p.opcode = ctrlConnectRequest then
    connRequestExtent p
  else
    25

/-- No handler sees what stands behind the datagram of `p`. -/
structure ReadsReceivedOnly (C : CryptoSuite) (p : PacketBuf) : Prop where
  heartbeat :
    ∀ q, SameReceived p q → ∀ s buf seq now,
      heartbeatHandle q s buf seq now = heartbeatHandle p s buf seq now
  reconnect :
    ∀ q, SameReceived p q → ∀ s buf seq now,
      reconnectHandle q s buf seq now = reconnectHandle p s buf seq now
  portHop :
    ∀ q, SameReceived p q → ∀ s, portHopHandle q s = portHopHandle p s
  rekey :
    ∀ q, SameReceived p q → ∀ env s seq,
      rekeyHandle C env q s seq = rekeyHandle C env p s seq
  connRequest :
    ∀ q, SameReceived p q → ∀ table txq isResponder now,
      connRequestHandle table q txq isResponder now =
        connRequestHandle table p txq isResponder now

/-! ## Fields inside the datagram -/

section

variable {p q : PacketBuf}

theorem SameReceived.slice
    (same : SameReceived p q) {off n : Nat} (inside : off + n ≤ p.len) :
    memSlice q.data off n = memSlice p.data off n := by
  apply memSlice_congr
  intro i _ upper
  exact same.data i (Nat.lt_of_lt_of_le upper inside)

theorem SameReceived.opcode
    (same : SameReceived p q) (long : 25 ≤ p.len) : q.opcode = p.opcode :=
  same.data headerSize long

theorem SameReceived.word
    (same : SameReceived p q) (long : 33 ≤ p.len) : q.word = p.word := by
  rw [PacketBuf.word, PacketBuf.word, same.slice (by omega)]

theorem le_connRequestExtent (p : PacketBuf) : 26 ≤ connRequestExtent p := by
  unfold connRequestExtent
  dsimp only
  split <;> omega

/-- Every extent covers the opcode. -/
theorem le_controlExtent (p : PacketBuf) : 25 ≤ controlExtent p := by
  have request := le_connRequestExtent p
  unfold controlExtent
  repeat' split
  all_goals omega

theorem heartbeatHandle_same
    (same : SameReceived p q) (s : Session) (buf : Option PacketBuf)
    (seq : UInt32) (now : UInt64) :
    heartbeatHandle q s buf seq now = heartbeatHandle p s buf seq now := by
  unfold heartbeatHandle
  rw [same.len, same.addr, same.addrLen]
  by_cases short : p.len < 25
  · rw [if_pos short, if_pos short]
  rw [if_neg short, if_neg short, same.opcode (by omega)]
  by_cases header : p.len < 41
  · simp only [if_pos header]
  · rw [same.slice (by omega)]

theorem portHopHandle_same (same : SameReceived p q) (s : Session) :
    portHopHandle q s = portHopHandle p s := by
  unfold portHopHandle
  rw [same.len]
  by_cases short : p.len < 25
  · rw [if_pos short, if_pos short]
  rw [if_neg short, if_neg short, same.opcode (by omega)]
  by_cases header : p.len < 35
  · simp only [if_pos header]
  · rw [same.slice (by omega)]

theorem reconnectHandle_same
    (same : SameReceived p q) (whole : controlExtent p ≤ p.len)
    (s : Session) (buf : Option PacketBuf) (seq : UInt32) (now : UInt64) :
    reconnectHandle q s buf seq now = reconnectHandle p s buf seq now := by
  have long := Nat.le_trans (le_controlExtent p) whole
  unfold reconnectHandle
  rw [same.len, same.addr, same.opcode long]
  by_cases reads :
      p.opcode = ctrlReconnect ∨ p.opcode = ctrlReconnectAck
  · rw [controlExtent, if_pos reads] at whole
    rw [same.word whole]
  · rw [not_or] at reads
    simp only [if_neg reads.1, if_neg reads.2]

theorem rekeyHandle_same
    (C : CryptoSuite) (same : SameReceived p q)
    (whole : controlExtent p ≤ p.len) (env : RekeyEnv) (s : Session)
    (seq : UInt32) :
    rekeyHandle C env q s seq = rekeyHandle C env p s seq := by
  have long := Nat.le_trans (le_controlExtent p) whole
  unfold rekeyHandle
  rw [same.addr, same.opcode long]
  by_cases init : p.opcode = ctrlRekeyInit
  · have extent : 33 + kemPkSize ≤ p.len := by
      simpa [controlExtent, init, ctrlReconnect, ctrlReconnectAck,
        ctrlRekeyInit] using whole
    simp only [if_pos init]
    rw [same.word (by omega), PacketBuf.rekeyPublicKey,
      PacketBuf.rekeyPublicKey, same.slice extent]
  by_cases confirm : p.opcode = ctrlRekeyConfirm
  · have extent : 33 + kemCtSize ≤ p.len := by
      simpa [controlExtent, confirm, ctrlReconnect, ctrlReconnectAck,
        ctrlRekeyInit, ctrlRekeyConfirm] using whole
    simp only [if_neg init, if_pos confirm]
    rw [same.word (by omega), PacketBuf.rekeyCiphertext,
      PacketBuf.rekeyCiphertext, same.slice extent]
  · simp only [if_neg init, if_neg confirm]

theorem connRequestHandle_same
    (same : SameReceived p q) (whole : controlExtent p ≤ p.len)
    (table : ConnRequestTable) (txq isResponder : Bool) (now : UInt64) :
    connRequestHandle table q txq isResponder now =
      connRequestHandle table p txq isResponder now := by
  have long := Nat.le_trans (le_controlExtent p) whole
  unfold connRequestHandle
  rw [same.addr, same.opcode long]
  by_cases request : p.opcode = ctrlConnectRequest
  · have extent : connRequestExtent p ≤ p.len := by
      simpa [controlExtent, request, ctrlReconnect, ctrlReconnectAck,
        ctrlRekeyInit, ctrlRekeyConfirm, ctrlConnectRequest] using whole
    have size := same.data 25
      (Nat.le_trans (le_connRequestExtent p) extent)
    simp only [if_pos request, size]
    by_cases refused : (p.data 25).toNat > 31
    · simp only [if_pos refused]
    · simp only [connRequestExtent, if_neg refused] at extent
      rw [same.data (26 + (p.data 25).toNat) (by omega), same.slice (by omega),
        same.slice (by omega)]
  · simp only [if_neg request]

/-- A packet that reaches as far as the handlers look is all they see. -/
theorem readsReceivedOnly_of_extent
    (C : CryptoSuite) (whole : controlExtent p ≤ p.len) :
    ReadsReceivedOnly C p where
  heartbeat _ same := heartbeatHandle_same same
  reconnect _ same := reconnectHandle_same same whole
  portHop _ same := portHopHandle_same same
  rekey _ same := rekeyHandle_same C same whole
  connRequest _ same := connRequestHandle_same same whole

end

/-! ## Fields behind the datagram

The other direction changes bytes behind the datagram and finds a session on
which a handler notices. -/

/-- The same datagram in a buffer that held other bytes. -/
def PacketBuf.overwrite (p : PacketBuf) (off : Nat) (bytes : Bytes) :
    PacketBuf :=
  { p with data := memWrite p.data off bytes }

section

variable {C : CryptoSuite} {p : PacketBuf}

/-- Bytes that go on from the datagram do not change it. -/
theorem sameReceived_overwrite
    {off : Nat} {bytes : Bytes}
    (continues : memSlice p.data off (p.len - off) <+: bytes) :
    SameReceived p (p.overwrite off bytes) where
  len := rfl
  addr := rfl
  addrLen := rfl
  data := by
    intro i inside
    rcases Nat.lt_or_ge i off with before | after
    · exact memWrite_before before
    obtain ⟨rest, rfl⟩ := continues
    have position : i - off < p.len - off := by
      omega
    have length : (memSlice p.data off (p.len - off)).length = p.len - off :=
      length_memSlice _ _ _
    have read :
        (memSlice p.data off (p.len - off)).getD (i - off) 0 = p.data i := by
      rw [getD_memSlice position, Nat.add_sub_cancel' after]
    calc
      memWrite p.data off (memSlice p.data off (p.len - off) ++ rest) i
          = (memSlice p.data off (p.len - off) ++ rest).getD (i - off) 0 :=
        memWrite_inside after (by rw [List.length_append, length]; omega)
      _ = (memSlice p.data off (p.len - off)).getD (i - off) 0 :=
        List.getD_append _ _ _ _ (by omega)
      _ = p.data i := read

theorem sameReceived_overwrite_behind
    {off : Nat} (behind : p.len ≤ off) (bytes : Bytes) :
    SameReceived p (p.overwrite off bytes) := by
  apply sameReceived_overwrite
  rw [Nat.sub_eq_zero_of_le behind]
  exact List.nil_prefix

/-- The identifier or epoch of a message has all eight bytes in it. -/
theorem word_inj {p q : PacketBuf} (equal : p.word = q.word) :
    memSlice p.data 25 8 = memSlice q.data 25 8 := by
  have small : ∀ r : PacketBuf, leNat (memSlice r.data 25 8) < 2 ^ 64 := by
    intro r
    have bound := leNat_lt (memSlice r.data 25 8)
    rwa [length_memSlice] at bound
  apply leNat_inj
  · rw [length_memSlice, length_memSlice]
  · have values := congrArg UInt64.toNat equal
    rwa [PacketBuf.word, PacketBuf.word,
      UInt64.toNat_ofNat_of_lt' (small p),
      UInt64.toNat_ofNat_of_lt' (small q)] at values

theorem byte_succ_ne (byte : UInt8) : byte + 1 ≠ byte := by
  simp

/-- Changing the last byte of the word changes it. -/
theorem word_overwrite (p : PacketBuf) :
    (p.overwrite 32 [p.data 32 + 1]).word ≠ p.word := by
  intro equal
  have slices := congrArg (·.getD 7 0) (word_inj equal)
  simp only [getD_memSlice (show 7 < 8 by decide)] at slices
  have written : (p.overwrite 32 [p.data 32 + 1]).data 32 = p.data 32 + 1 :=
    memWrite_byte_self p.data 32 (p.data 32 + 1)
  rw [written] at slices
  exact byte_succ_ne _ slices

/-- A session on which `reconnect_handle` looks for `id`. -/
def lockedAs (id : UInt64) : Session :=
  { sessionId := id, state := .locked }

theorem not_readsReceivedOnly_reconnect
    (opcode : p.opcode = ctrlReconnect ∨ p.opcode = ctrlReconnectAck)
    (long : 25 ≤ p.len) (short : p.len < 33) : ¬ReadsReceivedOnly C p := by
  intro reads
  have same := sameReceived_overwrite_behind
    (show p.len ≤ 32 by omega) [p.data 32 + 1]
  have equal := reads.reconnect _ same (lockedAs p.word) none 0 0
  have found :
      (reconnectHandle p (lockedAs p.word) none 0 0).ret = 1 := by
    rcases opcode with request | ack
    · simp [reconnectHandle, Nat.not_lt.mpr long, request, lockedAs]
    · simp [reconnectHandle, Nat.not_lt.mpr long, ack, lockedAs,
        ctrlReconnect, ctrlReconnectAck]
  have lost :
      (reconnectHandle (p.overwrite 32 [p.data 32 + 1]) (lockedAs p.word)
        none 0 0).ret = 0 := by
    have different := word_overwrite p
    simp [reconnectHandle, different, lockedAs]
  rw [equal, found] at lost
  cases lost

/-- A session on which `rekey_handle` looks for `epoch`. -/
def lockedAt (epoch id : UInt64) (secretKey : Bytes) : Session :=
  { sessionId := id
    state := .locked
    hs := { kemSecretKey := secretKey }
    keys := { keyEpoch := epoch } }

/-- What a REKEY_INIT puts in the answer. -/
theorem rekeyHandle_init_ciphertext
    {env : RekeyEnv} {s : Session} {buf : PacketBuf} (seq : UInt32)
    (locked : s.state = .locked) (pool : env.buf = some buf)
    (opcode : p.opcode = ctrlRekeyInit) (epoch : p.word = s.keys.keyEpoch) :
    (rekeyHandle C env p s seq).out.map PacketBuf.rekeyCiphertext =
      (C.kemEncaps p.rekeyPublicKey env.coins).map Prod.fst := by
  cases made : C.kemEncaps p.rekeyPublicKey env.coins with
  | none =>
      simp [rekeyHandle, locked, opcode, epoch, made]
  | some pair =>
      obtain ⟨ciphertext, secret⟩ := pair
      have size := (C.length_kemEncaps _ _ _ _ made).1
      have reads := confirmPacket_reads (s.switched C secret) buf seq p.addr
        (show ciphertext.length = kemCtSize from size)
      rw [rekeyHandle_init_eq C seq locked opcode epoch made pool]
      simp only [Option.map_some, reads.2.2]

/-- The keys a REKEY_CONFIRM switches to. -/
def CtlOut.confirmedKeys (out : CtlOut) : Option (Bytes × List Bytes) :=
  if out.ret = 2 then
    some (out.sess.keys.sessionKey, out.sess.keys.channelKeys)
  else
    none

theorem rekeyHandle_confirm_keys
    (env : RekeyEnv) {s : Session} (seq : UInt32)
    (locked : s.state = .locked) (opcode : p.opcode = ctrlRekeyConfirm)
    (epoch : p.word = s.keys.keyEpoch + 1) :
    (rekeyHandle C env p s seq).confirmedKeys =
      (C.kemDecaps s.hs.kemSecretKey p.rekeyCiphertext).map fun secret =>
        sessionKeyMaterial C secret
          (rekeyContext s.sessionId (s.keys.keyEpoch + 1)) := by
  cases opened : C.kemDecaps s.hs.kemSecretKey p.rekeyCiphertext with
  | none =>
      have notInit : ctrlRekeyConfirm ≠ ctrlRekeyInit := by
        decide
      simp [rekeyHandle, locked, opcode, notInit, epoch, opened,
        CtlOut.confirmedKeys]
  | some secret =>
      rw [rekeyHandle_confirm_eq C seq locked opcode epoch opened]
      rfl

/-- A key rotation that finds its epoch does not return 0. -/
theorem rekeyHandle_ret_ne_zero
    (env : RekeyEnv) {s : Session} (seq : UInt32)
    (locked : s.state = .locked)
    (found :
      p.opcode = ctrlRekeyInit ∧ p.word = s.keys.keyEpoch ∨
        p.opcode = ctrlRekeyConfirm ∧ p.word = s.keys.keyEpoch + 1) :
    (rekeyHandle C env p s seq).ret ≠ 0 := by
  rcases found with ⟨opcode, epoch⟩ | ⟨opcode, epoch⟩
  · cases made : C.kemEncaps p.rekeyPublicKey env.coins with
    | none =>
        simp [rekeyHandle, locked, opcode, epoch, made]
    | some pair =>
        have size := (C.length_kemEncaps _ _ _ _ made).2
        cases pool : env.buf with
        | none =>
            simp [rekeyHandle, locked, opcode, epoch, made, pool,
              deriveRekeyKeys_eq C s size]
        | some buf =>
            rw [rekeyHandle_init_eq C seq locked opcode epoch made pool]
            simp
  · have notInit : ctrlRekeyConfirm ≠ ctrlRekeyInit := by
      decide
    cases opened : C.kemDecaps s.hs.kemSecretKey p.rekeyCiphertext with
    | none =>
        simp [rekeyHandle, locked, opcode, notInit, epoch, opened]
    | some secret =>
        rw [rekeyHandle_confirm_eq C seq locked opcode epoch opened]
        simp

/-- An epoch that was not received whole is not compared as received. -/
theorem not_readsReceivedOnly_epoch
    (opcode : p.opcode = ctrlRekeyInit ∨ p.opcode = ctrlRekeyConfirm)
    (long : 25 ≤ p.len) (short : p.len < 33) : ¬ReadsReceivedOnly C p := by
  intro reads
  have same := sameReceived_overwrite_behind
    (show p.len ≤ 32 by omega) [p.data 32 + 1]
  have different := word_overwrite p
  have kept := same.opcode long
  rcases opcode with init | confirm
  · let s := lockedAt p.word 0 []
    have equal := reads.rekey _ same ⟨[], none⟩ s 0
    have found := rekeyHandle_ret_ne_zero (C := C) (s := s) ⟨[], none⟩ 0
      rfl (Or.inl ⟨init, rfl⟩)
    apply found
    rw [← equal]
    simp [rekeyHandle, s, lockedAt, kept, init, different]
  · let s := lockedAt (p.word - 1) 0 []
    have equal := reads.rekey _ same ⟨[], none⟩ s 0
    have found := rekeyHandle_ret_ne_zero (C := C) (s := s) ⟨[], none⟩ 0
      rfl (Or.inr ⟨confirm, by simp [s, lockedAt]⟩)
    apply found
    rw [← equal]
    have notInit : ctrlRekeyConfirm ≠ ctrlRekeyInit := by
      decide
    simp [rekeyHandle, s, lockedAt, kept, confirm, notInit, different]

/-- Part of a public key does not settle what is encapsulated to it: there
are two ways to complete it with different ciphertexts, or one with none. -/
def EncapsReadsKey (C : CryptoSuite) : Prop :=
  ∀ part : Bytes, part.length < kemPkSize →
    ∃ coins left right,
      (part <+: left ∧ left.length = kemPkSize) ∧
        (part <+: right ∧ right.length = kemPkSize) ∧
        (C.kemEncaps left coins).map Prod.fst ≠
          (C.kemEncaps right coins).map Prod.fst

/-- Part of a ciphertext does not settle the keys of the next epoch. -/
def RekeyReadsCiphertext (C : CryptoSuite) : Prop :=
  ∀ (part : Bytes) (epoch : UInt64), part.length < kemCtSize →
    ∃ sessionId secretKey left right,
      (part <+: left ∧ left.length = kemCtSize) ∧
        (part <+: right ∧ right.length = kemCtSize) ∧
        ((C.kemDecaps secretKey left).map fun secret =>
            sessionKeyMaterial C secret (rekeyContext sessionId epoch)) ≠
          (C.kemDecaps secretKey right).map fun secret =>
            sessionKeyMaterial C secret (rekeyContext sessionId epoch)

/-- The key or ciphertext of a rekey message completed behind `len`. -/
theorem rekeyBody_overwrite
    {body : Bytes} {size : Nat} (long : 33 ≤ p.len)
    (continues :
      memSlice p.data 33 (p.len - 33) <+: body ∧ body.length = size) :
    SameReceived p (p.overwrite 33 body) ∧
      (p.overwrite 33 body).opcode = p.opcode ∧
      (p.overwrite 33 body).word = p.word ∧
      memSlice (p.overwrite 33 body).data 33 size = body := by
  have same := sameReceived_overwrite continues.1
  refine ⟨same, same.opcode (by omega), same.word long, ?_⟩
  rw [← continues.2]
  exact memSlice_memWrite_self p.data 33 body

theorem not_readsReceivedOnly_publicKey
    (sensitive : EncapsReadsKey C) (opcode : p.opcode = ctrlRekeyInit)
    (long : 33 ≤ p.len) (short : p.len < 33 + kemPkSize) :
    ¬ReadsReceivedOnly C p := by
  intro reads
  obtain ⟨coins, left, right, leftKey, rightKey, different⟩ :=
    sensitive (memSlice p.data 33 (p.len - 33))
      (by rw [length_memSlice]; omega)
  let env : RekeyEnv := ⟨coins, some default⟩
  let s := lockedAt p.word 0 []
  have answer : ∀ body : Bytes,
      memSlice p.data 33 (p.len - 33) <+: body ∧ body.length = kemPkSize →
        (rekeyHandle C env p s 0).out.map PacketBuf.rekeyCiphertext =
          (C.kemEncaps body coins).map Prod.fst := by
    intro body continues
    obtain ⟨same, code, word, slice⟩ := rekeyBody_overwrite long continues
    have key : (p.overwrite 33 body).rekeyPublicKey = body := slice
    have sent := rekeyHandle_init_ciphertext (C := C) (s := s) 0 rfl
      (show env.buf = some default from rfl) (code.trans opcode) word
    rw [key, reads.rekey _ same] at sent
    exact sent
  exact different ((answer left leftKey).symm.trans (answer right rightKey))

theorem not_readsReceivedOnly_ciphertext
    (sensitive : RekeyReadsCiphertext C)
    (opcode : p.opcode = ctrlRekeyConfirm) (long : 33 ≤ p.len)
    (short : p.len < 33 + kemCtSize) : ¬ReadsReceivedOnly C p := by
  intro reads
  obtain ⟨sessionId, secretKey, left, right, leftText, rightText,
      different⟩ :=
    sensitive (memSlice p.data 33 (p.len - 33)) p.word
      (by rw [length_memSlice]; omega)
  let env : RekeyEnv := ⟨[], none⟩
  let s := lockedAt (p.word - 1) sessionId secretKey
  have epoch : s.keys.keyEpoch + 1 = p.word := by
    simp [s, lockedAt]
  have answer : ∀ body : Bytes,
      memSlice p.data 33 (p.len - 33) <+: body ∧ body.length = kemCtSize →
        (rekeyHandle C env p s 0).confirmedKeys =
          (C.kemDecaps secretKey body).map fun secret =>
            sessionKeyMaterial C secret (rekeyContext sessionId p.word) := by
    intro body continues
    obtain ⟨same, code, word, slice⟩ := rekeyBody_overwrite long continues
    have text : (p.overwrite 33 body).rekeyCiphertext = body := slice
    have switched := rekeyHandle_confirm_keys (C := C) (s := s) env 0 rfl
      (code.trans opcode) (word.trans epoch.symm)
    rw [text, reads.rekey _ same, epoch] at switched
    exact switched
  exact different ((answer left leftText).symm.trans (answer right rightText))

/-- An opcode that was not received is read all the same. -/
theorem not_readsReceivedOnly_opcode
    (short : p.len < 25) : ¬ReadsReceivedOnly C p := by
  intro reads
  have answer : ∀ byte : UInt8,
      (connRequestHandle default (p.overwrite 24 [byte]) true true 0).1 =
        (connRequestHandle default p true true 0).1 := by
    intro byte
    rw [reads.connRequest _ (sameReceived_overwrite_behind (by omega) _)]
  have opcode : ∀ byte : UInt8, (p.overwrite 24 [byte]).opcode = byte :=
    fun byte => memWrite_byte_self p.data 24 byte
  have accepted := answer ctrlConnectAccept
  have declined := answer ctrlConnectDecline
  simp only [connRequestHandle, opcode] at accepted declined
  have equal : (2 : Int) = 3 := accepted.trans declined.symm
  cases equal

/-- The display name that a CONNECT_REQUEST leaves in an empty table. -/
theorem connRequestHandle_displayName
    {q : PacketBuf} (opcode : q.opcode = ctrlConnectRequest)
    (named : (q.data 25).toNat ≤ 31) :
    ((connRequestHandle default q true true 0).2 0).map
        PendingRequest.displayName =
      some
        (memSlice q.data (27 + (q.data 25).toNat)
          (min (q.data (26 + (q.data 25).toNat)).toNat 63)) := by
  have free : (default : ConnRequestTable).free = some 0 := rfl
  simp [connRequestHandle, opcode, Nat.not_lt.mpr named, free]

/-- A length byte of the user name that was not received. -/
theorem not_readsReceivedOnly_unameLen
    (opcode : p.opcode = ctrlConnectRequest) (unsized : p.len = 25) :
    ¬ReadsReceivedOnly C p := by
  intro reads
  have behind : ∀ byte : UInt8, SameReceived p (p.overwrite 25 [byte]) :=
    fun byte => sameReceived_overwrite_behind (Nat.le_of_eq unsized) _
  have size : ∀ byte : UInt8, (p.overwrite 25 [byte]).data 25 = byte :=
    fun byte => memWrite_byte_self p.data 25 byte
  have kept : ∀ byte : UInt8,
      (p.overwrite 25 [byte]).opcode = ctrlConnectRequest := by
    intro byte
    exact ((behind byte).opcode (Nat.le_of_eq unsized.symm)).trans opcode
  have free : (default : ConnRequestTable).free = some 0 := rfl
  have taken := reads.connRequest _ (behind 0) default true true 0
  have refused := reads.connRequest _ (behind 32) default true true 0
  rw [← refused] at taken
  have results := congrArg Prod.fst taken
  simp [connRequestHandle, kept, size, free] at results

section

variable
  (reads : ReadsReceivedOnly C p) (opcode : p.opcode = ctrlConnectRequest)
  (long : 26 ≤ p.len) (named : (p.data 25).toNat ≤ 31)

include reads opcode long named

/-- The display name does not change with a byte behind the datagram. -/
theorem displayName_overwrite
    {off : Nat} (behind : p.len ≤ off) (byte : UInt8) :
    memSlice (p.overwrite off [byte]).data (27 + (p.data 25).toNat)
        (min ((p.overwrite off [byte]).data
          (26 + (p.data 25).toNat)).toNat 63) =
      memSlice p.data (27 + (p.data 25).toNat)
        (min (p.data (26 + (p.data 25).toNat)).toNat 63) := by
  have same := sameReceived_overwrite_behind behind [byte]
  have size := same.data 25 (by omega)
  have left := connRequestHandle_displayName
    ((same.opcode (by omega)).trans opcode) (by rw [size]; exact named)
  have right := connRequestHandle_displayName opcode named
  rw [reads.connRequest _ same, right, size] at left
  exact (Option.some.inj left).symm

/-- The length byte of the display name was received. -/
theorem dnameLen_received : 27 + (p.data 25).toNat ≤ p.len := by
  apply Nat.le_of_not_lt
  intro short
  have behind : p.len ≤ 26 + (p.data 25).toNat := by
    omega
  have written : ∀ byte : UInt8,
      (p.overwrite (26 + (p.data 25).toNat) [byte]).data
        (26 + (p.data 25).toNat) = byte :=
    fun byte => memWrite_byte_self p.data _ byte
  have empty := congrArg List.length
    (displayName_overwrite reads opcode long named behind 0)
  have single := congrArg List.length
    (displayName_overwrite reads opcode long named behind 1)
  rw [← empty, written, written, length_memSlice, length_memSlice] at single
  exact absurd single (by decide)

/-- The end of the display name was received. -/
theorem displayName_received :
    27 + (p.data 25).toNat + min (p.data (26 + (p.data 25).toNat)).toNat 63 ≤
      p.len := by
  have sized := dnameLen_received reads opcode long named
  apply Nat.le_of_not_lt
  intro short
  generalize size :
    min (p.data (26 + (p.data 25).toNat)).toNat 63 = dname at short
  generalize place : 26 + (p.data 25).toNat + dname = last at *
  have unsized :
      (p.overwrite last [p.data last + 1]).data (26 + (p.data 25).toNat) =
        p.data (26 + (p.data 25).toNat) :=
    memWrite_byte_ne (by omega) p.data (p.data last + 1)
  have changed := displayName_overwrite reads opcode long named
    (show p.len ≤ last by omega) (p.data last + 1)
  rw [unsized, size] at changed
  have ends := congrArg (·.getD (dname - 1) 0) changed
  have position : 27 + (p.data 25).toNat + (dname - 1) = last := by
    omega
  simp only [getD_memSlice (show dname - 1 < dname by omega), position]
    at ends
  exact byte_succ_ne _ ((memWrite_byte_self p.data _ _).symm.trans ends)

end

theorem not_readsReceivedOnly_connRequest
    (opcode : p.opcode = ctrlConnectRequest) (long : 25 ≤ p.len)
    (short : p.len < connRequestExtent p) : ¬ReadsReceivedOnly C p := by
  intro reads
  rcases Nat.lt_or_ge p.len 26 with unsized | sized
  · exact not_readsReceivedOnly_unameLen opcode (by omega) reads
  · by_cases refused : (p.data 25).toNat > 31
    · rw [connRequestExtent, if_pos refused] at short
      omega
    · have ends := displayName_received reads opcode sized
        (Nat.not_lt.mp refused)
      simp only [connRequestExtent, if_neg refused] at short
      omega

/-- The handlers look at the received bytes only, exactly on the packets that
reach as far as they read. -/
theorem readsReceivedOnly_iff
    (C : CryptoSuite) (encaps : EncapsReadsKey C)
    (decaps : RekeyReadsCiphertext C) (p : PacketBuf) :
    ReadsReceivedOnly C p ↔ controlExtent p ≤ p.len := by
  constructor
  · intro reads
    apply Nat.le_of_not_lt
    intro short
    rcases Nat.lt_or_ge p.len 25 with unread | long
    · exact not_readsReceivedOnly_opcode unread reads
    unfold controlExtent at short
    split at short
    · rename_i reconnect
      exact not_readsReceivedOnly_reconnect reconnect long short reads
    split at short
    · rename_i init
      rcases Nat.lt_or_ge p.len 33 with unread | epoch
      · exact not_readsReceivedOnly_epoch (Or.inl init) long unread reads
      · exact not_readsReceivedOnly_publicKey encaps init epoch short reads
    split at short
    · rename_i confirm
      rcases Nat.lt_or_ge p.len 33 with unread | epoch
      · exact not_readsReceivedOnly_epoch (Or.inr confirm) long unread reads
      · exact not_readsReceivedOnly_ciphertext decaps confirm epoch short
          reads
    split at short
    · rename_i request
      exact not_readsReceivedOnly_connRequest request long short reads
    · omega
  · exact readsReceivedOnly_of_extent C

end

/-! ## A KEM with that sensitivity -/

/-- The ciphertext repeats the last byte of the public key, the secret starts
with the last byte of the ciphertext, and the first bytes of key and data
enter the hash. -/
def lastByteSuite : CryptoSuite :=
  { sampleSuite with
    hmacSha256 := fun key data => fitTo 32 [key.getD 0 0 ^^^ data.getD 0 0]
    kemEncaps := fun publicKey _ =>
      some (List.replicate kemCtSize (publicKey.getLastD 0),
        fitTo 32 [publicKey.getLastD 0])
    kemDecaps := fun _ ciphertext => some (fitTo 32 [ciphertext.getLastD 0])
    length_hmacSha256 := fun _ _ => length_fitTo _ _
    length_kemEncaps := by
      intro publicKey coins ciphertext secret made
      cases made
      exact ⟨List.length_replicate, length_fitTo _ _⟩
    length_kemDecaps := by
      intro secretKey ciphertext secret made
      cases made
      exact length_fitTo _ _ }

/-- A part completed with zeros and a last byte of one's choice. -/
def completed (size : Nat) (part : Bytes) (last : UInt8) : Bytes :=
  fitTo size part ++ [last]

theorem completed_continues
    {size : Nat} {part : Bytes} (short : part.length < size + 1)
    (last : UInt8) :
    part <+: completed size part last ∧
      (completed size part last).length = size + 1 := by
  refine ⟨?_, by simp [completed]⟩
  have fits : fitTo size part = part ++ zeros (size - part.length) := by
    rw [fitTo, List.take_append, List.take_of_length_le (by omega), zeros,
      List.take_replicate, zeros, Nat.min_eq_left (Nat.sub_le _ _)]
  rw [completed, fits, List.append_assoc]
  exact List.prefix_append _ _

@[simp]
theorem getLastD_completed (size : Nat) (part : Bytes) (last : UInt8) :
    (completed size part last).getLastD 0 = last := by
  simp [completed]

theorem encapsReadsKey_lastByteSuite : EncapsReadsKey lastByteSuite := by
  intro part short
  refine ⟨[], completed 1183 part 0, completed 1183 part 1,
    completed_continues short 0, completed_continues short 1, ?_⟩
  intro equal
  have text : ∀ last : UInt8,
      (lastByteSuite.kemEncaps (completed 1183 part last) []).map Prod.fst =
        some (List.replicate kemCtSize last) := by
    intro last
    change some (List.replicate kemCtSize _) = _
    rw [getLastD_completed]
  rw [text, text, Option.some.injEq] at equal
  have bytes := (List.replicate_inj.mp equal).2
  rcases bytes with none | same
  · cases none
  · cases same

/-- The first byte of the session key follows the first byte of the
secret. -/
theorem sessionKeyMaterial_lastByteSuite (first : UInt8) (epoch : UInt64) :
    (sessionKeyMaterial lastByteSuite (fitTo 32 [first])
      (rekeyContext 0 epoch)).1.getD 0 0 = first ^^^ 83 := by
  change ((0 : UInt8) ^^^ first) ^^^ 83 = first ^^^ 83
  rw [UInt8.zero_xor]

theorem rekeyReadsCiphertext_lastByteSuite :
    RekeyReadsCiphertext lastByteSuite := by
  intro part epoch short
  refine ⟨0, [], completed 1087 part 0, completed 1087 part 1,
    completed_continues short 0, completed_continues short 1, ?_⟩
  intro equal
  have secret : ∀ last : UInt8,
      lastByteSuite.kemDecaps [] (completed 1087 part last) =
        some (fitTo 32 [last]) := by
    intro last
    change some (fitTo 32 [_]) = _
    rw [getLastD_completed]
  rw [secret, secret, Option.map_some, Option.map_some,
    Option.some.injEq] at equal
  have firsts := congrArg (fun keys => keys.1.getD 0 0) equal
  simp only [sessionKeyMaterial_lastByteSuite] at firsts
  exact absurd firsts (by decide)

/-- A heartbeat acknowledgement of 25 bytes is handled alike in every
buffer. -/
theorem readsReceivedOnly_heartbeatAck :
    ReadsReceivedOnly lastByteSuite
      (controlPacket default true 42 7 [ctrlHeartbeatAck]) :=
  (readsReceivedOnly_iff lastByteSuite encapsReadsKey_lastByteSuite
    rekeyReadsCiphertext_lastByteSuite _).mpr (by decide)

/-- A RECONNECT that ends after its opcode. -/
def shortReconnect : PacketBuf :=
  controlPacket default true 42 7 [ctrlReconnect]

/-- The parser takes it, and `reconnect_handle` finds the session or not
according to the byte behind it. -/
theorem reconnectHandle_reads_stale :
    (packetParse shortReconnect).isSome ∧
      SameReceived shortReconnect (shortReconnect.overwrite 25 [42]) ∧
      (reconnectHandle shortReconnect (lockedAs 42) none 0 0).ret = 0 ∧
      (reconnectHandle (shortReconnect.overwrite 25 [42]) (lockedAs 42) none
        0 0).ret = 1 :=
  ⟨by decide, sameReceived_overwrite_behind (by decide) _, by decide,
    by decide⟩

end PqComm
