import PqComm.Engine.Control

/-!
# Key rotation

`rekey.c`.  A REKEY_INIT carries the key epoch of its sender and a fresh public
key; the receiver encapsulates a secret, switches to the keys it derives from
it and answers with a REKEY_CONFIRM that carries the new epoch and the
ciphertext.  The sender of the REKEY_INIT switches when that arrives.  Neither
message is authenticated, and a message whose epoch does not match is
ignored.
-/

namespace PqComm

open Lib

/-- Randomness of the KEM and the buffer that `pool_get` returns. -/
structure RekeyEnv where
  coins : Bytes
  buf : Option PacketBuf

/-- `memcpy(pk, p->data + 33, pk_size)`. -/
def PacketBuf.rekeyPublicKey (p : PacketBuf) : Bytes :=
  memSlice p.data 33 kemPkSize

/-- `memcpy(ct, p->data + 33, ct_size)`. -/
def PacketBuf.rekeyCiphertext (p : PacketBuf) : Bytes :=
  memSlice p.data 33 kemCtSize

/-- A rekey message: opcode, epoch and key or ciphertext. -/
def rekeyPayload (opcode : UInt8) (epoch : UInt64) (body : Bytes) : Bytes :=
  opcode :: (leBytes 8 epoch.toNat ++ body)

/-- The context of the derivation: session identifier, new epoch, zeros. -/
def rekeyContext (sessionId epoch : UInt64) : Bytes :=
  leBytes 8 sessionId.toNat ++ leBytes 8 epoch.toNat ++ zeros 24

section

variable (C : CryptoSuite)

/-- `rekey_initiate`. -/
def rekeyInitiate (env : RekeyEnv) (s : Session) (seq : UInt32) : CtlOut :=
  if s.state ≠ .locked then
    { ret := -1, sess := s, seq := seq }
  else
    match C.kemKeypair env.coins with
    | none => { ret := -1, sess := s, seq := seq }
    | some (publicKey, secretKey) =>
        match env.buf with
        | none => { ret := -1, sess := s, seq := seq }
        | some buf =>
            let payload := rekeyPayload ctrlRekeyInit s.keys.keyEpoch publicKey
            { ret := 0
              sess := { s with hs := { s.hs with kemSecretKey := secretKey } }
              seq := seq + 1
              out :=
                some
                  ((controlPacket buf false s.sessionId seq payload).setAddr
                    (overlay buf.addr (s.addr.take s.addrLen)) s.addrLen) }

/-- `derive_rekey_keys`. -/
def deriveRekeyKeys (s : Session) (secret : Bytes) : Option Session :=
  let epoch := s.keys.keyEpoch + 1
  (deriveSessionKeys C secret (rekeyContext s.sessionId epoch)).map
    fun material =>
      { s with
        keys :=
          { sessionKey := material.1
            channelKeys := material.2
            keyEpoch := epoch } }

/-- `rekey_handle`. -/
def rekeyHandle (env : RekeyEnv) (p : PacketBuf) (s : Session) (seq : UInt32) :
    CtlOut :=
  if s.state ≠ .locked then
    { ret := -1, sess := s, seq := seq }
  else if p.opcode = ctrlRekeyInit then
    if p.word ≠ s.keys.keyEpoch then
      { ret := 0, sess := s, seq := seq }
    else
      match C.kemEncaps p.rekeyPublicKey env.coins with
      | none => { ret := -1, sess := s, seq := seq }
      | some (ciphertext, secret) =>
          match deriveRekeyKeys C s secret with
          | none => { ret := -1, sess := s, seq := seq }
          | some s =>
              -- The keys are replaced before the answer has a buffer.
              match env.buf with
              | none => { ret := -1, sess := s, seq := seq + 1 }
              | some buf =>
                  let payload :=
                    rekeyPayload ctrlRekeyConfirm s.keys.keyEpoch ciphertext
                  { ret := 1
                    sess := s
                    seq := seq + 1
                    out :=
                      some
                        ((controlPacket buf false s.sessionId seq
                          payload).sendTo p.addr) }
  else if p.opcode = ctrlRekeyConfirm then
    if p.word ≠ s.keys.keyEpoch + 1 then
      { ret := 0, sess := s, seq := seq }
    else
      match C.kemDecaps s.hs.kemSecretKey p.rekeyCiphertext with
      | none => { ret := -1, sess := s, seq := seq }
      | some secret =>
          match deriveRekeyKeys C s secret with
          | none => { ret := -1, sess := s, seq := seq }
          | some s =>
              { ret := 2
                sess :=
                  { s with
                    hs := { s.hs with kemSecretKey := zeros kemSkSize } }
                seq := seq }
  else
    { ret := 0, sess := s, seq := seq }

/-! ## What the functions do -/

/-- The keys of the epoch after `epoch`, from a secret. -/
def nextKeys (sessionId epoch : UInt64) (secret : Bytes) : SessionKeys :=
  let material := sessionKeyMaterial C secret (rekeyContext sessionId (epoch + 1))
  { sessionKey := material.1
    channelKeys := material.2
    keyEpoch := epoch + 1 }

/-- The session after it has switched to the keys of a secret. -/
def Session.switched (s : Session) (secret : Bytes) : Session :=
  { s with keys := nextKeys C s.sessionId s.keys.keyEpoch secret }

theorem deriveRekeyKeys_eq
    (s : Session) {secret : Bytes} (size : secret.length = 32) :
    deriveRekeyKeys C s secret = some (s.switched C secret) := by
  have secretNonempty : secret.length ≠ 0 := by
    omega
  have contextNonempty :
      (rekeyContext s.sessionId (s.keys.keyEpoch + 1)).length ≠ 0 := by
    simp [rekeyContext]
  rw [deriveRekeyKeys, deriveSessionKeys_eq C secretNonempty contextNonempty]
  rfl

/-- The REKEY_INIT of a session. -/
def initPacket (s : Session) (buf : PacketBuf) (seq : UInt32)
    (publicKey : Bytes) : PacketBuf :=
  (controlPacket buf false s.sessionId seq
    (rekeyPayload ctrlRekeyInit s.keys.keyEpoch publicKey)).setAddr
      (overlay buf.addr (s.addr.take s.addrLen)) s.addrLen

/-- The REKEY_CONFIRM of a session that has switched. -/
def confirmPacket (s : Session) (buf : PacketBuf) (seq : UInt32)
    (dest ciphertext : Bytes) : PacketBuf :=
  (controlPacket buf false s.sessionId seq
    (rekeyPayload ctrlRekeyConfirm s.keys.keyEpoch ciphertext)).sendTo dest

/-- What `rekey_initiate` can do. -/
inductive RekeyInitiated (env : RekeyEnv) (s : Session) (seq : UInt32) :
    CtlOut → Prop where
  | failed : RekeyInitiated env s seq { ret := -1, sess := s, seq := seq }
  | sent
      (locked : s.state = .locked) (publicKey secretKey : Bytes)
      (made : C.kemKeypair env.coins = some (publicKey, secretKey))
      (buf : PacketBuf) (pool : env.buf = some buf) :
      RekeyInitiated env s seq
        { ret := 0
          sess := { s with hs := { s.hs with kemSecretKey := secretKey } }
          seq := seq + 1
          out := some (initPacket s buf seq publicKey) }

theorem rekeyInitiate_cases (env : RekeyEnv) (s : Session) (seq : UInt32) :
    RekeyInitiated C env s seq (rekeyInitiate C env s seq) := by
  unfold rekeyInitiate
  split
  · exact RekeyInitiated.failed
  · rename_i state
    cases made : C.kemKeypair env.coins with
    | none =>
        exact RekeyInitiated.failed
    | some pair =>
        obtain ⟨publicKey, secretKey⟩ := pair
        cases pool : env.buf with
        | none =>
            exact RekeyInitiated.failed
        | some buf =>
            exact RekeyInitiated.sent (by simpa using state) publicKey
              secretKey made buf pool

/-- What `rekey_handle` can do. -/
inductive RekeyHandled (env : RekeyEnv) (p : PacketBuf) (s : Session)
    (seq : UInt32) : CtlOut → Prop where
  | ignored (ret : Int) (idle : ret ≤ 0) :
      RekeyHandled env p s seq { ret := ret, sess := s, seq := seq }
  | switched
      (locked : s.state = .locked) (opcode : p.opcode = ctrlRekeyInit)
      (epoch : p.word = s.keys.keyEpoch) (ciphertext secret : Bytes)
      (made :
        C.kemEncaps p.rekeyPublicKey env.coins = some (ciphertext, secret))
      (ret : Int) (out : Option PacketBuf)
      (answer :
        (∃ buf, env.buf = some buf ∧ ret = 1 ∧
            out =
              some
                (confirmPacket (s.switched C secret) buf seq p.addr
                  ciphertext)) ∨
          env.buf = none ∧ ret = -1 ∧ out = none) :
      RekeyHandled env p s seq
        { ret := ret
          sess := s.switched C secret
          seq := seq + 1
          out := out }
  | confirmed
      (locked : s.state = .locked) (opcode : p.opcode = ctrlRekeyConfirm)
      (epoch : p.word = s.keys.keyEpoch + 1) (secret : Bytes)
      (opened :
        C.kemDecaps s.hs.kemSecretKey p.rekeyCiphertext = some secret) :
      RekeyHandled env p s seq
        { ret := 2
          sess :=
            { s.switched C secret with
              hs := { s.hs with kemSecretKey := zeros kemSkSize } }
          seq := seq }

theorem rekeyHandle_cases
    (env : RekeyEnv) (p : PacketBuf) (s : Session) (seq : UInt32) :
    RekeyHandled C env p s seq (rekeyHandle C env p s seq) := by
  unfold rekeyHandle
  split
  · exact RekeyHandled.ignored (-1) (by decide)
  rename_i state
  have locked : s.state = .locked := by
    simpa using state
  split
  · rename_i opcode
    split
    · exact RekeyHandled.ignored 0 (by decide)
    rename_i mismatch
    have epoch : p.word = s.keys.keyEpoch := by
      simpa using mismatch
    cases made : C.kemEncaps p.rekeyPublicKey env.coins with
    | none =>
        exact RekeyHandled.ignored (-1) (by decide)
    | some pair =>
        obtain ⟨ciphertext, secret⟩ := pair
        have size := (C.length_kemEncaps _ _ _ _ made).2
        simp only [deriveRekeyKeys_eq C s size]
        cases pool : env.buf with
        | none =>
            exact RekeyHandled.switched locked opcode epoch ciphertext secret
              made (-1) none (Or.inr ⟨pool, rfl, rfl⟩)
        | some buf =>
            exact RekeyHandled.switched locked opcode epoch ciphertext secret
              made 1 _ (Or.inl ⟨buf, pool, rfl, rfl⟩)
  · split
    · rename_i opcode
      split
      · exact RekeyHandled.ignored 0 (by decide)
      rename_i mismatch
      have epoch : p.word = s.keys.keyEpoch + 1 := by
        simpa using mismatch
      cases opened : C.kemDecaps s.hs.kemSecretKey p.rekeyCiphertext with
      | none =>
          exact RekeyHandled.ignored (-1) (by decide)
      | some secret =>
          simp only [deriveRekeyKeys_eq C s
            (C.length_kemDecaps _ _ _ opened)]
          exact RekeyHandled.confirmed locked opcode epoch secret opened
    · exact RekeyHandled.ignored 0 (by decide)

/-! ## Reading the messages back -/

@[simp]
theorem setAddr_data (p : PacketBuf) (addr : Bytes) (addrLen : Nat) :
    (p.setAddr addr addrLen).data = p.data :=
  rfl

/-- The fields of a rekey message are found where the handler looks. -/
theorem rekeyPayload_reads
    (buf : PacketBuf) (sessionId : UInt64) (seq : UInt32) (opcode : UInt8)
    (epoch : UInt64) (body : Bytes) :
    let p :=
      controlPacket buf false sessionId seq (rekeyPayload opcode epoch body)
    p.opcode = opcode ∧ p.word = epoch ∧
      memSlice p.data 33 body.length = body := by
  have length : (rekeyPayload opcode epoch body).length = 9 + body.length := by
    simp [rekeyPayload]
    omega
  refine ⟨?_, ?_, ?_⟩
  · rw [PacketBuf.opcode, controlPacket, headerSize,
      buildPacket_at _ _ _ _ _ _ _ (by omega), List.getD_append_right _ _ _ _
        (by simp)]
    simp [rekeyPayload]
  · have slice := buildPacket_payload_slice buf false 0 sessionId chControl
      seq (rekeyPayload opcode epoch body)
      (show 1 + 8 ≤ (rekeyPayload opcode epoch body).length by omega)
    have bytes :
        ((rekeyPayload opcode epoch body).drop 1).take 8 =
          leBytes 8 epoch.toNat :=
      List.take_left' (length_leBytes 8 _)
    rw [bytes] at slice
    rw [PacketBuf.word, controlPacket, slice, uint64_leNat_leBytes]
  · have slice := buildPacket_payload_slice buf false 0 sessionId chControl
      seq (rekeyPayload opcode epoch body)
      (show 9 + body.length ≤ (rekeyPayload opcode epoch body).length by
        omega)
    have bytes :
        ((rekeyPayload opcode epoch body).drop 9).take body.length = body := by
      have front : (opcode :: leBytes 8 epoch.toNat).length = 9 := by
        simp
      rw [rekeyPayload, ← List.cons_append, List.drop_left' front,
        List.take_length]
    rw [bytes] at slice
    exact slice

theorem initPacket_reads
    (s : Session) (buf : PacketBuf) (seq : UInt32) {publicKey : Bytes}
    (size : publicKey.length = kemPkSize) :
    (initPacket s buf seq publicKey).opcode = ctrlRekeyInit ∧
      (initPacket s buf seq publicKey).word = s.keys.keyEpoch ∧
      (initPacket s buf seq publicKey).rekeyPublicKey = publicKey := by
  have reads := rekeyPayload_reads buf s.sessionId seq ctrlRekeyInit
    s.keys.keyEpoch publicKey
  rw [size] at reads
  simp only [initPacket, PacketBuf.opcode, PacketBuf.word,
    PacketBuf.rekeyPublicKey, setAddr_data] at reads ⊢
  exact reads

theorem confirmPacket_reads
    (s : Session) (buf : PacketBuf) (seq : UInt32) (dest : Bytes)
    {ciphertext : Bytes} (size : ciphertext.length = kemCtSize) :
    let p := confirmPacket s buf seq dest ciphertext
    p.opcode = ctrlRekeyConfirm ∧ p.word = s.keys.keyEpoch ∧
      p.rekeyCiphertext = ciphertext := by
  have reads := rekeyPayload_reads buf s.sessionId seq ctrlRekeyConfirm
    s.keys.keyEpoch ciphertext
  rw [size] at reads
  simp only [confirmPacket, PacketBuf.sendTo, PacketBuf.opcode,
    PacketBuf.word, PacketBuf.rekeyCiphertext, setAddr_data] at reads ⊢
  exact reads

/-! ## An exchange that nothing disturbs -/

section

variable {env : RekeyEnv} {s : Session} {buf : PacketBuf}

theorem rekeyInitiate_eq
    (seq : UInt32) (locked : s.state = .locked) {publicKey secretKey : Bytes}
    (made : C.kemKeypair env.coins = some (publicKey, secretKey))
    (pool : env.buf = some buf) :
    rekeyInitiate C env s seq =
      { ret := 0
        sess := { s with hs := { s.hs with kemSecretKey := secretKey } }
        seq := seq + 1
        out := some (initPacket s buf seq publicKey) } := by
  simp [rekeyInitiate, locked, made, pool, initPacket]

theorem rekeyHandle_init_eq
    (seq : UInt32) (locked : s.state = .locked) {p : PacketBuf}
    (opcode : p.opcode = ctrlRekeyInit) (epoch : p.word = s.keys.keyEpoch)
    {ciphertext secret : Bytes}
    (made :
      C.kemEncaps p.rekeyPublicKey env.coins = some (ciphertext, secret))
    (pool : env.buf = some buf) :
    rekeyHandle C env p s seq =
      { ret := 1
        sess := s.switched C secret
        seq := seq + 1
        out :=
          some
            (confirmPacket (s.switched C secret) buf seq p.addr
              ciphertext) } := by
  have size := (C.length_kemEncaps _ _ _ _ made).2
  simp [rekeyHandle, locked, opcode, epoch, made, pool, confirmPacket,
    deriveRekeyKeys_eq C s size]

theorem rekeyHandle_confirm_eq
    (seq : UInt32) (locked : s.state = .locked) {p : PacketBuf}
    (opcode : p.opcode = ctrlRekeyConfirm)
    (epoch : p.word = s.keys.keyEpoch + 1) {secret : Bytes}
    (opened :
      C.kemDecaps s.hs.kemSecretKey p.rekeyCiphertext = some secret) :
    rekeyHandle C env p s seq =
      { ret := 2
        sess :=
          { s.switched C secret with
            hs := { s.hs with kemSecretKey := zeros kemSkSize } }
        seq := seq } := by
  have size := C.length_kemDecaps _ _ _ opened
  have notInit : ctrlRekeyConfirm ≠ ctrlRekeyInit := by
    decide
  simp [rekeyHandle, locked, opcode, notInit, epoch, opened,
    deriveRekeyKeys_eq C s size, Session.switched]

end

end

end PqComm
