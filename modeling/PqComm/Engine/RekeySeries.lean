import PqComm.Engine.RekeyRuns

/-!
# Exchanges one after another, and exchanges that fail

Exchanges that are completed one after another keep the two sides in step,
whichever side begins each of them.  An exchange that fails does not always
leave a side as it was: the peer switches its keys before it has a buffer and a
place in the queue for the answer, and the initiator replaces the secret key it
holds before it knows that the message is queued.
-/

namespace PqComm

open Lib

/-! ## Completed exchanges -/

/-- Who begins, and what each of the three calls finds. -/
structure RekeyExchange where
  side : Side
  initiate : RekeyEnv
  answer : RekeyEnv
  confirm : RekeyEnv

/-- The KEM works, and there are buffers for the two messages. -/
structure RekeyExchange.Works (C : CryptoSuite) (x : RekeyExchange) : Prop where
  initiateBuf : x.initiate.buf.isSome = true
  answerBuf : x.answer.buf.isSome = true
  kem :
    ∃ publicKey secretKey,
      C.kemKeypair x.initiate.coins = some (publicKey, secretKey) ∧
        (C.kemEncaps publicKey x.answer.coins).isSome = true

section

variable (C : CryptoSuite)

/-- A side initiates; the message it has just sent is handled by the peer, and
the answer to it by the side itself. -/
def RekeyWorld.exchange (w : RekeyWorld) (x : RekeyExchange) : RekeyWorld :=
  let asked := w.step C (.initiate x.side x.initiate)
  let answered :=
    asked.step C (.deliver x.side.other (w.sent x.side).length x.answer)
  answered.step C
    (.deliver x.side (asked.sent x.side.other).length x.confirm)

def RekeyWorld.exchanges (w : RekeyWorld) (series : List RekeyExchange) :
    RekeyWorld :=
  series.foldl (RekeyWorld.exchange C) w

end

section

variable {C : CryptoSuite} {w : RekeyWorld} {side : Side}

@[simp]
theorem RekeyWorld.put_sent_self (w : RekeyWorld) (side : Side)
    (result : CtlOut) :
    (w.put side result).sent side = w.sent side ++ result.out.toList :=
  Function.update_self ..

/-- The message that was sent last is delivered. -/
theorem RekeyWorld.step_deliver_last
    {earlier : List PacketBuf} {p : PacketBuf}
    (sent : w.sent side.other = earlier ++ [p]) (env : RekeyEnv) :
    w.step C (.deliver side earlier.length env) = w.receive C side p env := by
  rw [RekeyWorld.step, sent, List.getElem?_append_right (Nat.le_refl _),
    Nat.sub_self]
  rfl

/-- The initiator holds the new secret key and has sent the public key. -/
theorem RekeyWorld.initiates
    {env : RekeyEnv} {buf : PacketBuf} {publicKey secretKey : Bytes}
    (locked : (w.sess side).state = .locked)
    (made : C.kemKeypair env.coins = some (publicKey, secretKey))
    (pool : env.buf = some buf) :
    let asked := w.step C (.initiate side env)
    asked.sess side =
        { w.sess side with
          hs := { (w.sess side).hs with kemSecretKey := secretKey } } ∧
      asked.sess side.other = w.sess side.other ∧
      ∃ init, asked.sent side = w.sent side ++ [init] ∧
        init.opcode = ctrlRekeyInit ∧ init.word = w.epoch side ∧
        init.rekeyPublicKey = publicKey := by
  intro asked
  have result := rekeyInitiate_eq C (w.seq side) locked made pool
  refine ⟨?_, RekeyWorld.put_sess_other .., _, ?_,
    initPacket_reads (w.sess side) buf (w.seq side)
      (C.length_kemKeypair _ _ _ made).1⟩
  · change (w.put side _).sess side = _
    rw [RekeyWorld.put_sess_self, result]
  · change (w.put side _).sent side = _
    rw [RekeyWorld.put_sent_self, result]
    rfl

/-- The peer has switched and answers with the ciphertext. -/
theorem RekeyWorld.answers
    {env : RekeyEnv} {buf init : PacketBuf} {ciphertext secret : Bytes}
    (locked : (w.sess side).state = .locked)
    (opcode : init.opcode = ctrlRekeyInit)
    (epoch : init.word = w.epoch side)
    (made :
      C.kemEncaps init.rekeyPublicKey env.coins = some (ciphertext, secret))
    (pool : env.buf = some buf) :
    let answered := w.receive C side init env
    answered.sess side = (w.sess side).switched C secret ∧
      answered.sess side.other = w.sess side.other ∧
      ∃ confirm, answered.sent side = w.sent side ++ [confirm] ∧
        confirm.opcode = ctrlRekeyConfirm ∧
        confirm.word = w.epoch side + 1 ∧
        confirm.rekeyCiphertext = ciphertext := by
  intro answered
  have result :=
    rekeyHandle_init_eq C (w.seq side) locked opcode epoch made pool
  refine ⟨?_, RekeyWorld.put_sess_other .., _, ?_,
    confirmPacket_reads ((w.sess side).switched C secret) buf (w.seq side)
      init.addr (C.length_kemEncaps _ _ _ _ made).1⟩
  · change (w.put side _).sess side = _
    rw [RekeyWorld.put_sess_self, result]
  · change (w.put side _).sent side = _
    rw [RekeyWorld.put_sent_self, result]
    rfl

/-- The initiator has switched and holds no secret key. -/
theorem RekeyWorld.confirms
    (env : RekeyEnv) {confirm : PacketBuf} {secret : Bytes}
    (locked : (w.sess side).state = .locked)
    (opcode : confirm.opcode = ctrlRekeyConfirm)
    (epoch : confirm.word = w.epoch side + 1)
    (opened :
      C.kemDecaps (w.sess side).hs.kemSecretKey confirm.rekeyCiphertext =
        some secret) :
    let confirmed := w.receive C side confirm env
    confirmed.sess side =
        { (w.sess side).switched C secret with
          hs :=
            { (w.sess side).hs with kemSecretKey := zeros kemSkSize } } ∧
      confirmed.sess side.other = w.sess side.other := by
  intro confirmed
  have result :
      rekeyHandle C env confirm (w.sess side) (w.seq side) = _ :=
    rekeyHandle_confirm_eq C (w.seq side) locked opcode epoch opened
  refine ⟨?_, RekeyWorld.put_sess_other ..⟩
  change (w.put side _).sess side = _
  rw [RekeyWorld.put_sess_self, result]

/-- Both sides are locked and have one identifier and the same keys. -/
structure InStep (w : RekeyWorld) : Prop where
  locked : ∀ side, (w.sess side).state = .locked
  sameId : ∀ side, (w.sess side).sessionId = (w.sess side.other).sessionId
  sameKeys : ∀ side, (w.sess side).keys = (w.sess side.other).keys

theorem SyncedPair.inStep (pair : SyncedPair) : InStep pair.start :=
  ⟨pair.locked, pair.sameId, pair.sameKeys⟩

/-- What a completed exchange leaves on both sides. -/
theorem InStep.exchange_sess
    (inStep : InStep w) (kem : KemInverts C) {x : RekeyExchange}
    (works : x.Works C) :
    ∃ secret,
      (w.exchange C x).sess x.side =
          { (w.sess x.side).switched C secret with
            hs :=
              { (w.sess x.side).hs with
                kemSecretKey := zeros kemSkSize } } ∧
        (w.exchange C x).sess x.side.other =
          (w.sess x.side.other).switched C secret := by
  obtain ⟨side, first, second, third⟩ := x
  obtain ⟨publicKey, secretKey, made, some⟩ := works.kem
  obtain ⟨pair, encapsulated⟩ := Option.isSome_iff_exists.mp some
  obtain ⟨ciphertext, secret⟩ := pair
  obtain ⟨firstBuf, firstPool⟩ :=
    Option.isSome_iff_exists.mp works.initiateBuf
  obtain ⟨secondBuf, secondPool⟩ :=
    Option.isSome_iff_exists.mp works.answerBuf
  dsimp only at made encapsulated firstPool secondPool ⊢
  have sameEpoch : w.epoch side = w.epoch side.other :=
    congrArg SessionKeys.keyEpoch (inStep.sameKeys side)
  refine ⟨secret, ?_⟩
  obtain ⟨askedSelf, askedPeer, init, initSent, initOpcode, initWord,
    initKey⟩ := RekeyWorld.initiates (inStep.locked side) made firstPool
  let asked := w.step C (.initiate side first)
  have askedEpoch : asked.epoch side.other = w.epoch side.other :=
    congrArg (fun s : Session => s.keys.keyEpoch) askedPeer
  have opens :
      C.kemEncaps init.rekeyPublicKey second.coins =
        Option.some (ciphertext, secret) := by
    rw [initKey]
    exact encapsulated
  obtain ⟨answeredPeer, answeredSelf, confirm, confirmSent, confirmOpcode,
    confirmWord, confirmText⟩ :=
    asked.answers (by rw [askedPeer]; exact inStep.locked side.other)
      initOpcode (by rw [initWord, sameEpoch, askedEpoch]) opens secondPool
  let answered := asked.receive C side.other init second
  rw [Side.other_other] at answeredSelf
  have heldSelf : answered.sess side = asked.sess side := answeredSelf
  have heldEpoch : answered.epoch side = w.epoch side := by
    rw [RekeyWorld.epoch, heldSelf, askedSelf]
    rfl
  obtain ⟨confirmedSelf, confirmedPeer⟩ :=
    RekeyWorld.confirms (w := answered) (C := C) third
      (by rw [heldSelf, askedSelf]; exact inStep.locked side)
      confirmOpcode
      (by rw [confirmWord, askedEpoch, heldEpoch, sameEpoch])
      (by
        rw [confirmText, heldSelf, askedSelf]
        exact kem _ _ _ _ _ _ made encapsulated)
  have whole :
      w.exchange C ⟨side, first, second, third⟩ =
        answered.receive C side confirm third := by
    change (asked.step C (.deliver side.other (w.sent side).length
      second)).step C (.deliver side (asked.sent side.other).length third) = _
    have last : asked.sent side.other.other = w.sent side ++ [init] := by
      rw [Side.other_other]
      exact initSent
    rw [RekeyWorld.step_deliver_last last]
    exact RekeyWorld.step_deliver_last confirmSent third
  rw [whole]
  constructor
  · rw [confirmedSelf, heldSelf, askedSelf]
    rfl
  · rw [confirmedPeer, answeredPeer, askedPeer]

/-- A completed exchange keeps the sides in step, one epoch later. -/
theorem InStep.exchange
    (inStep : InStep w) (kem : KemInverts C) {x : RekeyExchange}
    (works : x.Works C) :
    InStep (w.exchange C x) ∧
      ∀ side, (w.exchange C x).epoch side = w.epoch side + 1 := by
  obtain ⟨secret, self, peer⟩ := inStep.exchange_sess kem works
  have keys (side : Side) :
      ((w.exchange C x).sess side).keys =
        nextKeys C (w.sess side).sessionId (w.epoch side) secret := by
    rcases Side.eq_or_other x.side side with rfl | rfl
    · rw [self]
      rfl
    · rw [peer]
      rfl
  have id (side : Side) :
      ((w.exchange C x).sess side).sessionId = (w.sess side).sessionId := by
    rcases Side.eq_or_other x.side side with rfl | rfl
    · rw [self]
      rfl
    · rw [peer]
      rfl
  refine ⟨⟨fun side => ?_, fun side => ?_, fun side => ?_⟩, fun side => ?_⟩
  · rcases Side.eq_or_other x.side side with rfl | rfl
    · rw [self]
      exact inStep.locked x.side
    · rw [peer]
      exact inStep.locked x.side.other
  · rw [id, id]
    exact inStep.sameId side
  · rw [keys, keys, inStep.sameId side, RekeyWorld.epoch,
      inStep.sameKeys side]
    rfl
  · rw [RekeyWorld.epoch, keys]
    rfl

/-- The secret key of the initiator is gone, and that of the peer is what it
was. -/
theorem InStep.exchange_secretKey
    (inStep : InStep w) (kem : KemInverts C) {x : RekeyExchange}
    (works : x.Works C) :
    ((w.exchange C x).sess x.side).hs.kemSecretKey = zeros kemSkSize ∧
      ((w.exchange C x).sess x.side.other).hs.kemSecretKey =
        (w.sess x.side.other).hs.kemSecretKey := by
  obtain ⟨secret, self, peer⟩ := inStep.exchange_sess kem works
  rw [self, peer]
  exact ⟨rfl, rfl⟩

/-- A series of completed exchanges. -/
theorem InStep.exchanges
    (inStep : InStep w) (kem : KemInverts C) {series : List RekeyExchange}
    (works : ∀ x ∈ series, x.Works C) :
    InStep (w.exchanges C series) ∧
      (∀ side, (w.exchanges C series).epoch side =
        w.epoch side + UInt64.ofNat series.length) ∧
      ∀ side,
        (w.sess side).hs.kemSecretKey = zeros kemSkSize ∨
            (∃ x ∈ series, x.side = side) →
          ((w.exchanges C series).sess side).hs.kemSecretKey =
            zeros kemSkSize := by
  induction series generalizing w with
  | nil =>
      refine ⟨inStep, fun side => (UInt64.add_zero _).symm, fun side => ?_⟩
      rintro (wiped | ⟨x, member, -⟩)
      · exact wiped
      · cases member
  | cons x rest inductionHypothesis =>
      rw [List.forall_mem_cons] at works
      obtain ⟨next, epochs⟩ := inStep.exchange kem works.1
      obtain ⟨own, other⟩ := inStep.exchange_secretKey kem works.1
      obtain ⟨last, counted, wiped⟩ := inductionHypothesis next works.2
      refine ⟨last, fun side => ?_, fun side held => wiped side ?_⟩
      · change ((w.exchange C x).exchanges C rest).epoch side = _
        rw [counted, epochs, List.length_cons, UInt64.add_assoc,
          UInt64.ofNat_add, UInt64.add_comm 1]
        rfl
      · rcases Side.eq_or_other x.side side with rfl | rfl
        · exact Or.inl own
        · rw [other]
          refine held.imp_right ?_
          rintro ⟨y, member, same⟩
          rcases List.mem_cons.mp member with rfl | later
          · exact absurd same.symm (Side.other_ne _)
          · exact ⟨y, later, same⟩

end

/-- After any series of completed exchanges, begun by either side, both sides
are locked and as many epochs on, their keys are the same, and no initiator
holds a secret key. -/
theorem rekey_series_in_step
    (C : CryptoSuite) (kem : KemInverts C) (pair : SyncedPair)
    {series : List RekeyExchange} (works : ∀ x ∈ series, x.Works C) :
    let w := pair.start.exchanges C series
    (∀ side,
        (w.sess side).state = .locked ∧
          w.epoch side =
            (pair.session side).keys.keyEpoch +
              UInt64.ofNat series.length) ∧
      (w.sess .left).keys.sessionKey = (w.sess .right).keys.sessionKey ∧
      (w.sess .left).keys.channelKeys = (w.sess .right).keys.channelKeys ∧
      ∀ x ∈ series,
        (w.sess x.side).hs.kemSecretKey = zeros kemSkSize := by
  intro w
  obtain ⟨inStep, epochs, wiped⟩ := pair.inStep.exchanges kem works
  have keys : (w.sess .left).keys = (w.sess .right).keys :=
    inStep.sameKeys .left
  refine ⟨fun side => ⟨inStep.locked side, epochs side⟩, ?_, ?_, ?_⟩
  · rw [keys]
  · rw [keys]
  · intro x member
    exact wiped x.side (Or.inr ⟨x, member, rfl⟩)

/-- Each side begins one exchange. -/
def alternatingSeries : List RekeyExchange :=
  [⟨.left, rekeyEnvSample 1, rekeyEnvSample 2, rekeyEnvSample 3⟩,
    ⟨.right, rekeyEnvSample 4, rekeyEnvSample 5, rekeyEnvSample 6⟩]

theorem rekey_series_in_step_alternating :
    (syncedSample.start.exchanges sampleSuite alternatingSeries).epoch
        .left = 2 ∧
      ((syncedSample.start.exchanges sampleSuite alternatingSeries).sess
          .left).keys.sessionKey =
        ((syncedSample.start.exchanges sampleSuite alternatingSeries).sess
          .right).keys.sessionKey := by
  have works : ∀ x ∈ alternatingSeries, x.Works sampleSuite := by
    simp only [alternatingSeries, List.forall_mem_cons]
    exact ⟨⟨rfl, rfl, _, _, rfl, rfl⟩, ⟨rfl, rfl, _, _, rfl, rfl⟩,
      List.forall_mem_nil _⟩
  obtain ⟨sides, keys, -, -⟩ :=
    rekey_series_in_step sampleSuite kemInverts_sampleSuite syncedSample works
  exact ⟨(sides .left).2, keys⟩

/-! ## Failed exchanges -/

/-- The call returned -1, or its message found no room in the queue. -/
def CtlOut.Failed (result : CtlOut) (room : Bool) : Prop :=
  result.ret = -1 ∨ result.out.isSome = true ∧ room = false

/-- A REKEY_INIT of this epoch for whose answer there is no buffer or no
room. -/
structure AnswerLost (C : CryptoSuite) (env : RekeyEnv) (room : Bool)
    (p : PacketBuf) (s : Session) : Prop where
  locked : s.state = .locked
  opcode : p.opcode = ctrlRekeyInit
  epoch : p.word = s.keys.keyEpoch
  kem : (C.kemEncaps p.rekeyPublicKey env.coins).isSome = true
  lost : env.buf = none ∨ room = false

/-- A new secret key whose REKEY_INIT finds no room. -/
structure RequestLost (C : CryptoSuite) (env : RekeyEnv) (room : Bool)
    (s : Session) : Prop where
  locked : s.state = .locked
  buf : env.buf.isSome = true
  noRoom : room = false
  fresh :
    ∃ publicKey secretKey,
      C.kemKeypair env.coins = some (publicKey, secretKey) ∧
        secretKey ≠ s.hs.kemSecretKey

section

variable {C : CryptoSuite} {env : RekeyEnv} {room : Bool} {p : PacketBuf}
  {s : Session} {seq : UInt32}

/-- When the answer is lost, the call has failed and the counter has moved. -/
theorem AnswerLost.failed (lost : AnswerLost C env room p s) (seq : UInt32) :
    (rekeyHandle C env p s seq).Failed room ∧
      (rekeyHandle C env p s seq).seq = seq + 1 := by
  obtain ⟨pair, made⟩ := Option.isSome_iff_exists.mp lost.kem
  obtain ⟨ciphertext, secret⟩ := pair
  cases pool : env.buf with
  | none =>
      have size := (C.length_kemEncaps _ _ _ _ made).2
      have result :
          rekeyHandle C env p s seq =
            { ret := -1, sess := s.switched C secret, seq := seq + 1 } := by
        simp [rekeyHandle, lost.locked, lost.opcode, lost.epoch, made, pool,
          deriveRekeyKeys_eq C s size]
      rw [result]
      exact ⟨Or.inl rfl, rfl⟩
  | some buf =>
      have noRoom : room = false :=
        lost.lost.resolve_left (by rw [pool]; exact Option.some_ne_none buf)
      rw [rekeyHandle_init_eq C seq lost.locked lost.opcode lost.epoch made
        pool]
      exact ⟨Or.inr ⟨rfl, noRoom⟩, rfl⟩

/-- `rekey_handle` keeps the keys and the counter in a call that fails exactly
when it is not the answer that is lost. -/
theorem rekeyHandle_atomic_iff :
    ((rekeyHandle C env p s seq).Failed room →
        (rekeyHandle C env p s seq).sess.keys = s.keys ∧
          (rekeyHandle C env p s seq).seq = seq) ↔
      ¬ AnswerLost C env room p s := by
  constructor
  · intro atomic lost
    obtain ⟨failed, moved⟩ := lost.failed seq
    have same := (atomic failed).2
    rw [moved] at same
    simp at same
  · intro kept failed
    have done := rekeyHandle_cases C env p s seq
    generalize rekeyHandle C env p s seq = result at done failed ⊢
    cases done with
    | ignored ret idle =>
        exact ⟨rfl, rfl⟩
    | switched locked opcode epoch ciphertext secret made ret out answer =>
        refine absurd ⟨locked, opcode, epoch, by rw [made]; rfl, ?_⟩ kept
        rcases answer with ⟨buf, pool, rfl, rfl⟩ | ⟨pool, rfl, rfl⟩
        · rcases failed with wrong | ⟨-, noRoom⟩
          · cases wrong
          · exact Or.inr noRoom
        · exact Or.inl pool
    | confirmed locked opcode epoch secret opened =>
        rcases failed with wrong | ⟨wrong, -⟩
        · cases wrong
        · cases wrong

/-- `rekey_initiate` keeps the session in a call that fails exactly when it is
not a new secret key that is lost. -/
theorem rekeyInitiate_atomic_iff :
    ((rekeyInitiate C env s seq).Failed room →
        (rekeyInitiate C env s seq).sess = s) ↔
      ¬ RequestLost C env room s := by
  constructor
  · rintro atomic ⟨locked, some, noRoom, publicKey, secretKey, made, fresh⟩
    obtain ⟨buf, pool⟩ := Option.isSome_iff_exists.mp some
    rw [rekeyInitiate_eq C seq locked made pool] at atomic
    have same := atomic (Or.inr ⟨rfl, noRoom⟩)
    exact fresh (congrArg (fun t : Session => t.hs.kemSecretKey) same)
  · intro kept failed
    have done := rekeyInitiate_cases C env s seq
    generalize rekeyInitiate C env s seq = result at done failed ⊢
    cases done with
    | failed =>
        rfl
    | sent locked publicKey secretKey made buf pool =>
        rcases failed with wrong | ⟨-, noRoom⟩
        · cases wrong
        · by_cases same : secretKey = s.hs.kemSecretKey
          · rw [same]
          · exact absurd ⟨locked, by rw [pool]; rfl, noRoom, publicKey,
              secretKey, made, same⟩ kept

end

/-- A rekey call that fails leaves everything as it was, unless the answer to a
REKEY_INIT or the REKEY_INIT of a new secret key is lost. -/
theorem rekey_atomic_iff
    (C : CryptoSuite) (env : RekeyEnv) (room : Bool) (p : PacketBuf)
    (s : Session) (seq : UInt32) :
    (((rekeyHandle C env p s seq).Failed room →
          (rekeyHandle C env p s seq).sess.keys = s.keys ∧
            (rekeyHandle C env p s seq).seq = seq) ↔
        ¬ AnswerLost C env room p s) ∧
      (((rekeyInitiate C env s seq).Failed room →
          (rekeyInitiate C env s seq).sess = s) ↔
        ¬ RequestLost C env room s) :=
  ⟨rekeyHandle_atomic_iff, rekeyInitiate_atomic_iff⟩

/-- The pool is empty when the answer to a REKEY_INIT is built: the call fails
with the next key epoch in place. -/
theorem rekeyHandle_loses_keys :
    let s : Session := { sessionId := 6, state := .locked }
    let init := initPacket s default 1 (zeros kemPkSize)
    let result := rekeyHandle sampleSuite ⟨[1], none⟩ init s 1
    result.ret = -1 ∧ result.sess.keys.keyEpoch = 1 ∧
      s.keys.keyEpoch = 0 ∧ result.seq = 2 := by
  decide +kernel

end PqComm
