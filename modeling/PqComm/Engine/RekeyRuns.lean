import Mathlib.Logic.Function.Basic
import PqComm.Engine.Rekey

/-!
# Runs of the rekey protocol

Two locked endpoints that start with the same keys.  Either may call
`rekey_initiate` at any time, and every message that was sent may be given to
`rekey_handle` on the other side, any number of times, in any order, or never.

The messages carry an epoch and nothing else to tell one exchange from
another.  Two exchanges that overlap in one epoch are therefore mixed up, and
`Undisputed` names the two deliveries that do so: a REKEY_INIT whose sender
has left its epoch already, and a REKEY_CONFIRM that answers another
REKEY_INIT than the one whose secret key is held.  In every run without such
a delivery the two sides have equal keys whenever they have equal epochs.
-/

namespace PqComm

open Lib

/-- Decapsulation returns the secret that was encapsulated for the public key
of the same pair. -/
def KemInverts (C : CryptoSuite) : Prop :=
  ∀ keyCoins publicKey secretKey coins ciphertext secret,
    C.kemKeypair keyCoins = some (publicKey, secretKey) →
      C.kemEncaps publicKey coins = some (ciphertext, secret) →
        C.kemDecaps secretKey ciphertext = some secret

/-- The endpoints of one locked session with the same keys. -/
structure SyncedPair where
  session : Side → Session
  seqCounter : Side → UInt32
  locked : ∀ side, (session side).state = .locked
  sameId : ∀ side, (session side).sessionId = (session side.other).sessionId
  sameKeys : ∀ side, (session side).keys = (session side.other).keys

/-- Both endpoints and what each has sent.  `pending` and `answer` are history
variables: the REKEY_INIT whose secret key a side holds, and the
REKEY_CONFIRM it sent at its last switch with the REKEY_INIT it answers. -/
structure RekeyWorld where
  sess : Side → Session
  seq : Side → UInt32
  sent : Side → List PacketBuf := fun _ => []
  pending : Side → Option PacketBuf := fun _ => none
  answer : Side → Option (PacketBuf × PacketBuf) := fun _ => none

inductive RekeyAct where
  | initiate (side : Side) (env : RekeyEnv)
  | deliver (side : Side) (message : Nat) (env : RekeyEnv)

def SyncedPair.start (pair : SyncedPair) : RekeyWorld :=
  { sess := pair.session, seq := pair.seqCounter }

def RekeyWorld.epoch (w : RekeyWorld) (side : Side) : UInt64 :=
  (w.sess side).keys.keyEpoch

/-- The side is left as a function of `rekey.c` leaves it. -/
def RekeyWorld.put (w : RekeyWorld) (side : Side) (result : CtlOut) :
    RekeyWorld :=
  { w with
    sess := Function.update w.sess side result.sess
    seq := Function.update w.seq side result.seq
    sent := Function.update w.sent side (w.sent side ++ result.out.toList) }

section

variable (C : CryptoSuite)

/-- A message reaches `rekey_handle` on a side. -/
def RekeyWorld.receive (w : RekeyWorld) (side : Side) (p : PacketBuf)
    (env : RekeyEnv) : RekeyWorld :=
  let result := rekeyHandle C env p (w.sess side) (w.seq side)
  { w.put side result with
    pending :=
      if result.ret = 2 then
        Function.update w.pending side none
      else
        w.pending
    answer :=
      if p.opcode = ctrlRekeyInit ∧
          result.sess.keys.keyEpoch ≠ w.epoch side then
        Function.update w.answer side (result.out.map fun c => (c, p))
      else
        w.answer }

def RekeyWorld.step (w : RekeyWorld) : RekeyAct → RekeyWorld
  | .initiate side env =>
      let result := rekeyInitiate C env (w.sess side) (w.seq side)
      { w.put side result with
        pending :=
          if result.ret = 0 then
            Function.update w.pending side result.out
          else
            w.pending }
  | .deliver side message env =>
      match (w.sent side.other)[message]? with
      | none => w
      | some p => w.receive C side p env

def RekeyWorld.run (w : RekeyWorld) (acts : List RekeyAct) : RekeyWorld :=
  acts.foldl (RekeyWorld.step C) w

end

/-- Handling `p` on `side` mixes up no two exchanges. -/
structure UndisputedMessage (w : RekeyWorld) (side : Side) (p : PacketBuf) :
    Prop where
  init :
    p.opcode = ctrlRekeyInit → p.word = w.epoch side →
      w.epoch side.other = p.word
  confirm :
    p.opcode = ctrlRekeyConfirm → p.word = w.epoch side + 1 →
      w.epoch side.other = p.word ∧
        ∃ q, w.answer side.other = some (p, q) ∧ w.pending side = some q

def Undisputed (w : RekeyWorld) : RekeyAct → Prop
  | .initiate _ _ => True
  | .deliver side message _ =>
      ∀ p, (w.sent side.other)[message]? = some p →
        UndisputedMessage w side p

/-- Every step of the run is undisputed in the state it is taken in. -/
def UndisputedRun (C : CryptoSuite) : RekeyWorld → List RekeyAct → Prop
  | _, [] => True
  | w, act :: rest =>
      Undisputed w act ∧ UndisputedRun C (w.step C act) rest

/-- Equal epochs come with equal keys. -/
def RekeyWorld.KeysAgree (w : RekeyWorld) : Prop :=
  w.epoch .left = w.epoch .right →
    (w.sess .left).keys.sessionKey = (w.sess .right).keys.sessionKey ∧
      (w.sess .left).keys.channelKeys = (w.sess .right).keys.channelKeys

/-! ## The invariant -/

section

variable (C : CryptoSuite)

/-- `side` has switched in answer to the peer, who has not yet. -/
structure Ahead (w : RekeyWorld) (side : Side) : Prop where
  epoch : w.epoch side = w.epoch side.other + 1
  answer :
    ∀ p q, w.answer side = some (p, q) →
      ∃ coins secret,
        C.kemEncaps q.rekeyPublicKey coins =
            some (p.rekeyCiphertext, secret) ∧
          (w.sess side).keys =
            nextKeys C (w.sess side.other).sessionId (w.epoch side.other)
              secret

/-- The keys are the same, or one side has switched first. -/
def RekeyPhase (w : RekeyWorld) : Prop :=
  (∀ side, (w.sess side).keys = (w.sess side.other).keys) ∨
    ∃ side, Ahead C w side

structure RekeyInv (w : RekeyWorld) : Prop where
  locked : ∀ side, (w.sess side).state = .locked
  sameId :
    ∀ side, (w.sess side).sessionId = (w.sess side.other).sessionId
  pending :
    ∀ side q, w.pending side = some q →
      ∃ coins,
        C.kemKeypair coins =
          some (q.rekeyPublicKey, (w.sess side).hs.kemSecretKey)
  phase : RekeyPhase C w

variable {C : CryptoSuite} {w : RekeyWorld} {side : Side}

theorem rekeyInv_start (pair : SyncedPair) : RekeyInv C pair.start where
  locked := pair.locked
  sameId := pair.sameId
  pending := by
    intro side q held
    cases held
  phase := Or.inl pair.sameKeys

theorem Ahead.epoch_ne (ahead : Ahead C w side) (one : Side) :
    w.epoch one ≠ w.epoch one.other := by
  have differ : w.epoch side ≠ w.epoch side.other := by
    rw [ahead.epoch]
    simp
  rcases Side.eq_or_other side one with rfl | rfl
  · exact differ
  · rw [Side.other_other]
    exact differ.symm

/-- A side is at most one epoch ahead of the other. -/
theorem Ahead.behind
    (ahead : Ahead C w side) {one : Side}
    (next : w.epoch one.other = w.epoch one + 1) : side = one.other := by
  rcases Side.eq_or_other one.other side with same | same
  · exact same
  · rw [Side.other_other] at same
    subst same
    have twice := ahead.epoch
    rw [next, UInt64.add_assoc] at twice
    have zero := congrArg (· - w.epoch side) twice
    simp only [UInt64.sub_self, UInt64.add_comm (w.epoch side),
      UInt64.add_sub_cancel] at zero
    exact absurd zero (by decide)

/-! ## One step -/

@[simp]
theorem RekeyWorld.put_sess_self (w : RekeyWorld) (side : Side)
    (result : CtlOut) : (w.put side result).sess side = result.sess :=
  Function.update_self ..

@[simp]
theorem RekeyWorld.put_sess_other (w : RekeyWorld) (side : Side)
    (result : CtlOut) :
    (w.put side result).sess side.other = w.sess side.other :=
  Function.update_of_ne (Side.other_ne side) ..

/-- A side that keeps its lock and its identifier keeps those parts of the
invariant. -/
theorem RekeyInv.put
    (inv : RekeyInv C w) {result : CtlOut}
    (state : result.sess.state = (w.sess side).state)
    (id : result.sess.sessionId = (w.sess side).sessionId) (one : Side) :
    ((w.put side result).sess one).state = .locked ∧
      ((w.put side result).sess one).sessionId =
        ((w.put side result).sess one.other).sessionId := by
  rcases Side.eq_or_other side one with rfl | rfl
  · rw [RekeyWorld.put_sess_self, RekeyWorld.put_sess_other, state, id]
    exact ⟨inv.locked one, inv.sameId one⟩
  · rw [Side.other_other, RekeyWorld.put_sess_self,
      RekeyWorld.put_sess_other, id]
    exact ⟨inv.locked side.other, (inv.sameId side).symm⟩

theorem RekeyPhase.congr
    (phase : RekeyPhase C w) {w' : RekeyWorld}
    (keys : ∀ one, (w'.sess one).keys = (w.sess one).keys)
    (id : ∀ one, (w'.sess one).sessionId = (w.sess one).sessionId)
    (answer : w'.answer = w.answer) : RekeyPhase C w' := by
  have epoch : ∀ one, w'.epoch one = w.epoch one := by
    intro one
    rw [RekeyWorld.epoch, keys]
    rfl
  rcases phase with even | ⟨side, ahead⟩
  · refine Or.inl fun one => ?_
    rw [keys, keys]
    exact even one
  · refine Or.inr ⟨side, ?_, ?_⟩
    · rw [epoch, epoch]
      exact ahead.epoch
    · rw [answer, keys, id, epoch]
      exact ahead.answer

theorem RekeyInv.of_same
    (inv : RekeyInv C w) {w' : RekeyWorld} (sess : w'.sess = w.sess)
    (pending : w'.pending = w.pending) (answer : w'.answer = w.answer) :
    RekeyInv C w' where
  locked := sess ▸ inv.locked
  sameId := sess ▸ inv.sameId
  pending := sess ▸ pending ▸ inv.pending
  phase :=
    inv.phase.congr (fun one => by rw [sess]) (fun one => by rw [sess])
      answer

theorem RekeyInv.initiate
    (inv : RekeyInv C w) (side : Side) (env : RekeyEnv) :
    RekeyInv C (w.step C (.initiate side env)) := by
  have done := rekeyInitiate_cases C env (w.sess side) (w.seq side)
  simp only [RekeyWorld.step]
  generalize rekeyInitiate C env (w.sess side) (w.seq side) = result at done
  cases done with
  | failed =>
      exact inv.of_same (Function.update_eq_self ..) rfl rfl
  | sent locked publicKey secretKey made buf pool =>
      have size := (C.length_kemKeypair _ _ _ made).1
      have reads := initPacket_reads (w.sess side) buf (w.seq side) size
      refine ⟨fun one => (inv.put rfl rfl one).1,
        fun one => (inv.put rfl rfl one).2, ?_, ?_⟩
      · intro one q held
        replace held :
            Function.update w.pending side
                (some (initPacket (w.sess side) buf (w.seq side) publicKey))
                one = some q :=
          held
        rcases Side.eq_or_other side one with rfl | rfl
        · rw [Function.update_self] at held
          cases held
          rw [reads.2.2, RekeyWorld.put_sess_self]
          exact ⟨env.coins, made⟩
        · rw [Function.update_of_ne (Side.other_ne side)] at held
          rw [RekeyWorld.put_sess_other]
          exact inv.pending side.other q held
      · refine inv.phase.congr ?_ ?_ rfl <;>
        · intro one
          rcases Side.eq_or_other side one with rfl | rfl
          · rw [RekeyWorld.put_sess_self]
          · rw [RekeyWorld.put_sess_other]

/-- No switch, nothing to keep track of. -/
theorem RekeyInv.ignore
    (inv : RekeyInv C w) (p : PacketBuf) (env : RekeyEnv)
    (sess :
      (rekeyHandle C env p (w.sess side) (w.seq side)).sess = w.sess side)
    (ret : (rekeyHandle C env p (w.sess side) (w.seq side)).ret ≠ 2) :
    RekeyInv C (w.receive C side p env) := by
  refine inv.of_same ?_ ?_ ?_
  · change Function.update w.sess side _ = w.sess
    rw [sess, Function.update_eq_self]
  · exact if_neg ret
  · have same : ¬ (p.opcode = ctrlRekeyInit ∧
        (rekeyHandle C env p (w.sess side) (w.seq side)).sess.keys.keyEpoch ≠
          w.epoch side) := by
      rw [sess]
      exact fun moved => moved.2 rfl
    exact if_neg same

/-- A side that answers a REKEY_INIT of a peer in the same epoch is ahead. -/
theorem RekeyInv.answers
    (inv : RekeyInv C w) {p : PacketBuf} {env : RekeyEnv}
    (undisputed : w.epoch side.other = w.epoch side)
    {ciphertext secret : Bytes}
    (opcode : p.opcode = ctrlRekeyInit)
    (made :
      C.kemEncaps p.rekeyPublicKey env.coins = some (ciphertext, secret))
    {ret : Int} {out : Option PacketBuf}
    (answer :
      (∃ buf, env.buf = some buf ∧ ret = 1 ∧
          out =
            some
              (confirmPacket ((w.sess side).switched C secret) buf
                (w.seq side) p.addr ciphertext)) ∨
        env.buf = none ∧ ret = -1 ∧ out = none)
    (handled :
      rekeyHandle C env p (w.sess side) (w.seq side) =
        { ret := ret
          sess := (w.sess side).switched C secret
          seq := w.seq side + 1
          out := out }) :
    RekeyInv C (w.receive C side p env) := by
  have notConfirm : ret ≠ 2 := by
    rcases answer with ⟨_, _, rfl, _⟩ | ⟨_, rfl, _⟩ <;> decide
  have even : ∀ one, (w.sess one).keys = (w.sess one.other).keys := by
    rcases inv.phase with even | ⟨one, ahead⟩
    · exact even
    · exact absurd undisputed.symm (ahead.epoch_ne side)
  simp only [RekeyWorld.receive, handled]
  refine ⟨fun one => (inv.put rfl rfl one).1,
    fun one => (inv.put rfl rfl one).2, ?_, Or.inr ⟨side, ?_, ?_⟩⟩
  · intro one q held
    dsimp only at held
    rw [if_neg notConfirm] at held
    rcases Side.eq_or_other side one with rfl | rfl
    · rw [RekeyWorld.put_sess_self]
      exact inv.pending one q held
    · rw [RekeyWorld.put_sess_other]
      exact inv.pending side.other q held
  · simp only [RekeyWorld.epoch, RekeyWorld.put_sess_self,
      RekeyWorld.put_sess_other]
    rw [← even side]
    rfl
  · intro c q last
    have moved :
        p.opcode = ctrlRekeyInit ∧
          ((w.sess side).switched C secret).keys.keyEpoch ≠ w.epoch side :=
      ⟨opcode, by simp [Session.switched, nextKeys, RekeyWorld.epoch]⟩
    dsimp only at last
    rw [if_pos moved, Function.update_self] at last
    rcases answer with ⟨buf, pool, _, rfl⟩ | ⟨_, _, rfl⟩
    · cases last
      have size := (C.length_kemEncaps _ _ _ _ made).1
      rw [(confirmPacket_reads _ buf _ _ size).2.2]
      refine ⟨env.coins, secret, made, ?_⟩
      simp only [RekeyWorld.epoch, RekeyWorld.put_sess_self,
        RekeyWorld.put_sess_other]
      rw [← inv.sameId side, ← even side]
      rfl
    · cases last

/-- The side that was behind catches up with the keys of the peer. -/
theorem RekeyInv.confirms
    (inv : RekeyInv C w) (kem : KemInverts C)
    {p q : PacketBuf} {env : RekeyEnv} {secret : Bytes}
    (behind : w.epoch side.other = w.epoch side + 1)
    (answered : w.answer side.other = some (p, q))
    (pending : w.pending side = some q)
    (opcode : p.opcode = ctrlRekeyConfirm)
    (opened :
      C.kemDecaps (w.sess side).hs.kemSecretKey p.rekeyCiphertext =
        some secret)
    (handled :
      rekeyHandle C env p (w.sess side) (w.seq side) =
        { ret := 2
          sess :=
            { (w.sess side).switched C secret with
              hs := { (w.sess side).hs with kemSecretKey := zeros kemSkSize } }
          seq := w.seq side }) :
    RekeyInv C (w.receive C side p env) := by
  have keys :
      (w.sess side.other).keys =
        nextKeys C (w.sess side).sessionId (w.epoch side) secret := by
    rcases inv.phase with even | ⟨one, ahead⟩
    · have same := congrArg SessionKeys.keyEpoch (even side)
      rw [RekeyWorld.epoch, ← same] at behind
      simp [RekeyWorld.epoch] at behind
    · have who := ahead.behind behind
      subst who
      obtain ⟨coins, encapsulated, made, keys⟩ := ahead.answer p q answered
      obtain ⟨keyCoins, pair⟩ := inv.pending side q pending
      have same := kem _ _ _ _ _ _ pair made
      rw [opened] at same
      cases same
      rwa [Side.other_other] at keys
  have notInit : ¬ p.opcode = ctrlRekeyInit := by
    rw [opcode]
    decide
  simp only [RekeyWorld.receive, handled]
  refine ⟨fun one => (inv.put rfl rfl one).1,
    fun one => (inv.put rfl rfl one).2, ?_, Or.inl ?_⟩
  · intro one held pendingOne
    replace pendingOne :
        Function.update w.pending side none one = some held :=
      pendingOne
    rcases Side.eq_or_other side one with rfl | rfl
    · rw [Function.update_self] at pendingOne
      cases pendingOne
    · rw [Function.update_of_ne (Side.other_ne side)] at pendingOne
      rw [RekeyWorld.put_sess_other]
      exact inv.pending side.other held pendingOne
  · intro one
    rcases Side.eq_or_other side one with rfl | rfl
    · rw [RekeyWorld.put_sess_self, RekeyWorld.put_sess_other, keys]
      rfl
    · rw [Side.other_other, RekeyWorld.put_sess_self,
        RekeyWorld.put_sess_other, keys]
      rfl

theorem RekeyInv.receive
    (inv : RekeyInv C w) (kem : KemInverts C) {p : PacketBuf}
    (undisputed : UndisputedMessage w side p) (env : RekeyEnv) :
    RekeyInv C (w.receive C side p env) := by
  have done := rekeyHandle_cases C env p (w.sess side) (w.seq side)
  generalize handled :
    rekeyHandle C env p (w.sess side) (w.seq side) = result at done
  cases done with
  | ignored ret idle =>
      refine inv.ignore p env ?_ ?_
      · rw [handled]
      · rw [handled]
        intro two
        have two : ret = 2 := two
        omega
  | switched locked opcode epoch ciphertext secret made ret out answer =>
      have same := undisputed.init opcode epoch
      rw [epoch] at same
      exact inv.answers same opcode made answer handled
  | confirmed locked opcode epoch secret opened =>
      obtain ⟨peer, q, answered, pending⟩ := undisputed.confirm opcode epoch
      rw [epoch] at peer
      exact inv.confirms kem peer answered pending opcode opened handled

theorem RekeyInv.step
    (inv : RekeyInv C w) (kem : KemInverts C) {act : RekeyAct}
    (undisputed : Undisputed w act) : RekeyInv C (w.step C act) := by
  cases act with
  | initiate side env =>
      exact inv.initiate side env
  | deliver side message env =>
      rw [RekeyWorld.step]
      cases found : (w.sent side.other)[message]? with
      | none =>
          exact inv
      | some p =>
          exact inv.receive kem (undisputed p found) env

/-! ## A whole run -/

theorem RekeyInv.run
    (inv : RekeyInv C w) (kem : KemInverts C) {acts : List RekeyAct}
    (undisputed : UndisputedRun C w acts) : RekeyInv C (w.run C acts) := by
  induction acts generalizing w with
  | nil =>
      exact inv
  | cons act rest inductionHypothesis =>
      exact inductionHypothesis (inv.step kem undisputed.1) undisputed.2

theorem RekeyInv.keysAgree (inv : RekeyInv C w) : w.KeysAgree := by
  intro epoch
  rcases inv.phase with even | ⟨side, ahead⟩
  · have same : (w.sess .left).keys = (w.sess .right).keys := even .left
    rw [same]
    exact ⟨rfl, rfl⟩
  · exact absurd epoch (ahead.epoch_ne .left)

end

/-- In every run without a disputed delivery, equal epochs come with equal
keys. -/
theorem rekey_agreement
    (C : CryptoSuite) (kem : KemInverts C) (pair : SyncedPair)
    (acts : List RekeyAct)
    (undisputed : UndisputedRun C pair.start acts) :
    (pair.start.run C acts).KeysAgree :=
  ((rekeyInv_start pair).run kem undisputed).keysAgree

/-! ## An exchange that nothing disturbs -/

/-- A side initiates, the peer answers and the answer arrives. -/
def exchange (side : Side) (first second third : RekeyEnv) :
    List RekeyAct :=
  [.initiate side first, .deliver side.other 0 second,
    .deliver side 0 third]

/-- A message that is the only one of its sender. -/
theorem undisputed_only
    {w : RekeyWorld} {side : Side} {p : PacketBuf} (env : RekeyEnv)
    (sent : w.sent side.other = [p])
    (undisputed : UndisputedMessage w side p) :
    Undisputed w (.deliver side 0 env) := by
  intro found isThere
  rw [sent] at isThere
  cases isThere
  exact undisputed

/-- The first exchange of a pair is undisputed. -/
theorem undisputedRun_exchange
    (C : CryptoSuite) (pair : SyncedPair) (side : Side)
    {first second : RekeyEnv} (third : RekeyEnv)
    {publicKey secretKey ciphertext secret : Bytes}
    {firstBuf secondBuf : PacketBuf}
    (made : C.kemKeypair first.coins = some (publicKey, secretKey))
    (firstPool : first.buf = some firstBuf)
    (encapsulated :
      C.kemEncaps publicKey second.coins = some (ciphertext, secret))
    (secondPool : second.buf = some secondBuf) :
    UndisputedRun C pair.start (exchange side first second third) := by
  have initSize := (C.length_kemKeypair _ _ _ made).1
  have confirmSize := (C.length_kemEncaps _ _ _ _ encapsulated).1
  obtain ⟨initOpcode, initWord, initKey⟩ :=
    initPacket_reads (pair.session side) firstBuf (pair.seqCounter side)
      initSize
  have sameEpoch :
      (pair.session side).keys.keyEpoch =
        (pair.session side.other).keys.keyEpoch := by
    rw [pair.sameKeys]
  -- The world after each of the first two steps, and what is read of it.
  let initiated : CtlOut :=
    { ret := 0
      sess :=
        { pair.session side with
          hs := { (pair.session side).hs with kemSecretKey := secretKey } }
      seq := pair.seqCounter side + 1
      out :=
        some
          (initPacket (pair.session side) firstBuf (pair.seqCounter side)
            publicKey) }
  have initiates :
      rekeyInitiate C first (pair.session side) (pair.seqCounter side) =
        initiated :=
    rekeyInitiate_eq C _ (pair.locked side) made firstPool
  let w1 : RekeyWorld :=
    { pair.start.put side initiated with
      pending := Function.update (fun _ => none) side initiated.out }
  have step1 : pair.start.step C (.initiate side first) = w1 := by
    simp only [RekeyWorld.step, SyncedPair.start, initiates]
    rfl
  have sent1 :
      w1.sent side =
        [initPacket (pair.session side) firstBuf (pair.seqCounter side)
          publicKey] :=
    Function.update_self ..
  have sentPeer1 : w1.sent side.other = [] :=
    Function.update_of_ne (Side.other_ne side) ..
  have pending1 :
      w1.pending side =
        some
          (initPacket (pair.session side) firstBuf (pair.seqCounter side)
            publicKey) := by
    change Function.update (fun _ => none) side initiated.out side = _
    rw [Function.update_self]
  have self1 : w1.sess side = initiated.sess :=
    RekeyWorld.put_sess_self ..
  have peer1 : w1.sess side.other = pair.session side.other :=
    RekeyWorld.put_sess_other ..
  rw [← initKey] at encapsulated
  have answers :=
    rekeyHandle_init_eq C (w1.seq side.other) (pair.locked side.other)
      initOpcode (initWord.trans sameEpoch) encapsulated secondPool
  obtain ⟨confirmOpcode, confirmWord, -⟩ :=
    confirmPacket_reads ((pair.session side.other).switched C secret)
      secondBuf (w1.seq side.other)
      (initPacket (pair.session side) firstBuf (pair.seqCounter side)
        publicKey).addr confirmSize
  refine ⟨trivial, ?_, ?_, trivial⟩
  · rw [step1]
    refine undisputed_only _ (by rw [Side.other_other, sent1]) ⟨?_, ?_⟩
    · intro _ _
      rw [RekeyWorld.epoch, Side.other_other, self1, initWord]
    · rw [initOpcode]
      exact fun wrong => absurd wrong (by decide)
  · have step2 :
        w1.step C (.deliver side.other 0 second) =
          w1.receive C side.other
            (initPacket (pair.session side) firstBuf (pair.seqCounter side)
              publicKey) second := by
      simp only [RekeyWorld.step, Side.other_other, sent1,
        List.getElem?_cons_zero]
    rw [step1, step2]
    simp only [RekeyWorld.receive, peer1, answers]
    refine undisputed_only _
      ((Function.update_self ..).trans (by rw [sentPeer1]; rfl)) ⟨?_, ?_⟩
    · rw [confirmOpcode]
      exact fun wrong => absurd wrong (by decide)
    · intro _ _
      refine ⟨?_, _, ?_, pending1⟩
      · rw [confirmWord, RekeyWorld.epoch, RekeyWorld.put_sess_self]
      · have moved :
            ((pair.session side.other).switched C secret).keys.keyEpoch ≠
              w1.epoch side.other := by
          simp [RekeyWorld.epoch, peer1, Session.switched, nextKeys]
        dsimp only
        rw [if_pos ⟨initOpcode, moved⟩, Function.update_self]
        rfl

/-! ## Two runs of a pair that has just locked -/

def syncedSample : SyncedPair where
  session := fun _ => { sessionId := 6, state := .locked }
  seqCounter := fun _ => 1
  locked := fun _ => rfl
  sameId := fun _ => rfl
  sameKeys := fun _ => rfl

/-- A buffer and coins. -/
def rekeyEnvSample (coin : UInt8) : RekeyEnv :=
  { coins := [coin], buf := some default }

/-- Both sides initiate, and each handles the REKEY_INIT of the other. -/
def crossingInitiates : List RekeyAct :=
  [.initiate .left (rekeyEnvSample 1), .initiate .right (rekeyEnvSample 2),
    .deliver .right 0 (rekeyEnvSample 3), .deliver .left 0 (rekeyEnvSample 4)]

/-- Both sides are in epoch 1 then, with two different keys. -/
theorem crossingInitiates_split_keys :
    ¬ (syncedSample.start.run sampleSuite crossingInitiates).KeysAgree := by
  unfold RekeyWorld.KeysAgree
  decide +kernel

theorem kemInverts_sampleSuite : KemInverts sampleSuite := by
  intro keyCoins publicKey secretKey coins ciphertext secret made encaps
  cases made
  cases encaps
  exact kemDecaps_sampleSuite keyCoins _

/-- The left side initiates and both messages arrive. -/
def oneExchange : List RekeyAct :=
  exchange .left (rekeyEnvSample 1) (rekeyEnvSample 2) (rekeyEnvSample 3)

/-- Both sides are in epoch 1 then, with one key. -/
theorem rekey_agreement_oneExchange :
    (syncedSample.start.run sampleSuite oneExchange).epoch .left = 1 ∧
      (syncedSample.start.run sampleSuite oneExchange).epoch .right = 1 ∧
      (syncedSample.start.run sampleSuite oneExchange).KeysAgree :=
  ⟨by decide +kernel, by decide +kernel,
    rekey_agreement sampleSuite kemInverts_sampleSuite syncedSample oneExchange
      (undisputedRun_exchange _ syncedSample .left _ rfl rfl rfl rfl)⟩

end PqComm
