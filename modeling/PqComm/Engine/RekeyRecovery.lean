import PqComm.Engine.RekeyRuns

/-!
# Rekeying over a link that loses messages

One side of a synchronised pair calls `rekey_initiate` as often as it likes;
each message is in flight until it is delivered or lost.

The peer switches when it handles a REKEY_INIT, before it can know whether
its REKEY_CONFIRM arrives.  A lost REKEY_CONFIRM leaves it one epoch ahead for
good, since from then on each side ignores what the other sends.  As long as
none is lost the pair stays within reach: whenever nothing is in flight the
epochs are equal, and one more exchange gives equal keys.
-/

namespace PqComm

open Lib

/-- Decapsulation under a generated secret key never fails: a ciphertext that
does not belong to it gives some other secret. -/
def KemRejectsImplicitly (C : CryptoSuite) : Prop :=
  ∀ coins publicKey secretKey ciphertext,
    C.kemKeypair coins = some (publicKey, secretKey) →
      ciphertext.length = kemCtSize →
        ∃ secret, C.kemDecaps secretKey ciphertext = some secret

/-- The side that initiates, its peer and the messages in flight. -/
structure RekeyNet where
  caller : Session
  callerSeq : UInt32
  peer : Session
  peerSeq : UInt32
  inits : List PacketBuf := []
  confirms : List PacketBuf := []

inductive NetAct where
  | initiate (env : RekeyEnv)
  | deliverInit (message : Nat) (env : RekeyEnv)
  | loseInit (message : Nat)
  | deliverConfirm (message : Nat) (env : RekeyEnv)
  | loseConfirm (message : Nat)

def SyncedPair.net (pair : SyncedPair) (side : Side) : RekeyNet :=
  { caller := pair.session side
    callerSeq := pair.seqCounter side
    peer := pair.session side.other
    peerSeq := pair.seqCounter side.other }

section

variable (C : CryptoSuite)

def RekeyNet.initiate (w : RekeyNet) (env : RekeyEnv) : RekeyNet :=
  let result := rekeyInitiate C env w.caller w.callerSeq
  { w with
    caller := result.sess
    callerSeq := result.seq
    inits := w.inits ++ result.out.toList }

/-- The peer handles `p`, and what it pushes is in flight. -/
def RekeyNet.peerHandles (w : RekeyNet) (p : PacketBuf) (env : RekeyEnv) :
    RekeyNet :=
  let result := rekeyHandle C env p w.peer w.peerSeq
  { w with
    peer := result.sess
    peerSeq := result.seq
    confirms := w.confirms ++ result.out.toList }

def RekeyNet.callerHandles (w : RekeyNet) (p : PacketBuf) (env : RekeyEnv) :
    RekeyNet :=
  let result := rekeyHandle C env p w.caller w.callerSeq
  { w with
    caller := result.sess
    callerSeq := result.seq
    inits := w.inits ++ result.out.toList }

def RekeyNet.loseInit (w : RekeyNet) (message : Nat) : RekeyNet :=
  { w with inits := w.inits.eraseIdx message }

def RekeyNet.loseConfirm (w : RekeyNet) (message : Nat) : RekeyNet :=
  { w with confirms := w.confirms.eraseIdx message }

def RekeyNet.step (w : RekeyNet) : NetAct → RekeyNet
  | .initiate env => w.initiate C env
  | .deliverInit message env =>
      match w.inits[message]? with
      | none => w
      | some p => (w.loseInit message).peerHandles C p env
  | .loseInit message => w.loseInit message
  | .deliverConfirm message env =>
      match w.confirms[message]? with
      | none => w
      | some p => (w.loseConfirm message).callerHandles C p env
  | .loseConfirm message => w.loseConfirm message

def RekeyNet.run (w : RekeyNet) (acts : List NetAct) : RekeyNet :=
  acts.foldl (RekeyNet.step C) w

/-- Epoch, session key and channel keys agree. -/
def RekeyNet.SameKeys (w : RekeyNet) : Prop :=
  w.caller.keys = w.peer.keys

def RekeyNet.Quiet (w : RekeyNet) : Prop :=
  w.inits = [] ∧ w.confirms = []

/-- Every further exchange in which nothing is lost and nothing fails gives
the two sides the same keys. -/
def RekeyNet.Restores (w : RekeyNet) : Prop :=
  ∀ first second third : RekeyEnv,
    ∀ publicKey secretKey ciphertext secret firstBuf secondBuf,
      C.kemKeypair first.coins = some (publicKey, secretKey) →
        first.buf = some firstBuf →
          C.kemEncaps publicKey second.coins = some (ciphertext, secret) →
            second.buf = some secondBuf →
              (w.run C
                [.initiate first, .deliverInit 0 second,
                  .deliverConfirm 0 third]).SameKeys

end

/-- The step loses no REKEY_CONFIRM, neither in flight nor for want of a
buffer to build it in, and it does not wrap the epoch around. -/
def ConfirmKept (w : RekeyNet) : NetAct → Prop
  | .deliverInit message env =>
      ∀ p, w.inits[message]? = some p → p.word = w.peer.keys.keyEpoch →
        env.buf.isSome ∧ w.peer.keys.keyEpoch.toNat + 1 < 2 ^ 64
  | .loseConfirm message => w.confirms[message]? = none
  | _ => True

def ConfirmKeptRun (C : CryptoSuite) : RekeyNet → List NetAct → Prop
  | _, [] => True
  | w, act :: rest => ConfirmKept w act ∧ ConfirmKeptRun C (w.step C act) rest

/-! ## The invariant -/

section

variable (C : CryptoSuite)

/-- The secret key of some generated pair is at hand. -/
def HoldsSecretKey (s : Session) : Prop :=
  ∃ coins publicKey,
    C.kemKeypair coins = some (publicKey, s.hs.kemSecretKey)

/-- The epochs are equal and no REKEY_CONFIRM is in flight, or the peer is one
ahead and the REKEY_CONFIRM of its epoch is. -/
inductive NetPhase (w : RekeyNet) : Prop where
  | level
      (epoch : w.peer.keys.keyEpoch = w.caller.keys.keyEpoch)
      (none : w.confirms = [])
  | answered
      (epoch : w.peer.keys.keyEpoch.toNat = w.caller.keys.keyEpoch.toNat + 1)
      (confirm : PacketBuf)
      (flight : w.confirms = [confirm])
      (opcode : confirm.opcode = ctrlRekeyConfirm)
      (word : confirm.word = w.peer.keys.keyEpoch)
      (held : HoldsSecretKey C w.caller)

structure NetInv (w : RekeyNet) : Prop where
  callerLocked : w.caller.state = .locked
  peerLocked : w.peer.state = .locked
  sameId : w.caller.sessionId = w.peer.sessionId
  inits :
    ∀ p ∈ w.inits,
      p.opcode = ctrlRekeyInit ∧
        p.word.toNat ≤ w.caller.keys.keyEpoch.toNat ∧
        (p.word = w.caller.keys.keyEpoch → HoldsSecretKey C w.caller)
  phase : NetPhase C w

variable {C : CryptoSuite} {w : RekeyNet}

theorem netInv_start (pair : SyncedPair) (side : Side) :
    NetInv C (pair.net side) where
  callerLocked := pair.locked side
  peerLocked := pair.locked side.other
  sameId := pair.sameId side
  inits := by
    intro p flying
    cases flying
  phase :=
    .level (congrArg SessionKeys.keyEpoch (pair.sameKeys side).symm) rfl

/-! ## One step -/

theorem NetPhase.congr
    (phase : NetPhase C w) {w' : RekeyNet}
    (caller : w'.caller.keys = w.caller.keys)
    (peer : w'.peer.keys = w.peer.keys)
    (confirms : w'.confirms = w.confirms)
    (held : HoldsSecretKey C w.caller → HoldsSecretKey C w'.caller) :
    NetPhase C w' := by
  cases phase with
  | level epoch none =>
      refine .level ?_ (confirms.trans none)
      rw [caller, peer]
      exact epoch
  | answered epoch confirm flight opcode word holds =>
      refine .answered ?_ confirm (confirms.trans flight) opcode ?_
        (held holds)
      · rw [caller, peer]
        exact epoch
      · rw [peer]
        exact word

theorem NetInv.initiate (inv : NetInv C w) (env : RekeyEnv) :
    NetInv C (w.initiate C env) := by
  have done := rekeyInitiate_cases C env w.caller w.callerSeq
  unfold RekeyNet.initiate
  generalize rekeyInitiate C env w.caller w.callerSeq = result at done
  cases done with
  | failed =>
      exact { inv with
        inits := by simpa using inv.inits
        phase := inv.phase.congr rfl rfl rfl id }
  | sent locked publicKey secretKey made buf pool =>
      have size := (C.length_kemKeypair _ _ _ made).1
      obtain ⟨opcode, word, -⟩ :=
        initPacket_reads w.caller buf w.callerSeq size
      have held :
          HoldsSecretKey C
            { w.caller with
              hs := { w.caller.hs with kemSecretKey := secretKey } } :=
        ⟨env.coins, publicKey, made⟩
      refine ⟨inv.callerLocked, inv.peerLocked, inv.sameId, ?_,
        inv.phase.congr rfl rfl rfl fun _ => held⟩
      intro p flying
      rcases List.mem_append.mp flying with old | new
      · obtain ⟨kind, bound, -⟩ := inv.inits p old
        exact ⟨kind, bound, fun _ => held⟩
      · rw [List.mem_singleton.mp new]
        exact ⟨opcode, Nat.le_of_eq (congrArg UInt64.toNat word),
          fun _ => held⟩

theorem NetInv.loseInit (inv : NetInv C w) (message : Nat) :
    NetInv C (w.loseInit message) :=
  { inv with
    inits := fun p flying => inv.inits p (List.mem_of_mem_eraseIdx flying)
    phase := inv.phase.congr rfl rfl rfl id }

/-- A REKEY_INIT that was in flight reaches the peer. -/
theorem NetInv.peerHandles
    (inv : NetInv C w) {p : PacketBuf} {env : RekeyEnv}
    (opcode : p.opcode = ctrlRekeyInit)
    (bound : p.word.toNat ≤ w.caller.keys.keyEpoch.toNat)
    (held : p.word = w.caller.keys.keyEpoch → HoldsSecretKey C w.caller)
    (kept :
      p.word = w.peer.keys.keyEpoch →
        env.buf.isSome ∧ w.peer.keys.keyEpoch.toNat + 1 < 2 ^ 64) :
    NetInv C (w.peerHandles C p env) := by
  have done := rekeyHandle_cases C env p w.peer w.peerSeq
  unfold RekeyNet.peerHandles
  generalize rekeyHandle C env p w.peer w.peerSeq = result at done
  cases done with
  | ignored ret idle =>
      exact { inv with
        phase := inv.phase.congr rfl rfl (List.append_nil _) id }
  | switched locked kind epoch ciphertext secret made ret out answer =>
      obtain ⟨pool, noWrap⟩ := kept epoch
      cases inv.phase with
      | level level none =>
          rcases answer with ⟨buf, _, _, rfl⟩ | ⟨empty, _⟩
          · have size := (C.length_kemEncaps _ _ _ _ made).1
            obtain ⟨confirmOpcode, confirmWord, -⟩ :=
              confirmPacket_reads (w.peer.switched C secret) buf w.peerSeq
                p.addr size
            refine ⟨inv.callerLocked, inv.peerLocked, inv.sameId, inv.inits,
              .answered ?_ _ ?_ confirmOpcode confirmWord
                (held (epoch.trans level))⟩
            · change (w.peer.keys.keyEpoch + 1).toNat = _
              rw [← level, UInt64.toNat_add, UInt64.toNat_one,
                Nat.mod_eq_of_lt noWrap]
            · simp [none]
          · rw [empty] at pool
            cases pool
      | answered ahead =>
          -- The peer is ahead of everything that can be in flight.
          rw [epoch] at bound
          omega
  | confirmed locked kind =>
      rw [opcode] at kind
      exact absurd kind (by decide)

/-- The REKEY_CONFIRM in flight reaches the caller, who switches whatever
secret key it holds. -/
theorem NetInv.deliverConfirm
    (inv : NetInv C w) (total : KemRejectsImplicitly C) (message : Nat)
    (env : RekeyEnv) :
    NetInv C (w.step C (.deliverConfirm message env)) := by
  unfold RekeyNet.step
  cases inv.phase with
  | level epoch none =>
      simp only [none, List.getElem?_nil]
      exact inv
  | answered epoch confirm flight opcode word held =>
      cases message with
      | succ later =>
          simp only [flight, List.getElem?_cons_succ, List.getElem?_nil]
          exact inv
      | zero =>
          obtain ⟨coins, publicKey, made⟩ := held
          obtain ⟨secret, opened⟩ :=
            total coins publicKey w.caller.hs.kemSecretKey
              confirm.rekeyCiphertext made (length_memSlice _ _ _)
          have next : w.peer.keys.keyEpoch = w.caller.keys.keyEpoch + 1 := by
            apply UInt64.toNat_inj.mp
            have small := w.peer.keys.keyEpoch.toNat_lt
            rw [UInt64.toNat_add, UInt64.toNat_one,
              Nat.mod_eq_of_lt (by omega), epoch]
          have handled :=
            @rekeyHandle_confirm_eq C env _ w.callerSeq
              inv.callerLocked _ opcode (word.trans next) _ opened
          simp only [flight, List.getElem?_cons_zero, RekeyNet.loseConfirm,
            RekeyNet.callerHandles, handled]
          refine ⟨inv.callerLocked, inv.peerLocked, inv.sameId, ?_, ?_⟩
          · intro p flying
            obtain ⟨kind, bound, -⟩ :=
              inv.inits p (by simpa using flying)
            have less : p.word.toNat < (w.caller.keys.keyEpoch + 1).toNat := by
              rw [← next, epoch]
              omega
            refine ⟨kind, Nat.le_of_lt less, fun current => ?_⟩
            rw [current] at less
            exact absurd less (Nat.lt_irrefl _)
          · exact .level next rfl

theorem NetInv.step
    (inv : NetInv C w) (total : KemRejectsImplicitly C) {act : NetAct}
    (kept : ConfirmKept w act) : NetInv C (w.step C act) := by
  cases act with
  | initiate env =>
      exact inv.initiate env
  | deliverInit message env =>
      rw [RekeyNet.step]
      cases found : w.inits[message]? with
      | none =>
          exact inv
      | some p =>
          obtain ⟨opcode, bound, held⟩ :=
            inv.inits p (List.mem_of_getElem? found)
          exact (inv.loseInit message).peerHandles opcode bound held
            (kept p found)
  | loseInit message =>
      exact inv.loseInit message
  | deliverConfirm message env =>
      exact inv.deliverConfirm total message env
  | loseConfirm message =>
      have past : w.confirms.length ≤ message :=
        List.getElem?_eq_none_iff.mp kept
      rw [RekeyNet.step, RekeyNet.loseConfirm,
        List.eraseIdx_of_length_le past]
      exact inv

theorem NetInv.run
    (inv : NetInv C w) (total : KemRejectsImplicitly C) {acts : List NetAct}
    (kept : ConfirmKeptRun C w acts) : NetInv C (w.run C acts) := by
  induction acts generalizing w with
  | nil =>
      exact inv
  | cons act rest inductionHypothesis =>
      exact inductionHypothesis (inv.step total kept.1) kept.2

/-! ## One more exchange -/

/-- From equal epochs with nothing in flight an exchange gives equal keys. -/
theorem NetInv.restores
    (inv : NetInv C w) (kem : KemInverts C) (quiet : w.Quiet) :
    w.Restores C := by
  intro first second third publicKey secretKey ciphertext secret firstBuf
    secondBuf made firstPool encapsulated secondPool
  have level : w.peer.keys.keyEpoch = w.caller.keys.keyEpoch := by
    cases inv.phase with
    | level epoch none => exact epoch
    | answered epoch confirm flight =>
        rw [quiet.2] at flight
        cases flight
  have opened := kem _ _ _ _ _ _ made encapsulated
  obtain ⟨initOpcode, initWord, initKey⟩ :=
    initPacket_reads w.caller firstBuf w.callerSeq
      (C.length_kemKeypair _ _ _ made).1
  rw [← initKey] at encapsulated
  have initiates :=
    rekeyInitiate_eq C w.callerSeq inv.callerLocked made firstPool
  have answers :=
    rekeyHandle_init_eq C w.peerSeq inv.peerLocked initOpcode
      (initWord.trans level.symm) encapsulated secondPool
  obtain ⟨confirmOpcode, confirmWord, confirmText⟩ :=
    confirmPacket_reads (w.peer.switched C secret) secondBuf w.peerSeq
      (initPacket w.caller firstBuf w.callerSeq publicKey).addr
      (C.length_kemEncaps _ _ _ _ encapsulated).1
  rw [← confirmText] at opened
  have word :
      (confirmPacket (w.peer.switched C secret) secondBuf w.peerSeq
          (initPacket w.caller firstBuf w.callerSeq publicKey).addr
          ciphertext).word = w.caller.keys.keyEpoch + 1 := by
    rw [confirmWord, ← level]
    rfl
  have confirms :=
    @rekeyHandle_confirm_eq C third
      { w.caller with hs := { w.caller.hs with kemSecretKey := secretKey } }
      (w.callerSeq + 1) inv.callerLocked _ confirmOpcode word _ opened
  simp only [RekeyNet.run, List.foldl_cons, List.foldl_nil, RekeyNet.step,
    RekeyNet.initiate, initiates, quiet.1, Option.toList_some, List.nil_append,
    List.getElem?_cons_zero, RekeyNet.loseInit, RekeyNet.peerHandles, answers,
    quiet.2, RekeyNet.loseConfirm, RekeyNet.callerHandles, confirms,
    RekeyNet.SameKeys]
  change nextKeys C w.caller.sessionId w.caller.keys.keyEpoch secret =
    nextKeys C w.peer.sessionId w.peer.keys.keyEpoch secret
  rw [inv.sameId, level]

end

/-- In every run that loses no REKEY_CONFIRM: whenever nothing is in flight,
the keys are the same or one more exchange makes them so. -/
theorem rekey_recovers
    (C : CryptoSuite) (kem : KemInverts C) (total : KemRejectsImplicitly C)
    (pair : SyncedPair) (side : Side) (acts : List NetAct)
    (kept : ConfirmKeptRun C (pair.net side) acts)
    (quiet : ((pair.net side).run C acts).Quiet) :
    ((pair.net side).run C acts).SameKeys ∨
      ((pair.net side).run C acts).Restores C :=
  Or.inr (((netInv_start pair side).run total kept).restores kem quiet)

theorem kemRejectsImplicitly_sampleSuite :
    KemRejectsImplicitly sampleSuite := by
  intro coins publicKey secretKey ciphertext made size
  exact ⟨_, rfl⟩

/-- A REKEY_INIT is lost, and the next one arrives after yet another one was
sent, so that its answer is opened with the wrong secret key. -/
def lossyRun : List NetAct :=
  [.initiate (rekeyEnvSample 1), .loseInit 0, .initiate (rekeyEnvSample 2),
    .initiate (rekeyEnvSample 3), .deliverInit 0 (rekeyEnvSample 4),
    .deliverConfirm 0 (rekeyEnvSample 5), .deliverInit 0 (rekeyEnvSample 6)]

theorem rekey_recovers_lossyRun :
    ¬ ((syncedSample.net .left).run sampleSuite lossyRun).SameKeys ∧
      ((syncedSample.net .left).run sampleSuite lossyRun).Quiet ∧
      (((syncedSample.net .left).run sampleSuite lossyRun).SameKeys ∨
        ((syncedSample.net .left).run sampleSuite lossyRun).Restores
          sampleSuite) := by
  have kept :
      ConfirmKeptRun sampleSuite (syncedSample.net .left) lossyRun :=
    ⟨trivial, trivial, trivial, trivial,
      fun _ _ _ => ⟨rfl, by decide +kernel⟩, trivial,
      fun _ _ _ => ⟨rfl, by decide +kernel⟩, trivial⟩
  have quiet :
      ((syncedSample.net .left).run sampleSuite lossyRun).Quiet :=
    ⟨List.isEmpty_iff.mp (by decide +kernel),
      List.isEmpty_iff.mp (by decide +kernel)⟩
  refine ⟨?_, quiet,
    rekey_recovers sampleSuite kemInverts_sampleSuite
      kemRejectsImplicitly_sampleSuite syncedSample .left lossyRun kept quiet⟩
  unfold RekeyNet.SameKeys
  decide +kernel

/-- The answer to the first REKEY_INIT is lost. -/
def confirmLost : List NetAct :=
  [.initiate (rekeyEnvSample 1), .deliverInit 0 (rekeyEnvSample 2),
    .loseConfirm 0]

/-- Nothing is in flight then, the keys differ and a further exchange does
not help. -/
theorem confirmLost_stays_apart :
    ((syncedSample.net .left).run sampleSuite confirmLost).Quiet ∧
      ¬ (((syncedSample.net .left).run sampleSuite confirmLost).SameKeys ∨
        ((syncedSample.net .left).run sampleSuite confirmLost).Restores
          sampleSuite) := by
  refine ⟨⟨List.isEmpty_iff.mp (by decide +kernel),
    List.isEmpty_iff.mp (by decide +kernel)⟩, ?_⟩
  rintro (same | restores)
  · revert same
    unfold RekeyNet.SameKeys
    decide +kernel
  · have same :=
      restores (rekeyEnvSample 3) (rekeyEnvSample 4) (rekeyEnvSample 5) _ _ _
        _ _ _ rfl rfl rfl rfl
    revert same
    unfold RekeyNet.SameKeys
    decide +kernel

end PqComm
