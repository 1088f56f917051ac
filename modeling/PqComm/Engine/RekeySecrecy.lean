import Mathlib.Data.List.Induction
import PqComm.Engine.RekeyRuns

/-!
# Who can know the keys of a session that rekeys

REKEY_INIT and REKEY_CONFIRM travel on the control channel, which bypasses
`session_enc`.  `rekey_handle` therefore acts on every packet with the right
opcode and the right epoch, whoever made it, and a third party that sends a
public key of its own learns the next session key.

`ThirdParty` says what such a party knows and made, and `IdealKem` what the
key encapsulation and the derivation hide from it.  The keys of a session stay
hidden in every run in which the messages it acts on are not of that party's
making.
-/

namespace PqComm

open Lib

/-- A session and the public key of the pair whose secret half it holds, which
is a history variable. -/
structure RekeyEnd where
  sess : Session
  seq : UInt32
  pendingKey : Option Bytes := none

inductive EndAct where
  | initiate (env : RekeyEnv)
  | deliver (p : PacketBuf) (env : RekeyEnv)

def EndAct.env : EndAct → RekeyEnv
  | .initiate env => env
  | .deliver _ env => env

section

variable (C : CryptoSuite)

def RekeyEnd.initiate (w : RekeyEnd) (env : RekeyEnv) : RekeyEnd :=
  let result := rekeyInitiate C env w.sess w.seq
  { sess := result.sess
    seq := result.seq
    pendingKey :=
      if result.ret = 0 then
        (C.kemKeypair env.coins).map Prod.fst
      else
        w.pendingKey }

def RekeyEnd.handle (w : RekeyEnd) (p : PacketBuf) (env : RekeyEnv) :
    RekeyEnd :=
  let result := rekeyHandle C env p w.sess w.seq
  { sess := result.sess
    seq := result.seq
    pendingKey := if result.ret = 2 then none else w.pendingKey }

def RekeyEnd.step (w : RekeyEnd) : EndAct → RekeyEnd
  | .initiate env => w.initiate C env
  | .deliver p env => w.handle C p env

def RekeyEnd.run (w : RekeyEnd) (acts : List EndAct) : RekeyEnd :=
  acts.foldl (RekeyEnd.step C) w

/-! ## Where the keys come from -/

/-- The secret that `rekey_handle` feeds into the derivation: encapsulated for
the public key of a REKEY_INIT of the current epoch, or decapsulated from a
REKEY_CONFIRM of the next. -/
inductive KeySource (s : Session) (p : PacketBuf) (env : RekeyEnv) :
    Bytes → Prop where
  | init
      (opcode : p.opcode = ctrlRekeyInit)
      (epoch : p.word = s.keys.keyEpoch) (ciphertext secret : Bytes)
      (made :
        C.kemEncaps p.rekeyPublicKey env.coins = some (ciphertext, secret)) :
      KeySource s p env secret
  | confirm
      (opcode : p.opcode = ctrlRekeyConfirm)
      (epoch : p.word = s.keys.keyEpoch + 1) (secret : Bytes)
      (opened :
        C.kemDecaps s.hs.kemSecretKey p.rekeyCiphertext = some secret) :
      KeySource s p env secret

/-- A step of the run derived the keys `keys` from `secret`. -/
def DerivedIn (w : RekeyEnd) (acts : List EndAct) (keys : SessionKeys) :
    Prop :=
  ∃ before p env after secret,
    acts = before ++ .deliver p env :: after ∧
      KeySource C (w.run C before).sess p env secret ∧
      keys =
        nextKeys C (w.run C before).sess.sessionId
          (w.run C before).sess.keys.keyEpoch secret

variable {C : CryptoSuite}

theorem RekeyEnd.run_append (w : RekeyEnd) (front back : List EndAct) :
    w.run C (front ++ back) = (w.run C front).run C back :=
  List.foldl_append

theorem RekeyEnd.initiate_keys (w : RekeyEnd) (env : RekeyEnv) :
    (w.initiate C env).sess.keys = w.sess.keys := by
  have done := rekeyInitiate_cases C env w.sess w.seq
  unfold RekeyEnd.initiate
  generalize rekeyInitiate C env w.sess w.seq = result at done
  cases done with
  | failed => rfl
  | sent => rfl

/-- The keys stay, or they are derived from a source. -/
theorem RekeyEnd.handle_keys
    (w : RekeyEnd) (p : PacketBuf) (env : RekeyEnv) :
    (w.handle C p env).sess.keys = w.sess.keys ∨
      ∃ secret,
        KeySource C w.sess p env secret ∧
          (w.handle C p env).sess.keys =
            nextKeys C w.sess.sessionId w.sess.keys.keyEpoch secret := by
  have done := rekeyHandle_cases C env p w.sess w.seq
  unfold RekeyEnd.handle
  generalize rekeyHandle C env p w.sess w.seq = result at done
  cases done with
  | ignored ret idle =>
      exact Or.inl rfl
  | switched locked opcode epoch ciphertext secret made ret out answer =>
      exact Or.inr ⟨secret, .init opcode epoch ciphertext secret made, rfl⟩
  | confirmed locked opcode epoch secret opened =>
      exact Or.inr ⟨secret, .confirm opcode epoch secret opened, rfl⟩

theorem DerivedIn.more
    {w : RekeyEnd} {acts : List EndAct} {keys : SessionKeys}
    (derived : DerivedIn C w acts keys) (act : EndAct) :
    DerivedIn C w (acts ++ [act]) keys := by
  obtain ⟨before, p, env, after, secret, shape, source, same⟩ := derived
  refine ⟨before, p, env, after ++ [act], secret, ?_, source, same⟩
  rw [shape, List.append_assoc, List.cons_append]

/-- Every value the keys take is the first one or derived from a source. -/
theorem RekeyEnd.run_keys (w : RekeyEnd) (acts : List EndAct) :
    (w.run C acts).sess.keys = w.sess.keys ∨
      DerivedIn C w acts (w.run C acts).sess.keys := by
  induction acts using List.reverseRecOn with
  | nil =>
      exact Or.inl rfl
  | append_singleton acts act inductionHypothesis =>
      have kept :
          (w.run C (acts ++ [act])).sess.keys = (w.run C acts).sess.keys →
            (w.run C (acts ++ [act])).sess.keys = w.sess.keys ∨
              DerivedIn C w (acts ++ [act])
                (w.run C (acts ++ [act])).sess.keys := by
        intro same
        rw [same]
        exact inductionHypothesis.imp id fun derived => derived.more act
      have last :
          w.run C (acts ++ [act]) = (w.run C acts).step C act :=
        w.run_append acts [act]
      cases act with
      | initiate env =>
          refine kept ?_
          rw [last]
          exact RekeyEnd.initiate_keys _ env
      | deliver p env =>
          rcases RekeyEnd.handle_keys (C := C) (w.run C acts) p env with
            same | ⟨secret, source, keys⟩
          · exact kept (by rw [last]; exact same)
          · refine Or.inr ⟨acts, p, env, [], secret, rfl, source, ?_⟩
            rw [last]
            exact keys

end

/-! ## A third party -/

/-- What a third party can compute, the public keys whose secret keys it
holds, and the ciphertexts it made for a public key. -/
structure ThirdParty where
  known : Bytes → Prop
  holds : Bytes → Prop
  made : (publicKey ciphertext : Bytes) → Prop

/-- A shared secret is known only to the encapsulator and to the holder of the
secret key, and the derivation cannot be run backwards or without its
input. -/
structure IdealKem (C : CryptoSuite) (E : ThirdParty) : Prop where
  encaps :
    ∀ publicKey coins ciphertext secret,
      ¬ E.known coins → ¬ E.holds publicKey →
        C.kemEncaps publicKey coins = some (ciphertext, secret) →
          ¬ E.known secret
  decaps :
    ∀ coins publicKey secretKey ciphertext secret,
      ¬ E.known coins → C.kemKeypair coins = some (publicKey, secretKey) →
        ¬ E.made publicKey ciphertext →
          C.kemDecaps secretKey ciphertext = some secret →
            ¬ E.known secret
  derive :
    ∀ secret context,
      ¬ E.known secret → ¬ E.known (sessionKeyMaterial C secret context).1

/-- The third party did not make the message, if the session acts on it: the
key of a REKEY_INIT is not its own, and a REKEY_CONFIRM meets a pending key
for which it made no such ciphertext. -/
structure NotForged (E : ThirdParty) (w : RekeyEnd) (p : PacketBuf) : Prop where
  init :
    p.opcode = ctrlRekeyInit → p.word = w.sess.keys.keyEpoch →
      ¬ E.holds p.rekeyPublicKey
  confirm :
    p.opcode = ctrlRekeyConfirm → p.word = w.sess.keys.keyEpoch + 1 →
      ∃ publicKey,
        w.pendingKey = some publicKey ∧ ¬ E.made publicKey p.rekeyCiphertext

def NotForgedRun (C : CryptoSuite) (E : ThirdParty) :
    RekeyEnd → List EndAct → Prop
  | _, [] => True
  | w, act :: rest =>
      (∀ p env, act = .deliver p env → NotForged E w p) ∧
        NotForgedRun C E (w.step C act) rest

/-- The session key is hidden, and so is the secret key of the pending
pair. -/
structure Hidden (C : CryptoSuite) (E : ThirdParty) (w : RekeyEnd) : Prop where
  sessionKey : ¬ E.known w.sess.keys.sessionKey
  pending :
    ∀ publicKey, w.pendingKey = some publicKey →
      ∃ coins,
        ¬ E.known coins ∧
          C.kemKeypair coins = some (publicKey, w.sess.hs.kemSecretKey)

section

variable {C : CryptoSuite} {E : ThirdParty} {w : RekeyEnd}

theorem Hidden.initiate
    (hidden : Hidden C E w) {env : RekeyEnv} (coins : ¬ E.known env.coins) :
    Hidden C E (w.initiate C env) := by
  have done := rekeyInitiate_cases C env w.sess w.seq
  unfold RekeyEnd.initiate
  generalize rekeyInitiate C env w.sess w.seq = result at done
  cases done with
  | failed =>
      exact ⟨hidden.sessionKey, hidden.pending⟩
  | sent locked publicKey secretKey made buf pool =>
      refine ⟨hidden.sessionKey, ?_⟩
      intro pending held
      simp only [made, if_true, Option.map_some, Option.some.injEq] at held
      subst held
      exact ⟨env.coins, coins, made⟩

theorem Hidden.handle
    (hidden : Hidden C E w) (ideal : IdealKem C E) {p : PacketBuf}
    {env : RekeyEnv} (coins : ¬ E.known env.coins)
    (genuine : NotForged E w p) : Hidden C E (w.handle C p env) := by
  have done := rekeyHandle_cases C env p w.sess w.seq
  unfold RekeyEnd.handle
  generalize rekeyHandle C env p w.sess w.seq = result at done
  cases done with
  | ignored ret idle =>
      have notTwo : ret ≠ 2 := by
        omega
      simp only [if_neg notTwo]
      exact ⟨hidden.sessionKey, hidden.pending⟩
  | switched locked opcode epoch ciphertext secret made ret out answer =>
      have notTwo : ret ≠ 2 := by
        rcases answer with ⟨_, _, rfl, _⟩ | ⟨_, rfl, _⟩ <;> decide
      simp only [if_neg notTwo]
      refine ⟨?_, hidden.pending⟩
      exact ideal.derive _ _
        (ideal.encaps _ _ _ _ coins (genuine.init opcode epoch) made)
  | confirmed locked opcode epoch secret opened =>
      obtain ⟨publicKey, pending, unmade⟩ := genuine.confirm opcode epoch
      obtain ⟨keyCoins, keyHidden, pair⟩ := hidden.pending publicKey pending
      refine ⟨?_, ?_⟩
      · exact ideal.derive _ _
          (ideal.decaps _ _ _ _ _ keyHidden pair unmade opened)
      · intro publicKey held
        cases held

theorem Hidden.run
    (hidden : Hidden C E w) (ideal : IdealKem C E) {acts : List EndAct}
    (coins : ∀ act ∈ acts, ¬ E.known act.env.coins)
    (genuine : NotForgedRun C E w acts) : Hidden C E (w.run C acts) := by
  induction acts generalizing w with
  | nil =>
      exact hidden
  | cons act rest inductionHypothesis =>
      have own := coins act List.mem_cons_self
      refine inductionHypothesis ?_
        (fun later inside => coins later (List.mem_cons_of_mem _ inside))
        genuine.2
      cases act with
      | initiate env =>
          exact hidden.initiate own
      | deliver p env =>
          exact hidden.handle ideal own (genuine.1 p env rfl)

end

/-- Every value the keys of a locked session take is the first one or comes
from a message the session acted on, and as long as a third party forged none
of these, it cannot compute the session key. -/
theorem rekey_secrecy
    (C : CryptoSuite) (E : ThirdParty) (ideal : IdealKem C E)
    (s : Session) (seq : UInt32) (hidden : ¬ E.known s.keys.sessionKey)
    (acts : List EndAct)
    (coins : ∀ act ∈ acts, ¬ E.known act.env.coins) :
    let start : RekeyEnd := { sess := s, seq := seq }
    ((start.run C acts).sess.keys = s.keys ∨
        DerivedIn C start acts (start.run C acts).sess.keys) ∧
      (NotForgedRun C E start acts →
        ¬ E.known (start.run C acts).sess.keys.sessionKey) := by
  intro start
  refine ⟨start.run_keys acts, fun genuine => ?_⟩
  have first : Hidden C E start := by
    refine ⟨hidden, ?_⟩
    intro publicKey held
    cases held
  exact (first.run ideal coins genuine).sessionKey

/-! ## A session that answers its peer -/

/-- A party that knows everything but the strings of 32 bytes, and holds one
key. -/
def onlooker : ThirdParty where
  known := fun bytes => bytes.length ≠ 32
  holds := fun publicKey => publicKey = fitTo kemPkSize [9]
  made := fun _ _ => False

theorem idealKem_onlooker (C : CryptoSuite) : IdealKem C onlooker where
  encaps := fun _ _ _ _ _ _ made known =>
    known (C.length_kemEncaps _ _ _ _ made).2
  decaps := fun _ _ _ _ _ _ _ _ opened known =>
    known (C.length_kemDecaps _ _ _ opened)
  derive := fun _ _ _ known => known (C.length_hmacSha256 _ _)

/-- The session answers a REKEY_INIT of its peer. -/
def answersPeer : List EndAct :=
  [.deliver
    (initPacket (syncedSample.session .right) default 1
      (fitTo kemPkSize (List.replicate 32 5)))
    { coins := List.replicate 32 6, buf := some default }]

theorem rekey_secrecy_answersPeer :
    let start : RekeyEnd := { sess := syncedSample.session .left, seq := 1 }
    (start.run sampleSuite answersPeer).sess.keys.keyEpoch = 1 ∧
      ¬ onlooker.known
        (start.run sampleSuite answersPeer).sess.keys.sessionKey := by
  refine ⟨by decide +kernel,
    (rekey_secrecy sampleSuite onlooker (idealKem_onlooker _)
      (syncedSample.session .left) 1 ?_ answersPeer ?_).2 ?_⟩
  · exact fun known => known (length_zeros 32)
  · intro act inside
    rw [List.mem_singleton.mp inside]
    exact fun known => known rfl
  · refine ⟨?_, trivial⟩
    rintro p env ⟨⟩
    refine ⟨fun _ _ => ?_, ?_⟩
    · unfold onlooker
      decide +kernel
    · intro opcode
      exact absurd opcode (by decide +kernel)

/-! ## A forged REKEY_INIT -/

/-- The session identifier in the header of a packet. -/
def PacketBuf.headerSessionId (p : PacketBuf) : UInt64 :=
  UInt64.ofNat (leNat (memSlice p.data 6 8))

section

variable (C : CryptoSuite)

/-- A REKEY_INIT that takes its header from what anyone can read on the wire
and its key from `coins`. -/
def forgedInit (coins : Bytes) (sessionId epoch : UInt64) : PacketBuf :=
  controlPacket default true sessionId 1
    (rekeyPayload ctrlRekeyInit epoch
      (((C.kemKeypair coins).map Prod.fst).getD []))

/-- What the owner of `coins` computes from a REKEY_CONFIRM it overhears. -/
def overheardKey (coins : Bytes) (confirm : PacketBuf) : Option Bytes := do
  let pair ← C.kemKeypair coins
  let secret ← C.kemDecaps pair.2 confirm.rekeyCiphertext
  let material ←
    deriveSessionKeys C secret
      (rekeyContext confirm.headerSessionId confirm.word)
  return material.1

end

/-- The third party computes the session key from its coins and the answer of
the session. -/
theorem forgedInit_discloses_key :
    let result :=
      rekeyHandle sampleSuite (rekeyEnvSample 2)
        (forgedInit sampleSuite [9] 7 0) (syncedSample.session .left) 1
    result.sess.keys ≠ (syncedSample.session .left).keys ∧
      result.out.bind (overheardKey sampleSuite [9]) =
        some result.sess.keys.sessionKey := by
  decide +kernel

end PqComm
