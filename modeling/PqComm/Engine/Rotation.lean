import PqComm.Core.WireFormat
import PqComm.Engine.RekeyRuns
import PqComm.Layers.Integrity
import PqComm.Pipeline.Delivery

/-!
# Key rotation under traffic

One rekey exchange between two locked endpoints, while both send encrypted
data.  The link in each direction delivers everything in order.  The side that
calls `rekey_initiate` is the asker here, its peer the answerer.

The answerer replaces its keys when it handles the REKEY_INIT and the asker
when it handles the REKEY_CONFIRM.  The CONFIRM separates the old data of the
answerer from the new.  Nothing does so in the other direction: data that the
asker seals behind its REKEY_INIT is sealed with the old keys and is opened
with the new ones.  A run in which the asker is silent while it waits opens
every packet that leaves room for the nonce and the tag.
-/

namespace PqComm

open Lib

/-- Both endpoints and the packets in flight.  `awaiting` and `rejected` are
history variables: the asker has sent its REKEY_INIT and has not switched yet,
and the delivered data packets that have not passed `session_enc_check`. -/
structure RotationWorld where
  asker : Session
  answerer : Session
  askerSeq : UInt32
  answererSeq : UInt32
  toAnswerer : List PacketBuf := []
  toAsker : List PacketBuf := []
  called : Bool := false
  awaiting : Bool := false
  rejected : List PacketBuf := []

/-- `rekey_initiate` takes effect once, so that a run has one exchange. -/
inductive RotationAct where
  | initiate (env : RekeyEnv)
  | askerSends (p : PacketBuf)
  | answererSends (p : PacketBuf)
  | askerReceives (env : RekeyEnv)
  | answererReceives (env : RekeyEnv)

/-- What an endpoint makes of a packet. -/
structure Received where
  sess : Session
  seq : UInt32
  out : Option PacketBuf := none
  switched : Bool := false
  refused : Bool := false

def SyncedPair.rotation (pair : SyncedPair) (side : Side) : RotationWorld :=
  { asker := pair.session side
    answerer := pair.session side.other
    askerSeq := pair.seqCounter side
    answererSeq := pair.seqCounter side.other }

section

variable (C : CryptoSuite)

/-- A control packet goes to `rekey_handle`, a data packet to
`session_enc_check`, which it does not reach when `packet_parse` refuses it. -/
def receivePacket (env : RekeyEnv) (p : PacketBuf) (s : Session)
    (seq : UInt32) : Received :=
  if p.data 14 = chControl then
    let r := rekeyHandle C env p s seq
    { sess := r.sess, seq := r.seq, out := r.out
      switched := decide (r.ret = 2) }
  else
    match packetParse p with
    | none => { sess := s, seq := seq, refused := true }
    | some v =>
        let checked := sessionEncCheck C v s
        { sess := checked.1, seq := seq, refused := checked.2.isNone }

/-- A data packet as it leaves, when `encrypt_tx_packet` returns 0. -/
def sealData (s : Session) (p : PacketBuf) : Option PacketBuf :=
  if p.data 14 = chControl then
    none
  else
    let sealed := encryptTxPacket C p s
    if sealed.1 then some sealed.2 else none

def RotationWorld.step (w : RotationWorld) : RotationAct → RotationWorld
  | .initiate env =>
      if w.called then
        w
      else
        let r := rekeyInitiate C env w.asker w.askerSeq
        { w with
          asker := r.sess
          askerSeq := r.seq
          toAnswerer := w.toAnswerer ++ r.out.toList
          called := true
          awaiting := decide (r.ret = 0) }
  | .askerSends p =>
      { w with
        toAnswerer := w.toAnswerer ++ (sealData C w.asker p).toList }
  | .answererSends p =>
      { w with toAsker := w.toAsker ++ (sealData C w.answerer p).toList }
  | .askerReceives env =>
      match w.toAsker with
      | [] => w
      | p :: rest =>
          let r := receivePacket C env p w.asker w.askerSeq
          { w with
            asker := r.sess
            askerSeq := r.seq
            toAsker := rest
            toAnswerer := w.toAnswerer ++ r.out.toList
            awaiting := w.awaiting && !r.switched
            rejected := w.rejected ++ if r.refused then [p] else [] }
  | .answererReceives env =>
      match w.toAnswerer with
      | [] => w
      | p :: rest =>
          let r := receivePacket C env p w.answerer w.answererSeq
          { w with
            answerer := r.sess
            answererSeq := r.seq
            toAnswerer := rest
            toAsker := w.toAsker ++ r.out.toList
            rejected := w.rejected ++ if r.refused then [p] else [] }

def RotationWorld.run (w : RotationWorld) (acts : List RotationAct) :
    RotationWorld :=
  acts.foldl (RotationWorld.step C) w

/-- The nonce and the tag of the sealed packet stay within
`MAX_PACKET_SIZE`. -/
def SealRoom (p : PacketBuf) : Prop :=
  p.data 14 ≠ chControl →
    ∀ v ∈ packetParse p,
      headerSize + (aeadNonceSize + v.length + aeadTagSize) ≤ maxPacketSize

/-- What is sealed leaves room for the nonce and the tag, the asker seals no
data while it waits for the REKEY_CONFIRM, and the answerer has a buffer for
it. -/
def QuietStep (w : RotationWorld) : RotationAct → Prop
  | .askerSends p => w.awaiting = false ∧ SealRoom p
  | .answererSends p => SealRoom p
  | .answererReceives env =>
      ∀ p ∈ w.toAnswerer.head?, p.data 14 = chControl → env.buf.isSome = true
  | _ => True

def QuietRun : RotationWorld → List RotationAct → Prop
  | _, [] => True
  | w, act :: rest => QuietStep w act ∧ QuietRun (w.step C act) rest

end

/-! ## Data in flight -/

/-- A data packet that was sealed under `keys`. -/
def SealedUnder (C : CryptoSuite) (keys : SessionKeys) (q : PacketBuf) :
    Prop :=
  ∃ p v s, packetParse p = some v ∧ v.channelId ≠ chControl ∧
    headerSize + (aeadNonceSize + v.length + aeadTagSize) ≤ maxPacketSize ∧
      s.state = .locked ∧ s.keys = keys ∧
        sessionEncApply C p v s = (true, q)

section

variable {C : CryptoSuite} {s : Session} {q : PacketBuf}

theorem sealData_sealed
    {p : PacketBuf} (locked : s.state = .locked) (room : SealRoom p)
    (sealed : q ∈ (sealData C s p).toList) : SealedUnder C s.keys q := by
  unfold sealData at sealed
  split at sealed
  · simp at sealed
  · rename_i data
    dsimp only at sealed
    split at sealed
    · rename_i applied
      simp only [Option.toList_some, List.mem_singleton] at sealed
      subst sealed
      unfold encryptTxPacket at applied ⊢
      cases parsed : packetParse p with
      | none =>
          rw [parsed] at applied
          cases applied
      | some v =>
          have channel := (parsedAs_of_packetParse parsed).channelId
          have onData : v.channelId ≠ chControl := by
            rw [channel]
            exact data
          simp only [parsed, if_neg onData] at applied ⊢
          exact ⟨p, v, s, parsed, onData, room data v parsed, locked, rfl,
            Prod.ext applied rfl⟩
    · simp at sealed

theorem SealedUnder.channel
    {keys : SessionKeys} (sealed : SealedUnder C keys q) :
    q.data 14 ≠ chControl := by
  obtain ⟨p, v, s, parsed, data, -, locked, -, applied⟩ := sealed
  have made := sessionEncApply_eq locked data (by rw [applied])
  rw [applied] at made
  have channel := (parsedAs_of_packetParse parsed).channelId
  rw [show q = _ from made, sealedPacket_channel, ← channel]
  exact data

/-- A sealed packet parses when it stays within `MAX_PACKET_SIZE`. -/
theorem sealedPacket_parses
    {p : PacketBuf} {v : PacketView} {call : AeadCall}
    (room :
      headerSize + (aeadNonceSize + v.length + aeadTagSize) ≤ maxPacketSize)
    (cipher : call.cipher.length = v.length) :
    ∃ w, packetParse (sealedPacket p v call) = some w := by
  simp only [headerSize, aeadNonceSize, aeadTagSize, maxPacketSize] at room
  have field :
      wireLength (sealedPacket p v call) = 12 + v.length + 16 := by
    unfold wireLength sealedPacket
    dsimp only
    rw [memSlice_memWrite_disjoint (Or.inl (by omega)),
      memSlice_memWrite_disjoint (Or.inl (by omega)),
      memSlice_memWrite_disjoint (Or.inr (by simp)),
      memSlice_memWrite_disjoint (Or.inl (by omega))]
    have written :=
      memSlice_memWrite_self p.data 19 (leBytes 4 (12 + v.length + 16))
    rw [length_leBytes] at written
    change leNat (memSlice (memWrite p.data 19 _) 19 4) = _
    simp only [aeadNonceSize, aeadTagSize]
    rw [written, leNat_leBytes, Nat.mod_eq_of_lt (by omega)]
  refine ⟨_, packetParse_of_grammar ⟨?_, ?_, ?_, ?_⟩⟩
  · exact Nat.le_add_right 24 _
  · rw [field]
    exact (Nat.add_sub_cancel_left 24 _).symm
  · rw [field]
    simp only [headerSize, maxPacketSize]
    omega
  · intro _
    rw [field]
    simp only [aeadNonceSize, aeadTagSize]
    omega

/-- A check that succeeds leaves the session as it is. -/
theorem sessionEncCheck_session_of_isSome
    {v : PacketView} (opened : (sessionEncCheck C v s).2.isSome = true) :
    (sessionEncCheck C v s).1 = s := by
  unfold sessionEncCheck at opened ⊢
  split
  · rfl
  · rename_i locked
    rw [if_neg locked] at opened
    split
    · rfl
    · rename_i data
      rw [if_neg data] at opened
      split
      · rename_i refused
        rw [refused] at opened
        cases opened
      · rfl

/-- Sealed data is opened under its keys, and the endpoint stays as it is. -/
theorem receivePacket_sealed
    (inverts : AeadInverts C) (sealed : SealedUnder C s.keys q)
    (env : RekeyEnv) (seq : UInt32) :
    receivePacket C env q s seq = { sess := s, seq := seq } := by
  unfold receivePacket
  rw [if_neg sealed.channel]
  obtain ⟨p, v, t, parsed, data, room, locked, keys, applied⟩ := sealed
  have made : q = sealedPacket p v (sealingCall C p v t) := by
    rw [← sessionEncApply_eq locked data (by rw [applied]), applied]
  obtain ⟨-, cipher, -⟩ := length_sealingCall (C := C) p v t
  obtain ⟨w, parsed'⟩ := sealedPacket_parses (p := p) room cipher
  rw [← made] at parsed'
  have opened := sessionEncCheck_sealed inverts parsed data locked applied
    parsed' keys.symm
  rw [parsed']
  simp only [sessionEncCheck_session_of_isSome opened,
    Option.isNone_eq_false_iff.mpr opened]

/-! ## The phases of the exchange -/

/-- Every packet of a link is data sealed under `keys`. -/
def AllSealed (C : CryptoSuite) (keys : SessionKeys) (link : List PacketBuf) :
    Prop :=
  ∀ q ∈ link, SealedUnder C keys q

variable (C) in
/-- The REKEY_INIT of the asker. -/
structure InitOf (asker : Session) (p : PacketBuf) : Prop where
  channel : p.data 14 = chControl
  opcode : p.opcode = ctrlRekeyInit
  word : p.word = asker.keys.keyEpoch
  key : ∃ coins,
    C.kemKeypair coins = some (p.rekeyPublicKey, asker.hs.kemSecretKey)

variable (C) in
/-- The REKEY_CONFIRM of an answerer that has switched. -/
structure ConfirmFor (asker answerer : Session) (p : PacketBuf) : Prop where
  channel : p.data 14 = chControl
  opcode : p.opcode = ctrlRekeyConfirm
  word : p.word = asker.keys.keyEpoch + 1
  secret : ∃ secret,
    C.kemDecaps asker.hs.kemSecretKey p.rekeyCiphertext = some secret ∧
      answerer.keys =
        nextKeys C asker.sessionId asker.keys.keyEpoch secret

variable (C) in
/-- Where an exchange with a silent asker can be. -/
inductive RotationPhase (w : RotationWorld) : Prop where
  | even
      (keys : w.answerer.keys = w.asker.keys)
      (there : AllSealed C w.asker.keys w.toAnswerer)
      (back : AllSealed C w.asker.keys w.toAsker)
  | asked
      (called : w.called = true) (awaiting : w.awaiting = true)
      (keys : w.answerer.keys = w.asker.keys)
      (early : List PacketBuf) (init : PacketBuf)
      (link : w.toAnswerer = early ++ [init])
      (there : AllSealed C w.asker.keys early)
      (initOf : InitOf C w.asker init)
      (back : AllSealed C w.asker.keys w.toAsker)
  | answered
      (called : w.called = true) (awaiting : w.awaiting = true)
      (idle : w.toAnswerer = [])
      (early late : List PacketBuf) (confirm : PacketBuf)
      (link : w.toAsker = early ++ confirm :: late)
      (old : AllSealed C w.asker.keys early)
      (confirmFor : ConfirmFor C w.asker w.answerer confirm)
      (new : AllSealed C w.answerer.keys late)

variable (C) in
structure RotationInv (w : RotationWorld) : Prop where
  askerLocked : w.asker.state = .locked
  answererLocked : w.answerer.state = .locked
  sameId : w.answerer.sessionId = w.asker.sessionId
  opened : w.rejected = []
  phase : RotationPhase C w

variable {w : RotationWorld} {env : RekeyEnv}

theorem AllSealed.append
    {keys : SessionKeys} {left right : List PacketBuf}
    (first : AllSealed C keys left) (second : AllSealed C keys right) :
    AllSealed C keys (left ++ right) := by
  intro q member
  rcases List.mem_append.mp member with old | new
  · exact first q old
  · exact second q new

theorem AllSealed.sealData
    {p : PacketBuf} (room : SealRoom p) (locked : s.state = .locked) :
    AllSealed C s.keys (sealData C s p).toList :=
  fun _ member => sealData_sealed locked room member

theorem AllSealed.tail
    {keys : SessionKeys} {rest : List PacketBuf}
    (all : AllSealed C keys (q :: rest)) : AllSealed C keys rest :=
  fun p member => all p (List.mem_cons_of_mem q member)

theorem rotationInv_start (pair : SyncedPair) (side : Side) :
    RotationInv C (pair.rotation side) where
  askerLocked := pair.locked side
  answererLocked := pair.locked side.other
  sameId := (pair.sameId side).symm
  opened := rfl
  phase := by
    refine RotationPhase.even (pair.sameKeys side).symm ?_ ?_
    · intro q member
      cases member
    · intro q member
      cases member

/-! ## One step -/

theorem RotationInv.initiate
    (inv : RotationInv C w) (env : RekeyEnv) :
    RotationInv C (w.step C (.initiate env)) := by
  simp only [RotationWorld.step]
  split
  · exact inv
  · rename_i fresh
    have done := rekeyInitiate_cases C env w.asker w.askerSeq
    generalize rekeyInitiate C env w.asker w.askerSeq = result at done
    cases inv.phase with
    | asked called =>
        exact absurd called fresh
    | answered called =>
        exact absurd called fresh
    | even keys there back =>
        cases done with
        | failed =>
            refine ⟨inv.askerLocked, inv.answererLocked, inv.sameId,
              inv.opened, RotationPhase.even keys ?_ back⟩
            simpa using there
        | sent locked publicKey secretKey made buf pool =>
            have size := (C.length_kemKeypair _ _ _ made).1
            have reads := initPacket_reads w.asker buf w.askerSeq size
            refine ⟨inv.askerLocked, inv.answererLocked, inv.sameId,
              inv.opened, RotationPhase.asked rfl rfl keys w.toAnswerer _
                rfl there ⟨?_, reads.1, reads.2.1, env.coins, ?_⟩ back⟩
            · exact buildPacket_channel buf false 0 w.asker.sessionId chControl
                w.askerSeq (rekeyPayload ctrlRekeyInit w.asker.keys.keyEpoch
                  publicKey)
            · rw [reads.2.2]
              exact made

theorem RotationInv.askerSends
    (inv : RotationInv C w) {p : PacketBuf} (quiet : w.awaiting = false)
    (room : SealRoom p) : RotationInv C (w.step C (.askerSends p)) := by
  refine ⟨inv.askerLocked, inv.answererLocked, inv.sameId, inv.opened, ?_⟩
  cases inv.phase with
  | even keys there back =>
      exact RotationPhase.even keys
        (there.append (AllSealed.sealData room inv.askerLocked)) back
  | asked called awaiting =>
      rw [quiet] at awaiting
      cases awaiting
  | answered called awaiting =>
      rw [quiet] at awaiting
      cases awaiting

theorem RotationInv.answererSends
    (inv : RotationInv C w) {p : PacketBuf} (room : SealRoom p) :
    RotationInv C (w.step C (.answererSends p)) := by
  have sealed := AllSealed.sealData (C := C) room inv.answererLocked
  refine ⟨inv.askerLocked, inv.answererLocked, inv.sameId, inv.opened, ?_⟩
  cases inv.phase with
  | even keys there back =>
      rw [keys] at sealed
      exact RotationPhase.even keys there (back.append sealed)
  | asked called awaiting keys early init link there initOf back =>
      rw [keys] at sealed
      exact RotationPhase.asked called awaiting keys early init link there
        initOf (back.append sealed)
  | answered called awaiting idle early late confirm link old confirmFor
      new =>
      refine RotationPhase.answered called awaiting idle early
        (late ++ (sealData C w.answerer p).toList) confirm ?_ old confirmFor
        (new.append sealed)
      simp [RotationWorld.step, link]

/-- A packet of the answerer that opens is taken off the link. -/
theorem RotationWorld.step_answererReceives_sealed
    (aead : AeadInverts C) {rest : List PacketBuf}
    (link : w.toAnswerer = q :: rest)
    (sealed : SealedUnder C w.answerer.keys q) (env : RekeyEnv) :
    w.step C (.answererReceives env) = { w with toAnswerer := rest } := by
  simp [RotationWorld.step, link, receivePacket_sealed aead sealed]

theorem RotationWorld.step_askerReceives_sealed
    (aead : AeadInverts C) {rest : List PacketBuf}
    (link : w.toAsker = q :: rest) (sealed : SealedUnder C w.asker.keys q)
    (env : RekeyEnv) :
    w.step C (.askerReceives env) = { w with toAsker := rest } := by
  simp [RotationWorld.step, link, receivePacket_sealed aead sealed]

/-- The answerer handles the REKEY_INIT: it ignores it, or it switches and
its REKEY_CONFIRM follows the data it sealed before. -/
theorem RotationInv.answers
    (kem : KemInverts C) (inv : RotationInv C w) {init : PacketBuf}
    (called : w.called = true) (awaiting : w.awaiting = true)
    (keys : w.answerer.keys = w.asker.keys) (link : w.toAnswerer = [init])
    (initOf : InitOf C w.asker init) (back : AllSealed C w.asker.keys w.toAsker)
    (pool : env.buf.isSome = true) :
    RotationInv C (w.step C (.answererReceives env)) := by
  have handled := rekeyHandle_cases C env init w.answerer w.answererSeq
  simp only [RotationWorld.step, link, receivePacket, if_pos initOf.channel]
  generalize rekeyHandle C env init w.answerer w.answererSeq = result
    at handled
  cases handled with
  | ignored ret idle =>
      refine ⟨inv.askerLocked, inv.answererLocked, inv.sameId, ?_, ?_⟩
      · simpa using inv.opened
      · refine RotationPhase.even keys ?_ ?_
        · intro p member
          cases member
        · simpa using back
  | confirmed locked opcode =>
      rw [initOf.opcode] at opcode
      exact absurd opcode (by decide)
  | switched locked opcode epoch ciphertext secret made ret out answer =>
      rcases answer with ⟨buf, some, -, rfl⟩ | ⟨none, -⟩
      · have size := (C.length_kemEncaps _ _ _ _ made).1
        have reads := confirmPacket_reads (w.answerer.switched C secret) buf
          w.answererSeq init.addr size
        obtain ⟨coins, pair⟩ := initOf.key
        refine ⟨inv.askerLocked, inv.answererLocked, inv.sameId, ?_, ?_⟩
        · simpa using inv.opened
        · refine RotationPhase.answered called awaiting rfl w.toAsker [] _ rfl
            back ⟨?_, reads.1, ?_, secret, ?_, ?_⟩ ?_
          · exact buildPacket_channel buf false 0 w.answerer.sessionId
              chControl w.answererSeq (rekeyPayload ctrlRekeyConfirm
                (w.answerer.keys.keyEpoch + 1) ciphertext)
          · rw [reads.2.1, ← keys]
            rfl
          · rw [reads.2.2]
            exact kem _ _ _ _ _ _ pair made
          · rw [← keys, ← inv.sameId]
            rfl
          · intro p member
            cases member
      · rw [none] at pool
        cases pool

theorem RotationInv.answererReceives
    (kem : KemInverts C) (aead : AeadInverts C) (inv : RotationInv C w)
    (quiet : QuietStep w (.answererReceives env)) :
    RotationInv C (w.step C (.answererReceives env)) := by
  cases inv.phase with
  | even keys there back =>
      cases link : w.toAnswerer with
      | nil =>
          simp only [RotationWorld.step, link]
          exact inv
      | cons p rest =>
          rw [link] at there
          have sealed := there p List.mem_cons_self
          rw [← keys] at sealed
          rw [RotationWorld.step_answererReceives_sealed aead link sealed]
          exact ⟨inv.askerLocked, inv.answererLocked, inv.sameId, inv.opened,
            RotationPhase.even keys there.tail back⟩
  | asked called awaiting keys early init link there initOf back =>
      cases early with
      | nil =>
          have pool : env.buf.isSome = true := by
            apply quiet init
            · rw [link]
              rfl
            · exact initOf.channel
          exact inv.answers kem called awaiting keys link initOf back pool
      | cons p rest =>
          have sealed := there p List.mem_cons_self
          rw [← keys] at sealed
          rw [RotationWorld.step_answererReceives_sealed aead link sealed]
          exact ⟨inv.askerLocked, inv.answererLocked, inv.sameId, inv.opened,
            RotationPhase.asked called awaiting keys rest init rfl there.tail
              initOf back⟩
  | answered called awaiting idle =>
      simp only [RotationWorld.step, idle]
      exact inv

/-- The asker reaches the REKEY_CONFIRM and has the keys of the answerer. -/
theorem RotationInv.confirms
    (inv : RotationInv C w) (idle : w.toAnswerer = []) {confirm : PacketBuf}
    {late : List PacketBuf} (link : w.toAsker = confirm :: late)
    (confirmFor : ConfirmFor C w.asker w.answerer confirm)
    (new : AllSealed C w.answerer.keys late) :
    RotationInv C (w.step C (.askerReceives env)) := by
  obtain ⟨secret, opened, keys⟩ := confirmFor.secret
  have handled := @rekeyHandle_confirm_eq C env _ w.askerSeq
    inv.askerLocked _ confirmFor.opcode confirmFor.word _ opened
  simp only [RotationWorld.step, link, receivePacket,
    if_pos confirmFor.channel, handled]
  refine ⟨inv.askerLocked, inv.answererLocked, inv.sameId, ?_, ?_⟩
  · simpa using inv.opened
  · refine RotationPhase.even keys ?_ ?_
    · rw [idle]
      intro p member
      cases member
    · rw [keys] at new
      exact new

theorem RotationInv.askerReceives
    (aead : AeadInverts C) (inv : RotationInv C w) (env : RekeyEnv) :
    RotationInv C (w.step C (.askerReceives env)) := by
  cases inv.phase with
  | even keys there back =>
      cases link : w.toAsker with
      | nil =>
          simp only [RotationWorld.step, link]
          exact inv
      | cons p rest =>
          rw [link] at back
          rw [RotationWorld.step_askerReceives_sealed aead link
            (back p List.mem_cons_self)]
          exact ⟨inv.askerLocked, inv.answererLocked, inv.sameId, inv.opened,
            RotationPhase.even keys there back.tail⟩
  | asked called awaiting keys early init queued there initOf back =>
      cases link : w.toAsker with
      | nil =>
          simp only [RotationWorld.step, link]
          exact inv
      | cons p rest =>
          rw [link] at back
          rw [RotationWorld.step_askerReceives_sealed aead link
            (back p List.mem_cons_self)]
          exact ⟨inv.askerLocked, inv.answererLocked, inv.sameId, inv.opened,
            RotationPhase.asked called awaiting keys early init queued there
              initOf back.tail⟩
  | answered called awaiting idle early late confirm link old confirmFor
      new =>
      cases early with
      | nil =>
          exact inv.confirms idle link confirmFor new
      | cons p rest =>
          rw [RotationWorld.step_askerReceives_sealed aead link
            (old p List.mem_cons_self)]
          exact ⟨inv.askerLocked, inv.answererLocked, inv.sameId, inv.opened,
            RotationPhase.answered called awaiting idle rest late confirm rfl
              old.tail confirmFor new⟩

theorem RotationInv.step
    (kem : KemInverts C) (aead : AeadInverts C) (inv : RotationInv C w)
    {act : RotationAct} (quiet : QuietStep w act) :
    RotationInv C (w.step C act) := by
  cases act with
  | initiate env =>
      exact inv.initiate env
  | askerSends p =>
      exact inv.askerSends quiet.1 quiet.2
  | answererSends p =>
      exact inv.answererSends quiet
  | askerReceives env =>
      exact inv.askerReceives aead env
  | answererReceives env =>
      exact inv.answererReceives kem aead quiet

theorem RotationInv.run
    (kem : KemInverts C) (aead : AeadInverts C) {acts : List RotationAct} :
    ∀ {w : RotationWorld}, RotationInv C w → QuietRun C w acts →
      RotationInv C (w.run C acts) := by
  induction acts with
  | nil =>
      intro w inv _
      exact inv
  | cons act rest ih =>
      intro w inv quiet
      exact ih (inv.step kem aead quiet.1) quiet.2

end

/-- While the asker is silent between its REKEY_INIT and the REKEY_CONFIRM,
every data packet of either side that has room for the nonce and the tag
passes `session_enc_check` when it is delivered. -/
theorem rotation_keeps_stream
    (C : CryptoSuite) (kem : KemInverts C) (aead : AeadInverts C)
    (pair : SyncedPair) (side : Side) (acts : List RotationAct)
    (quiet : QuietRun C (pair.rotation side) acts) :
    ((pair.rotation side).run C acts).rejected = [] :=
  (RotationInv.run kem aead (rotationInv_start pair side) quiet).opened

/-- Data from both sides around one exchange, the asker silent meanwhile. -/
def quietRotation : List RotationAct :=
  [.askerSends sampleChatPacket, .initiate (rekeyEnvSample 1),
    .answererSends sampleChatPacket, .answererReceives (rekeyEnvSample 2),
    .answererReceives (rekeyEnvSample 2), .answererSends sampleChatPacket,
    .askerReceives (rekeyEnvSample 3), .askerReceives (rekeyEnvSample 3),
    .askerSends sampleChatPacket, .askerReceives (rekeyEnvSample 3),
    .answererReceives (rekeyEnvSample 2)]

theorem sampleChatPacket_sealRoom : SealRoom sampleChatPacket := by
  intro _ v parsed
  have view : packetParse sampleChatPacket = some sampleChatView :=
    packetParse_buildPacket default true 0 5 chChat 3 [104, 105] (by decide)
      (by decide)
  rw [view] at parsed
  cases parsed
  decide

theorem rotation_keeps_stream_quietRotation :
    let w := (syncedSample.rotation .left).run sampleSuite quietRotation
    w.asker.keys.keyEpoch = 1 ∧ w.answerer.keys.keyEpoch = 1 ∧
      w.toAsker = [] ∧ w.toAnswerer = [] ∧ w.rejected = [] := by
  refine ⟨by decide +kernel, by decide +kernel,
    List.isEmpty_iff.mp (by decide +kernel),
    List.isEmpty_iff.mp (by decide +kernel), ?_⟩
  apply rotation_keeps_stream sampleSuite kemInverts_sampleSuite
    aeadInverts_sampleSuite syncedSample .left
  have room := sampleChatPacket_sealRoom
  refine ⟨⟨rfl, room⟩, trivial, room, ?_, ?_, room, trivial, trivial,
    ⟨?_, room⟩, trivial, ?_, trivial⟩
  · exact fun _ _ _ => rfl
  · exact fun _ _ _ => rfl
  · decide +kernel
  · exact fun _ _ _ => rfl

/-- The asker sends data right behind its REKEY_INIT. -/
def talkingRotation : List RotationAct :=
  [.initiate (rekeyEnvSample 1), .askerSends sampleChatPacket,
    .answererReceives (rekeyEnvSample 2), .answererReceives (rekeyEnvSample 2)]

theorem talkingRotation_rejects :
    ((syncedSample.rotation .left).run sampleSuite talkingRotation).rejected ≠
      [] := by
  have refused :
      ((syncedSample.rotation .left).run sampleSuite
        talkingRotation).rejected.isEmpty = false := by
    decide +kernel
  intro none
  rw [none] at refused
  cases refused

end PqComm
