import PqComm.Handshake.Agreement

/-!
# A message delivered again

A message is absorbed into the transcript before the answer to it is built.
When the answer fails, for want of a buffer or in its builder, the message
stays absorbed and the state does not move.  The same message is then absorbed
a second time when it is delivered again, and the transcript is never again
that of the peer.
-/

namespace PqComm

open Lib

section

variable (C : CryptoSuite)

/-! ## What is absorbed -/

/-- An accepted message is absorbed once. -/
theorem absorbed_processPayload
    {s : Session} {msg : Bytes}
    (accepted : (processPayload C s msg).2 ≠ .error) :
    (processPayload C s msg).1.history.absorbed =
      s.history.absorbed ++ [msg] := by
  obtain ⟨-, -, result⟩ := processPayload_accepted C accepted
  rw [result]
  rcases processOpcode_session C (updateTranscript C s msg)
      s.hs.transcriptHash (opcodeOf msg) msg with
    ⟨history, -⟩ | ⟨label, checked | derived⟩
  · rw [history]
    rfl
  · rw [checked, absorbed_verifyProof]
    rfl
  · obtain ⟨material, -, locked⟩ := Option.map_eq_some_iff.mp derived
    rw [← locked]
    exact absorbed_verifyProof C _ _ _ _

/-- A builder absorbs the message it has built, and keeps what was absorbed
when it fails. -/
structure Builds (s : Session) (result : HsOut) : Prop where
  keeps : s.history.absorbed.length ≤ result.sess.history.absorbed.length
  absorbs :
    result.out.isSome = true →
      result.sess.history.absorbed.length = s.history.absorbed.length + 1

theorem Builds.fails (s : Session) (seq : UInt32) :
    Builds s { sess := s, seq := seq } :=
  ⟨Nat.le_refl _, nofun⟩

theorem Builds.emits
    {s t : Session} (same : t.history.absorbed = s.history.absorbed)
    (headerId : UInt64) (buf : PacketBuf) (seq : UInt32) (payload : Bytes) :
    Builds s (handshakeEmit C t headerId buf seq payload) := by
  have length :
      (handshakeEmit C t headerId buf seq
          payload).sess.history.absorbed.length =
        s.history.absorbed.length + 1 := by
    rw [← same]
    exact List.length_append
  exact ⟨by rw [length]; exact Nat.le_succ _, fun _ => length⟩

/-- Changing the state or the keys afterwards absorbs nothing. -/
theorem Builds.moves
    {s : Session} {result result' : HsOut} (builds : Builds s result)
    (same :
      result'.sess.history.absorbed = result.sess.history.absorbed)
    (out : result'.out.isSome = true → result.out.isSome = true) :
    Builds s result' :=
  ⟨by rw [same]; exact builds.keeps,
    fun answered => by rw [same]; exact builds.absorbs (out answered)⟩

theorem builds_kemInit
    (s : Session) (coins : Bytes) (buf : PacketBuf) (seq : UInt32) :
    Builds s (handshakeBuildKemInit C s coins buf seq) := by
  unfold handshakeBuildKemInit
  split
  · exact Builds.fails s seq
  · cases C.kemKeypair coins with
    | none =>
        exact ⟨Nat.le_refl _, nofun⟩
    | some pair =>
        exact (Builds.emits C rfl _ buf seq _).moves rfl id

theorem builds_kemResponse
    (s : Session) (coins : Bytes) (buf : PacketBuf) (seq : UInt32) :
    Builds s (handshakeBuildKemResponse C s coins buf seq) := by
  unfold handshakeBuildKemResponse
  split
  · exact Builds.fails s seq
  · cases C.kemEncaps s.hs.peerPublicKey coins with
    | none =>
        exact Builds.fails s seq
    | some pair =>
        dsimp only
        cases deriveSessionKeys C pair.2 s.hs.transcriptHash with
        | none =>
            exact Builds.fails s seq
        | some material =>
            exact (Builds.emits C rfl _ buf seq _).moves rfl id

theorem builds_proof
    (s : Session) (opcode : UInt8) (label : Bytes) (buf : PacketBuf)
    (seq : UInt32) :
    Builds s (handshakeBuildProof C s opcode label buf seq) := by
  unfold handshakeBuildProof
  dsimp only [deriveIdProofKey]
  cases aeadEncrypt C (proofKey C label s.hs.kemSharedSecret
      s.hs.transcriptHash)
      (proofNonce C (proofKey C label s.hs.kemSharedSecret
        s.hs.transcriptHash)) [] (proofPlain C s) with
  | none =>
      exact ⟨Nat.le_refl _, nofun⟩
  | some pair =>
      refine Builds.emits C ?_ _ buf seq _
      rfl

theorem builds_identity (s : Session) (buf : PacketBuf) (seq : UInt32) :
    Builds s (handshakeBuildIdentity C s buf seq) := by
  have proof := builds_proof C s ctrlIdentityProof labelIdProof buf seq
  unfold handshakeBuildIdentity
  dsimp only
  split
  · exact proof
  · exact proof.moves rfl id

theorem builds_locked (s : Session) (buf : PacketBuf) (seq : UInt32) :
    Builds s (handshakeBuildLocked C s buf seq) := by
  have proof := builds_proof C s ctrlSessionLocked labelLockProof buf seq
  unfold handshakeBuildLocked
  dsimp only
  split
  · exact proof
  · split
    · exact proof.moves rfl nofun
    · rename_i derived
      obtain ⟨material, -, locked⟩ := Option.map_eq_some_iff.mp derived
      refine proof.moves ?_ id
      dsimp only
      rw [← locked]
      rfl

theorem builds_initiatorReply
    (env : HsEnv) (s : Session) (opcode : UInt8) (seq : UInt32) :
    Builds s (initiatorReply C env s opcode seq) := by
  unfold initiatorReply
  cases env.buf with
  | none =>
      exact Builds.fails s seq
  | some buf =>
      dsimp only
      split
      · exact builds_kemInit C s env.coins buf seq
      · split
        · exact builds_identity C s buf seq
        · exact Builds.fails s seq

theorem builds_responderReply
    (env : HsEnv) (s : Session) (opcode : UInt8) (seq : UInt32) :
    Builds s (responderReply C env s opcode seq) := by
  unfold responderReply
  cases env.buf with
  | none =>
      exact Builds.fails s seq
  | some buf =>
      dsimp only
      split
      · refine Builds.emits C ?_ _ buf seq _
        rfl
      · split
        · exact builds_kemResponse C s env.coins buf seq
        · split
          · exact builds_locked C s buf seq
          · exact Builds.fails s seq

/-! ## The two calls -/

/-- The session of a side, and its call of the runner. -/
def HsWorld.session (w : HsWorld) : Party → Session
  | .initiator => w.ini
  | .responder => w.resp

def HsWorld.call (w : HsWorld) (d : Delivery) : HsOut :=
  match d.party with
  | .initiator =>
      handshakeRunAsInitiator C d.env w.ini d.packet w.iniSeq
  | .responder =>
      handshakeRunAsResponder C d.env w.resp d.packet w.respSeq

theorem HsWorld.session_step (w : HsWorld) (d : Delivery) :
    (w.step C d).session d.party = (w.call C d).sess := by
  unfold HsWorld.step HsWorld.call
  cases d.party <;> rfl

/-- How much the session of a side has absorbed. -/
def HsWorld.absorbedCount (w : HsWorld) (party : Party) : Nat :=
  (w.session party).history.absorbed.length

/-- A message that is not refused is absorbed, and so is the answer to it. -/
theorem absorbed_feed
    {reply : HsEnv → Session → UInt8 → UInt32 → HsOut}
    (builds : ∀ env s opcode seq, Builds s (reply env s opcode seq))
    (env : HsEnv) (s : Session) (msg : Bytes) (seq : UInt32) :
    ((processPayload C s msg).2 = .needMore →
        s.history.absorbed.length + 1 ≤
          (feed C reply env s msg seq).sess.history.absorbed.length) ∧
      ((feed C reply env s msg seq).out.isSome = true →
        (processPayload C s msg).2 = .needMore ∧
          (feed C reply env s msg seq).sess.history.absorbed.length =
            s.history.absorbed.length + 2) := by
  have absorbs (more : (processPayload C s msg).2 = .needMore) :
      (processPayload C s msg).1.history.absorbed.length =
        s.history.absorbed.length + 1 := by
    rw [absorbed_processPayload C (by rw [more]; exact nofun)]
    exact List.length_append
  have built := builds env (processPayload C s msg).1 (opcodeOf msg) seq
  unfold feed
  dsimp only
  cases result : (processPayload C s msg).2 with
  | error =>
      exact ⟨nofun, nofun⟩
  | complete =>
      exact ⟨nofun, nofun⟩
  | needMore =>
      refine ⟨fun _ => ?_, fun answered => ⟨rfl, ?_⟩⟩
      · rw [← absorbs result]
        exact built.keeps
      · have answer := built.absorbs answered
        rw [absorbs result] at answer
        exact answer

/-- The message is accepted and asks for an answer. -/
def HsWorld.Accepts (w : HsWorld) (party : Party) (p : PacketBuf) : Prop :=
  ∃ v, packetParse p = some v ∧
    (processPayload C (w.session party) v.payloadBytes).2 = .needMore

theorem absorbedCount_step (w : HsWorld) (d : Delivery) :
    (w.Accepts C d.party d.packet →
        w.absorbedCount d.party + 1 ≤ (w.step C d).absorbedCount d.party) ∧
      ((w.call C d).out.isSome = true →
        w.Accepts C d.party d.packet ∧
          (w.step C d).absorbedCount d.party =
            w.absorbedCount d.party + 2) := by
  unfold HsWorld.absorbedCount HsWorld.Accepts
  rw [HsWorld.session_step]
  obtain ⟨party, p, env⟩ := d
  have fed :
      ∃ reply seq,
        (∀ env s opcode seq, Builds s (reply env s opcode seq)) ∧
          w.call C ⟨party, p, env⟩ =
            handshakeRun C reply env (w.session party) p seq := by
    cases party with
    | initiator =>
        exact ⟨initiatorReply C, w.iniSeq, builds_initiatorReply C, rfl⟩
    | responder =>
        exact ⟨responderReply C, w.respSeq, builds_responderReply C, rfl⟩
  obtain ⟨reply, seq, builds, same⟩ := fed
  rw [same, handshakeRun_eq]
  dsimp only
  cases packetParse p with
  | none =>
      refine ⟨?_, nofun⟩
      rintro ⟨_, parsed, -⟩
      cases parsed
  | some v =>
      have fed := absorbed_feed C builds env (w.session party)
        v.payloadBytes seq
      constructor
      · rintro ⟨_, ⟨⟩, more⟩
        exact fed.1 more
      · intro answered
        obtain ⟨more, length⟩ := fed.2 answered
        exact ⟨⟨v, rfl, more⟩, length⟩

/-- The session of a reachable side is chained. -/
theorem WorldInv.chained {w : HsWorld} (inv : WorldInv C w) (party : Party) :
    Chained C (w.session party) := by
  cases party with
  | initiator => exact inv.ini.log.chained
  | responder => exact inv.resp.log.chained

/-- Two chained sessions with one transcript have absorbed the same. -/
theorem absorbed_eq_of_transcript
    {s t : Session} (left : Chained C s) (right : Chained C t)
    (noCollision :
      Set.InjOn C.sha256
        { input | .hash input ∈ s.history.calls ++ t.history.calls })
    (noSeed :
      ∀ input, .hash input ∈ s.history.calls ++ t.history.calls →
        C.sha256 input ≠ zeros 32)
    (same : s.hs.transcriptHash = t.hs.transcriptHash) :
    s.history.absorbed = t.history.absorbed := by
  rw [left.transcript, right.transcript] at same
  exact hashChain_injective C.length_sha256 (length_zeros 32) noCollision
    noSeed
    (fun input member =>
      List.mem_append_left _ (left.logged input member))
    (fun input member =>
      List.mem_append_right _ (right.logged input member))
    same

end

/-- The session is as it is without the failed attempt. -/
structure SameOutcome (s t : Session) : Prop where
  state : s.state = t.state
  transcript : s.hs.transcriptHash = t.hs.transcriptHash
  keys : s.keys = t.keys

/-- A message whose answer failed and that is delivered again never gives the
answer and the session it gives without the failure. -/
theorem handshake_retry_differs
    (C : CryptoSuite) (setup : HsSetup) (ds : List Delivery) (party : Party)
    (p : PacketBuf) (first second : HsEnv) :
    let w := (setup.start C).run C ds
    let failed := w.step C ⟨party, p, first⟩
    let clean := (w.step C ⟨party, p, second⟩).session party
    let again := (failed.step C ⟨party, p, second⟩).session party
    (w.call C ⟨party, p, second⟩).out.isSome = true →
      (w.call C ⟨party, p, first⟩).out = none →
      Set.InjOn C.sha256
          { input | .hash input ∈ again.history.calls ++
            clean.history.calls } →
      (∀ input,
          .hash input ∈ again.history.calls ++ clean.history.calls →
            C.sha256 input ≠ zeros 32) →
      ¬ ((failed.call C ⟨party, p, second⟩).out.isSome = true ∧
        SameOutcome again clean) := by
  intro w failed clean again answered _ noCollision noSeed retried
  obtain ⟨answeredAgain, same⟩ := retried
  have inv : WorldInv C w := (worldInv_start C setup).run C ds
  have invFailed : WorldInv C failed := inv.step C _
  have chainedClean : Chained C clean := (inv.step C _).chained C party
  have chainedAgain : Chained C again := (invFailed.step C _).chained C party
  obtain ⟨accepts, cleanCount⟩ :=
    (absorbedCount_step C w ⟨party, p, second⟩).2 answered
  have failedCount := (absorbedCount_step C w ⟨party, p, first⟩).1 accepts
  have againCount :=
    ((absorbedCount_step C failed ⟨party, p, second⟩).2 answeredAgain).2
  have absorbed :=
    congrArg List.length
      (absorbed_eq_of_transcript C chainedAgain chainedClean noCollision
        noSeed same.transcript)
  change (failed.step C ⟨party, p, second⟩).absorbedCount party =
    (w.step C ⟨party, p, second⟩).absorbedCount party at absorbed
  change w.absorbedCount party + 1 ≤ failed.absorbedCount party at failedCount
  dsimp only at cleanCount againCount
  omega

/-! ## A HELLO for which there is no buffer -/

/-- The HELLO of the sample initiator. -/
def sampleHello : PacketBuf :=
  buildPacket default true 0 0 chControl 1 [ctrlHello]

def emptyPool : HsEnv :=
  { sampleEnv with buf := none }

/-- The responder after the HELLO. -/
def helloOnce : Session :=
  (((sampleSetup.start sampleSuite).step sampleSuite
    ⟨.responder, sampleHello, sampleEnv⟩).session .responder)

/-- The responder after the HELLO was delivered without a buffer and again
with one. -/
def helloTwice : Session :=
  ((((sampleSetup.start sampleSuite).step sampleSuite
    ⟨.responder, sampleHello, emptyPool⟩).step sampleSuite
      ⟨.responder, sampleHello, sampleEnv⟩).session .responder)

/-- The strings that were hashed. -/
def hashedStrings (calls : List CryptoCall) : List Bytes :=
  calls.filterMap fun
    | .hash input => some input
    | _ => none

theorem mem_hashedStrings {calls : List CryptoCall} {input : Bytes}
    (member : .hash input ∈ calls) : input ∈ hashedStrings calls :=
  List.mem_filterMap.mpr ⟨_, member, rfl⟩

theorem sampleHello_hashes :
    let inputs :=
      hashedStrings (helloTwice.history.calls ++ helloOnce.history.calls)
    (inputs.all fun left => inputs.all fun right =>
        decide (sampleSuite.sha256 left = sampleSuite.sha256 right →
          left = right)) = true ∧
      (inputs.all fun input =>
        decide (sampleSuite.sha256 input ≠ zeros 32)) = true := by
  decide +kernel

theorem handshake_retry_differs_sample :
    helloTwice.state = helloOnce.state ∧
      ¬ ((((sampleSetup.start sampleSuite).step sampleSuite
          ⟨.responder, sampleHello, emptyPool⟩).call sampleSuite
            ⟨.responder, sampleHello, sampleEnv⟩).out.isSome = true ∧
        SameOutcome helloTwice helloOnce) := by
  refine ⟨by decide +kernel,
    handshake_retry_differs sampleSuite sampleSetup [] .responder sampleHello
      emptyPool sampleEnv (by decide +kernel) ?_ ?_ ?_⟩
  · exact Option.isNone_iff_eq_none.mp (by decide +kernel)
  · intro left leftMember right rightMember same
    have all :=
      List.all_eq_true.mp sampleHello_hashes.1 left
        (mem_hashedStrings leftMember)
    exact of_decide_eq_true
      (List.all_eq_true.mp all right (mem_hashedStrings rightMember)) same
  · intro input member
    exact of_decide_eq_true
      (List.all_eq_true.mp sampleHello_hashes.2 input
        (mem_hashedStrings member))

/-- The answer is there, and the transcript is another one. -/
theorem handshake_retry_moves_transcript :
    (sampleSetup.start sampleSuite).iniSent = [sampleHello] ∧
      (((sampleSetup.start sampleSuite).step sampleSuite
        ⟨.responder, sampleHello, emptyPool⟩).call sampleSuite
          ⟨.responder, sampleHello, sampleEnv⟩).out.isSome = true ∧
      ¬ SameOutcome helloTwice helloOnce := by
  refine ⟨rfl, by decide +kernel, fun same => ?_⟩
  exact absurd same.transcript (by decide +kernel)

end PqComm
