import PqComm.Handshake.Completeness
import PqComm.Handshake.Initiator
import PqComm.Handshake.Responder

/-!
# Agreement

In every genuine run, two sides that both end locked hold one session
identifier, one transcript and one set of keys.

The argument goes backwards from the lock proof.  The initiator opened it with
a key that hashes its secret and its transcript; ideal encryption says that
the responder sealed it under that key, so secret and transcript are the same
on both sides.  Equal transcripts mean equal histories, and the last ACCEPT of
the history is the session identifier.
-/

namespace PqComm

open Lib

section

variable (C : CryptoSuite)

/-! ## The invariants over a run -/

structure WorldInv (w : HsWorld) : Prop where
  ini : InitiatorInv C w.ini (payloadsOf w.iniSent)
  resp : ResponderInv C w.resp (payloadsOf w.respSent)

theorem worldInv_start (setup : HsSetup) : WorldInv C (setup.start C) := by
  have hello :
      payloadsOf
          [buildPacket setup.helloBuf true 0 0 chControl setup.iniSeq
            [ctrlHello]] = [[ctrlHello]] :=
    payloadsOf_buildPacket _ _ _ (by decide)
  constructor
  · simp only [HsSetup.start, handshakeBuildHello, handshakeEmit,
      Option.toList_some]
    rw [hello]
    exact
      { log :=
          { chained := chained_start_initiator C setup
            sealed := fun call member => by cases member
            once := Nat.zero_le 1
            proofs := by
              intro msg member opcode
              rw [List.mem_singleton.mp member] at opcode
              exact absurd opcode (by decide) }
        opcodes := by
          intro msg member
          rw [List.mem_singleton.mp member]
          decide
        adopted := by
          intro id known
          cases known
        phase := InitiatorPhase.start rfl rfl rfl }
  · exact
      { log :=
          { chained := chained_start_responder C setup
            sealed := fun call member => by cases member
            once := Nat.zero_le 1
            proofs := fun msg member => by cases member }
        opcodes := fun msg member => by cases member
        accepts := fun msg member => by cases member
        adopted := fun id known => by cases known
        phase := ResponderPhase.start rfl rfl rfl }

theorem WorldInv.step
    {w : HsWorld} (inv : WorldInv C w) (d : Delivery) :
    WorldInv C (w.step C d) := by
  unfold HsWorld.step
  cases d.party with
  | initiator =>
      refine ⟨?_, inv.resp⟩
      simp only [handshakeRunAsInitiator, handshakeRun_eq]
      cases packetParse d.packet with
      | none =>
          simpa [payloadsOf] using inv.ini
      | some v =>
          simp only [payloadsOf_append]
          exact inv.ini.feed C d.env v.payloadBytes w.iniSeq
  | responder =>
      refine ⟨inv.ini, ?_⟩
      simp only [handshakeRunAsResponder, handshakeRun_eq]
      cases packetParse d.packet with
      | none =>
          simpa [payloadsOf] using inv.resp
      | some v =>
          simp only [payloadsOf_append]
          exact inv.resp.feed C d.env v.payloadBytes w.respSeq

theorem WorldInv.run
    {w : HsWorld} (inv : WorldInv C w) (ds : List Delivery) :
    WorldInv C (w.run C ds) := by
  induction ds generalizing w with
  | nil =>
      exact inv
  | cons d rest inductionHypothesis =>
      exact inductionHypothesis (inv.step C d)

/-! ## Genuine runs absorb only what was sent -/

theorem absorbed_verifyProof (s : Session) (label pre msg : Bytes) :
    (verifyProof C s label pre msg).1.history.absorbed =
      s.history.absorbed :=
  (verifyProof_checked C s label pre msg).absorbed

/-- An accepted message is absorbed, and nothing else is. -/
theorem absorbed_processPayload_initiator
    {s : Session} {msg : Bytes} {result : Session × HsResult}
    (other : s.state ≠ .pqKemResponseSent)
    (accepts : InitiatorAccepts C s msg result) :
    result.1.history.absorbed = s.history.absorbed ++ [msg] := by
  cases accepts with
  | accept opcode state id adopted kept =>
      rfl
  | kemResponse opcode state secret size =>
      rfl
  | identity state =>
      exact absurd state other
  | locked opcode state long verified s' derived =>
      obtain ⟨material, _, rfl⟩ := Option.map_eq_some_iff.mp derived
      exact absorbed_verifyProof C _ _ _ _

theorem chained_initiatorAccepts
    {s : Session} {msg : Bytes} {result : Session × HsResult}
    (chained : Chained C s) (other : s.state ≠ .pqKemResponseSent)
    (accepts : InitiatorAccepts C s msg result) : Chained C result.1 := by
  have next := chained.updateTranscript C msg
  cases accepts with
  | accept opcode state id adopted kept =>
      exact ⟨next.secret, next.identity, next.transcript, next.logged⟩
  | kemResponse opcode state secret size =>
      exact ⟨size, next.identity, next.transcript, next.logged⟩
  | identity state =>
      exact absurd state other
  | locked opcode state long verified s' derived =>
      have checked := next.proofChecked C
        (verifyProof_checked C (updateTranscript C s msg) labelLockProof
          s.hs.transcriptHash msg)
      rw [lockSession_eq C checked, Option.some.injEq] at derived
      rw [← derived]
      exact chained_lockedSession C checked

/-- An initiator that accepts a message still has its role, and is not in the
state that only a responder reaches. -/
theorem InitiatorPhase.of_accepted
    {s : Session} {msg : Bytes} (phase : InitiatorPhase C s)
    (accepted : (processPayload C s msg).2 ≠ .error) :
    s.role = .initiator ∧ s.state ≠ .pqKemResponseSent := by
  cases phase with
  | start role state _ =>
      exact ⟨role, by simp [state]⟩
  | kemSent role state _ _ =>
      exact ⟨role, by simp [state]⟩
  | proved role state _ =>
      exact ⟨role, by simp [state]⟩
  | locked role state _ _ _ _ =>
      exact ⟨role, by simp [state]⟩
  | reset role state =>
      exact absurd (processPayload_unassigned C role state msg) accepted

/-- What a call adds to the absorbed messages, it also sends. -/
def AbsorbsSent (s : Session) (r : HsOut) : Prop :=
  ∀ msg ∈ r.sess.history.absorbed,
    msg ∈ s.history.absorbed ∨ msg ∈ payloadsOf r.out.toList

theorem AbsorbsSent.silent (s : Session) (seq : UInt32) :
    AbsorbsSent s { sess := s, seq := seq } :=
  fun _ member => Or.inl member

theorem absorbsSent_buildKemInit
    (s : Session) (coins : Bytes) (buf : PacketBuf) (seq : UInt32) :
    AbsorbsSent s (handshakeBuildKemInit C s coins buf seq) := by
  unfold handshakeBuildKemInit
  split
  · exact AbsorbsSent.silent s seq
  · cases made : C.kemKeypair coins with
    | none =>
        exact fun _ member => Or.inl member
    | some pair =>
        obtain ⟨publicKey, secretKey⟩ := pair
        have size := (C.length_kemKeypair _ publicKey secretKey made).1
        have fits : (ctrlPqKemInit :: publicKey).length ≤ 1476 := by
          simp [size]
        intro msg member
        simp only [handshakeEmit, Option.toList_some]
        rw [payloadsOf_buildPacket _ _ _ fits]
        exact List.mem_append.mp member

theorem absorbsSent_buildIdentity
    {s : Session} (chained : Chained C s) (buf : PacketBuf) (seq : UInt32) :
    AbsorbsSent s (handshakeBuildIdentity C s buf seq) := by
  have sizes := length_proofSealed C chained labelIdProof
  have fits :
      (builtProof C s ctrlIdentityProof labelIdProof).length ≤ 1476 := by
    rw [builtProof, length_proofPayload _ (length_proofNonce C _) sizes.1
      sizes.2]
    decide
  rw [handshakeBuildIdentity, handshakeBuildProof_eq C chained]
  intro msg member
  simp only [Option.toList_some]
  rw [payloadsOf_buildPacket _ _ _ fits]
  exact List.mem_append.mp member

theorem absorbsSent_initiatorReply
    {s : Session} (chained : Chained C s) (env : HsEnv) (opcode : UInt8)
    (seq : UInt32) : AbsorbsSent s (initiatorReply C env s opcode seq) := by
  unfold initiatorReply
  cases env.buf with
  | none =>
      exact AbsorbsSent.silent s seq
  | some buf =>
      dsimp only
      split
      · exact absorbsSent_buildKemInit C s env.coins buf seq
      · split
        · exact absorbsSent_buildIdentity C chained buf seq
        · exact AbsorbsSent.silent s seq

/-- Everything the initiator has absorbed was sent by one of the sides. -/
def Emitted (w : HsWorld) : Prop :=
  ∀ msg ∈ w.ini.history.absorbed,
    msg ∈ payloadsOf (w.iniSent ++ w.respSent)

theorem payload_mem_payloadsOf
    {p : PacketBuf} {packets : List PacketBuf} {v : PacketView}
    (member : p ∈ packets) (parsed : packetParse p = some v) :
    v.payloadBytes ∈ payloadsOf packets :=
  List.mem_filterMap.mpr ⟨p, member, by rw [parsed]; rfl⟩

theorem Emitted.step
    {w : HsWorld} (inv : WorldInv C w) (emitted : Emitted w)
    {d : Delivery} (genuine : d.packet ∈ w.iniSent ++ w.respSent) :
    Emitted (w.step C d) := by
  unfold HsWorld.step
  cases d.party with
  | responder =>
      intro msg member
      have sent := emitted msg member
      simp only [payloadsOf_append, List.mem_append] at sent ⊢
      rcases sent with ini | resp
      · exact Or.inl ini
      · exact Or.inr (Or.inl resp)
  | initiator =>
      have earlier :
          ∀ msg ∈ w.ini.history.absorbed, ∀ new : List PacketBuf,
            msg ∈ payloadsOf ((w.iniSent ++ new) ++ w.respSent) := by
        intro msg member new
        have sent := emitted msg member
        simp only [payloadsOf_append, List.mem_append] at sent ⊢
        rcases sent with ini | resp
        · exact Or.inl (Or.inl ini)
        · exact Or.inr resp
      simp only [handshakeRunAsInitiator, handshakeRun_eq]
      cases parsed : packetParse d.packet with
      | none =>
          intro msg member
          exact earlier msg member _
      | some v =>
          have delivered := payload_mem_payloadsOf genuine parsed
          intro msg member
          dsimp only at member
          by_cases failed :
              (processPayload C w.ini v.payloadBytes).2 = .error
          · simp only [feed, failed] at member
            cases member
          · obtain ⟨role, other⟩ := inv.ini.phase.of_accepted C failed
            have accepts := processPayload_initiator C role failed
            have absorbed :=
              absorbed_processPayload_initiator C other accepts
            have chained := chained_initiatorAccepts C inv.ini.log.chained
              other accepts
            have known :
                ∀ msg ∈ (processPayload C w.ini
                    v.payloadBytes).1.history.absorbed,
                  ∀ new : List PacketBuf,
                    msg ∈ payloadsOf ((w.iniSent ++ new) ++ w.respSent) := by
              intro msg member new
              rw [absorbed] at member
              rcases List.mem_append.mp member with old | received
              · exact earlier msg old new
              · rw [List.mem_singleton.mp received]
                simp only [payloadsOf_append,
                  List.mem_append] at delivered ⊢
                rcases delivered with ini | resp
                · exact Or.inl (Or.inl ini)
                · exact Or.inr resp
            unfold feed at member ⊢
            cases result : (processPayload C w.ini v.payloadBytes).2 with
            | error =>
                exact absurd result failed
            | complete =>
                simp only [result] at member
                exact known msg member _
            | needMore =>
                simp only [result] at member ⊢
                rcases absorbsSent_initiatorReply C chained d.env
                    (opcodeOf v.payloadBytes) w.iniSeq msg member with
                  old | new
                · exact known msg old _
                · simp only [payloadsOf_append, List.mem_append]
                  exact Or.inl (Or.inr new)

theorem Emitted.run
    {w : HsWorld} (inv : WorldInv C w) (emitted : Emitted w)
    (ds : List Delivery) (genuine : w.Genuine C ds) :
    Emitted (w.run C ds) := by
  induction ds generalizing w with
  | nil =>
      exact emitted
  | cons d rest inductionHypothesis =>
      exact inductionHypothesis (inv.step C d)
        (emitted.step C inv genuine.1) genuine.2

theorem emitted_start (setup : HsSetup) : Emitted (setup.start C) := by
  intro msg member
  have hello :
      payloadsOf
          [buildPacket setup.helloBuf true 0 0 chControl setup.iniSeq
            [ctrlHello]] = [[ctrlHello]] :=
    payloadsOf_buildPacket _ _ _ (by decide)
  simp only [HsSetup.start, handshakeBuildHello, handshakeEmit,
    Option.toList_some, List.append_nil]
  rw [hello]
  exact member

/-! ## From the lock proof to the secret -/

/-- The two labels keep the keys of the two proofs apart. -/
theorem proofKeyInput_labels_ne (secret transcript secret' transcript' : Bytes) :
    proofKeyInput labelIdProof secret transcript ≠
      proofKeyInput labelLockProof secret' transcript' := by
  intro equal
  have eighth := congrArg (fun input => input.getD 7 0) equal
  exact absurd eighth (by simp [proofKeyInput, labelIdProof, labelLockProof,
    asciiBytes])

theorem proofKeyInput_inj
    {label secret transcript secret' transcript' : Bytes}
    (size : secret.length = 32) (size' : secret'.length = 32)
    (equal :
      proofKeyInput label secret transcript =
        proofKeyInput label secret' transcript') :
    secret = secret' ∧ transcript = transcript' := by
  simp only [proofKeyInput, List.append_assoc] at equal
  exact List.append_inj (List.append_cancel_left equal)
    (size.trans size'.symm)

/-- Two sides that are both locked used one secret and one transcript for the
lock proof, and the initiator received the ciphertext and the tag the
responder had sealed. -/
structure LockAgreement (w : HsWorld) (secret : Bytes)
    (iniBefore respBefore : List Bytes) (msg cipher tag : Bytes) : Prop where
  ini : LockedAfter C w.ini secret iniBefore msg
  resp :
    LockedAfter C w.resp secret respBefore
      (proofPayload ctrlSessionLocked
        (proofNonce C (lockKey C secret respBefore)) cipher tag)
  transcript : transcriptOf C iniBefore = transcriptOf C respBefore
  opcode : opcodeOf msg = ctrlSessionLocked
  long : 93 ≤ msg.length
  sameCipher : (msg.drop 13).take 64 = cipher
  sameTag : (msg.drop 77).take 16 = tag
  accepted : ∃ old ∈ w.ini.history.absorbed, opcodeOf old = ctrlAccept
  only :
    ∃ plain,
      w.resp.seals =
        [.seal (lockKey C secret respBefore)
          (proofNonce C (lockKey C secret respBefore)) plain cipher tag]

theorem lockAgreement
    {w : HsWorld} (inv : WorldInv C w) (ideal : IdealCalls C w.calls)
    {secret : Bytes} {before : List Bytes} {msg : Bytes}
    (held : InitiatorLocked C w.ini secret before msg)
    (respLocked : w.resp.state = .locked) :
    ∃ respBefore cipher tag,
      LockAgreement C w secret before respBefore msg cipher tag := by
  cases inv.resp.phase with
  | start _ state _ => simp [respLocked] at state
  | kemSent _ state _ => simp [respLocked] at state
  | reset _ state => simp [respLocked] at state
  | locked _ _ secret' before' plain cipher tag after' only =>
      have iniHashed := List.mem_append_left w.resp.history.calls
        held.after.hashed
      have respHashed := List.mem_append_right w.ini.history.calls
        after'.hashed
      obtain ⟨original, opening⟩ := held.opened
      obtain ⟨source, sealed⟩ := ideal.unforgeable _ _ _ _ _
        (List.mem_append_left w.resp.history.calls held.unsealed) opening
      rcases List.mem_append.mp sealed with byIni | byResp
      · -- The initiator seals with the other label only.
        obtain ⟨_, _, _, _, _, _, _, _, _, equal, hashed, _⟩ :=
          inv.ini.log.sealed _ (mem_seals.mpr byIni)
        injection equal with sameKey
        have inputs := ideal.noCollision
          (List.mem_append_left w.resp.history.calls hashed) iniHashed
          sameKey.symm
        exact absurd inputs (proofKeyInput_labels_ne _ _ _ _)
      · rw [← mem_seals, only, List.mem_singleton] at byResp
        injection byResp with sameKey _ _ sameCipher sameTag
        have inputs := ideal.noCollision iniHashed respHashed sameKey
        obtain ⟨secrets, transcripts⟩ :=
          proofKeyInput_inj held.after.size after'.size inputs
        subst secrets
        exact ⟨before', cipher, tag, held.after, after', transcripts,
          held.opcode, held.long, sameCipher, sameTag, held.accepted,
          plain, only⟩

/-- A locked initiator locked on some SESSION_LOCKED. -/
theorem InitiatorPhase.held
    {s : Session} (phase : InitiatorPhase C s) (locked : s.state = .locked) :
    ∃ secret before msg, InitiatorLocked C s secret before msg := by
  cases phase with
  | start _ state _ => simp [locked] at state
  | kemSent _ state _ _ => simp [locked] at state
  | proved _ state _ => simp [locked] at state
  | reset _ state => simp [locked] at state
  | locked _ _ secret before msg held => exact ⟨secret, before, msg, held⟩

/-- Equal lock messages on top of the agreement give equal transcripts and
keys. -/
theorem LockAgreement.same
    {w : HsWorld} (inv : WorldInv C w) {secret : Bytes}
    {iniBefore respBefore : List Bytes} {msg cipher tag : Bytes}
    (agreement :
      LockAgreement C w secret iniBefore respBefore msg cipher tag)
    (sameMessage :
      msg =
        proofPayload ctrlSessionLocked
          (proofNonce C (lockKey C secret respBefore)) cipher tag) :
    w.ini.hs.transcriptHash = w.resp.hs.transcriptHash ∧
      w.ini.material = w.resp.material := by
  have transcripts : w.ini.hs.transcriptHash = w.resp.hs.transcriptHash := by
    rw [inv.ini.log.chained.transcript, inv.resp.log.chained.transcript,
      agreement.ini.absorbed, agreement.resp.absorbed, transcriptOf,
      transcriptOf, hashChain_concat, hashChain_concat, ← sameMessage]
    have before := agreement.transcript
    simp only [transcriptOf] at before
    rw [before]
  refine ⟨transcripts, ?_⟩
  rw [agreement.ini.material, agreement.resp.material, transcripts]

/-! ## Genuine runs -/

/-- A message that was sent and that no initiator sends comes from the
responder. -/
theorem sent_by_responder
    {w : HsWorld} (inv : WorldInv C w) {msg : Bytes}
    (sent : msg ∈ payloadsOf (w.iniSent ++ w.respSent))
    (foreign :
      opcodeOf msg ∉ [ctrlHello, ctrlPqKemInit, ctrlIdentityProof]) :
    msg ∈ payloadsOf w.respSent := by
  rw [payloadsOf_append, List.mem_append] at sent
  rcases sent with byIni | byResp
  · exact absurd (inv.ini.opcodes msg byIni) foreign
  · exact byResp

/-- Two sides with one transcript adopted one identifier. -/
theorem sessionId_eq_of_transcript_eq
    {w : HsWorld} (inv : WorldInv C w) (emitted : Emitted w)
    (ideal : IdealCalls C w.calls)
    (accepted : ∃ msg ∈ w.ini.history.absorbed, opcodeOf msg = ctrlAccept)
    (transcripts : w.ini.hs.transcriptHash = w.resp.hs.transcriptHash) :
    w.ini.sessionId = w.resp.sessionId := by
  rw [inv.ini.log.chained.transcript,
    inv.resp.log.chained.transcript] at transcripts
  have histories : w.ini.history.absorbed = w.resp.history.absorbed :=
    hashChain_injective C.length_sha256 (length_zeros 32)
      ideal.noCollision ideal.noSeed
      (fun input member =>
        List.mem_append_left _ (inv.ini.log.chained.logged input member))
      (fun input member =>
        List.mem_append_right _ (inv.resp.log.chained.logged input member))
      transcripts
  obtain ⟨msg, member, opcode⟩ := accepted
  have byResp := sent_by_responder C inv (emitted msg member)
    (by rw [opcode]; decide)
  have long : 9 ≤ msg.length :=
    Nat.le_of_eq (inv.resp.accepts msg byResp opcode).symm
  obtain ⟨id, known⟩ := acceptedId_isSome member opcode long
  rw [inv.ini.adopted id known]
  rw [histories] at known
  exact (inv.resp.adopted id known).symm

/-- In every genuine run, sides that are both locked agree on the session
identifier, the transcript, the session key and the channel keys. -/
theorem handshake_agreement
    (setup : HsSetup) (ds : List Delivery)
    (genuine : (setup.start C).Genuine C ds)
    (ideal : IdealCalls C ((setup.start C).run C ds).calls)
    (iniLocked : ((setup.start C).run C ds).ini.state = .locked)
    (respLocked : ((setup.start C).run C ds).resp.state = .locked) :
    let w := (setup.start C).run C ds
    w.ini.sessionId = w.resp.sessionId ∧
      w.ini.hs.transcriptHash = w.resp.hs.transcriptHash ∧
      w.ini.keys.sessionKey = w.resp.keys.sessionKey ∧
      w.ini.keys.channelKeys = w.resp.keys.channelKeys := by
  have start := worldInv_start C setup
  have inv := start.run C ds
  have emitted := (emitted_start C setup).run C start ds genuine
  obtain ⟨secret, iniBefore, msg, held⟩ := inv.ini.phase.held C iniLocked
  obtain ⟨respBefore, cipher, tag, agreement⟩ :=
    lockAgreement C inv ideal held respLocked
  have absorbed : msg ∈ ((setup.start C).run C ds).ini.history.absorbed := by
    rw [agreement.ini.absorbed]
    exact List.mem_append_right _ (List.mem_singleton.mpr rfl)
  have byResp := sent_by_responder C inv (emitted msg absorbed)
    (by rw [agreement.opcode]; decide)
  have sameMessage :
      msg =
        proofPayload ctrlSessionLocked
          (proofNonce C (lockKey C secret respBefore)) cipher tag := by
    obtain ⟨_, _, _, _, _, sealed, equal⟩ :=
      inv.resp.log.proofs msg byResp agreement.opcode
    obtain ⟨plain, only⟩ := agreement.only
    rw [only, List.mem_singleton] at sealed
    injection sealed with _ sameNonce _ sameCipher sameTag
    rw [equal, sameNonce, sameCipher, sameTag]
  obtain ⟨transcripts, keys⟩ := agreement.same C inv sameMessage
  exact ⟨sessionId_eq_of_transcript_eq C inv emitted ideal
      agreement.accepted transcripts, transcripts,
    congrArg Prod.fst keys, congrArg Prod.snd keys⟩

end

theorem handshake_agreement_sampleRun :
    let w := (sampleSetup.start sampleSuite).run sampleSuite sampleRun
    w.ini.state = .locked ∧ w.resp.state = .locked ∧
      w.ini.sessionId = w.resp.sessionId ∧
      w.ini.hs.transcriptHash = w.resp.hs.transcriptHash ∧
      w.ini.keys.sessionKey = w.resp.keys.sessionKey ∧
      w.ini.keys.channelKeys = w.resp.keys.channelKeys :=
  ⟨sampleRun_ends.1.stands.state, sampleRun_ends.2.stands.state,
    handshake_agreement sampleSuite sampleSetup sampleRun
      (relay_genuine _ _ _ _) sampleRun_ideal sampleRun_ends.1.stands.state
      sampleRun_ends.2.stands.state⟩

end PqComm
