import Mathlib.Data.List.Forall2
import Mathlib.Tactic.IntervalCases
import PqComm.Handshake.Completeness
import PqComm.Layers.Gate

/-!
# The stages of an honest handshake

The six messages, one at a time.  The receiver of message number `n` is the
responder for an even `n` and the initiator for an odd one, and `HonestStage n`
describes both sessions, and what each side has sent, when `n` messages have
been taken.

At each stage the session gate expects the next message.  Of the messages that
were taken before it lets only one through: HELLO, as long as the responder
waits for PQ_KEM_INIT.
-/

namespace PqComm

open Lib

/-- The receiver of a message of the handshake, by its number. -/
def receiverOf (message : Nat) : Party :=
  if message % 2 = 0 then .responder else .initiator

/-- Key generation and encapsulation succeed, and decapsulation returns the
encapsulated secret. -/
def KemWorks (C : CryptoSuite) : Prop :=
  ∀ keyCoins, ∃ publicKey secretKey,
    C.kemKeypair keyCoins = some (publicKey, secretKey) ∧
      ∀ coins, ∃ ciphertext shared,
        C.kemEncaps publicKey coins = some (ciphertext, shared) ∧
          C.kemDecaps secretKey ciphertext = some shared

/-- The packet is a handshake message with payload `msg`. -/
def Carries (p : PacketBuf) (msg : Bytes) : Prop :=
  ∃ v, packetParse p = some v ∧ v.payloadBytes = msg ∧
    v.channelId = chControl ∧ v.encrypted = false

/-- What a runner sends are the messages `outs`, one at the most. -/
def Answers (r : HsOut) (outs : List Bytes) : Prop :=
  List.Forall₂ Carries r.out.toList outs

theorem Sends.answers
    {r : HsOut} {msg : Bytes} (sends : Sends r msg)
    (fits : msg.length ≤ 1476) : Answers r [msg] := by
  obtain ⟨buf, id, seq, out⟩ := sends
  rw [Answers, out]
  refine List.Forall₂.cons ⟨_,
    packetParse_buildPacket buf true 0 id chControl seq msg (by decide) fits,
    ?_, rfl, rfl⟩ List.Forall₂.nil
  exact builtView_payloadBytes ..

/-- Both sessions after the messages so far, and the messages that the
initiator and the responder have sent. -/
inductive HonestStage (C : CryptoSuite) (iniKey respKey : Bytes) :
    Nat → Session → Session → List Bytes → List Bytes → Prop where
  | hello {ini resp : Session} {iniId respId : UInt64}
      {iniCalls respCalls : List CryptoCall}
      (iniStands :
        Standing C ini iniKey .initiator .handshakeStart (zeros 32) iniId
          [[ctrlHello]] iniCalls)
      (respStands :
        Standing C resp respKey .responder .handshakeStart (zeros 32) respId
          [] respCalls) :
      HonestStage C iniKey respKey 0 ini resp [[ctrlHello]] []
  | accept {ini resp : Session} {iniId id : UInt64}
      {iniCalls respCalls : List CryptoCall}
      (iniStands :
        Standing C ini iniKey .initiator .handshakeStart (zeros 32) iniId
          [[ctrlHello]] iniCalls)
      (respStands :
        Standing C resp respKey .responder .handshakeStart (zeros 32) id
          [[ctrlHello], acceptPayload id] respCalls) :
      HonestStage C iniKey respKey 1 ini resp [[ctrlHello]] [acceptPayload id]
  | kemInit {ini resp : Session} {id : UInt64}
      {iniCalls respCalls : List CryptoCall} {keyCoins publicKey : Bytes}
      (pair :
        C.kemKeypair keyCoins = some (publicKey, ini.hs.kemSecretKey))
      (iniStands :
        Standing C ini iniKey .initiator .pqKemInitSent (zeros 32) id
          [[ctrlHello], acceptPayload id, ctrlPqKemInit :: publicKey]
          iniCalls)
      (respStands :
        Standing C resp respKey .responder .handshakeStart (zeros 32) id
          [[ctrlHello], acceptPayload id] respCalls) :
      HonestStage C iniKey respKey 2 ini resp
        [[ctrlHello], ctrlPqKemInit :: publicKey] [acceptPayload id]
  | kemResponse {ini resp : Session} {id : UInt64}
      {iniCalls respCalls : List CryptoCall}
      {publicKey ciphertext shared : Bytes}
      (size : ciphertext.length = kemCtSize)
      (opens : C.kemDecaps ini.hs.kemSecretKey ciphertext = some shared)
      (iniStands :
        Standing C ini iniKey .initiator .pqKemInitSent (zeros 32) id
          [[ctrlHello], acceptPayload id, ctrlPqKemInit :: publicKey]
          iniCalls)
      (respStands :
        Standing C resp respKey .responder .pqKemResponseSent shared id
          (kemMessages id publicKey ciphertext) respCalls) :
      HonestStage C iniKey respKey 3 ini resp
        [[ctrlHello], ctrlPqKemInit :: publicKey]
        [acceptPayload id, ctrlPqKemResponse :: ciphertext]
  | identity {ini resp : Session} {id : UInt64}
      {iniCalls respCalls : List CryptoCall}
      {publicKey ciphertext shared : Bytes}
      (iniStands :
        Standing C ini iniKey .initiator .identityProofSent shared id
          (kemMessages id publicKey ciphertext ++
            [identityAfter C shared iniKey
              (kemMessages id publicKey ciphertext)]) iniCalls)
      (respStands :
        Standing C resp respKey .responder .pqKemResponseSent shared id
          (kemMessages id publicKey ciphertext) respCalls) :
      HonestStage C iniKey respKey 4 ini resp
        [[ctrlHello], ctrlPqKemInit :: publicKey,
          identityAfter C shared iniKey (kemMessages id publicKey ciphertext)]
        [acceptPayload id, ctrlPqKemResponse :: ciphertext]
  | lock {ini resp : Session} {id : UInt64}
      {iniCalls respCalls : List CryptoCall}
      {publicKey ciphertext shared : Bytes}
      (iniStands :
        Standing C ini iniKey .initiator .identityProofSent shared id
          (kemMessages id publicKey ciphertext ++
            [identityAfter C shared iniKey
              (kemMessages id publicKey ciphertext)]) iniCalls)
      (respEnd :
        HonestEnd C resp respKey iniKey .responder shared id
          (kemMessages id publicKey ciphertext ++
            [identityAfter C shared iniKey
              (kemMessages id publicKey ciphertext)] ++
            [lockedAfter C shared iniKey respKey
              (kemMessages id publicKey ciphertext)]) respCalls) :
      HonestStage C iniKey respKey 5 ini resp
        [[ctrlHello], ctrlPqKemInit :: publicKey,
          identityAfter C shared iniKey (kemMessages id publicKey ciphertext)]
        [acceptPayload id, ctrlPqKemResponse :: ciphertext,
          lockedAfter C shared iniKey respKey
            (kemMessages id publicKey ciphertext)]
  | finished {ini resp : Session} {id : UInt64}
      {iniCalls respCalls : List CryptoCall} {secret : Bytes}
      {absorbed : List Bytes} {hello init identity accept response lock : Bytes}
      (iniEnd :
        HonestEnd C ini iniKey respKey .initiator secret id absorbed iniCalls)
      (respEnd :
        HonestEnd C resp respKey iniKey .responder secret id absorbed
          respCalls) :
      HonestStage C iniKey respKey 6 ini resp [hello, init, identity]
        [accept, response, lock]

section

variable {C : CryptoSuite} {iniKey respKey : Bytes} {n : Nat}
  {ini resp : Session} {iniMsgs respMsgs : List Bytes}

theorem honestStage_start (setup : HsSetup) :
    HonestStage C setup.iniKey.bytes setup.respKey.bytes 0 (setup.start C).ini
      (setup.start C).resp [[ctrlHello]] [] :=
  HonestStage.hello (standing_start_initiator C setup)
    (standing_start_responder C setup)

theorem HonestStage.agreed
    (stage : HonestStage C iniKey respKey 6 ini resp iniMsgs respMsgs) :
    Agreed ini resp := by
  cases stage with
  | finished iniEnd respEnd =>
      exact iniEnd.agreed C respEnd

/-- The message that the responder takes next has been sent. -/
theorem HonestStage.sent_to_responder
    (stage : HonestStage C iniKey respKey n ini resp iniMsgs respMsgs)
    (turn : receiverOf n = .responder) (unfinished : n < 6) :
    ∃ msg, iniMsgs[n / 2]? = some msg := by
  cases stage with
  | hello => exact ⟨_, rfl⟩
  | kemInit => exact ⟨_, rfl⟩
  | identity => exact ⟨_, rfl⟩
  | finished => exact absurd unfinished (by decide)
  | accept => cases turn
  | kemResponse => cases turn
  | lock => cases turn

theorem HonestStage.sent_to_initiator
    (stage : HonestStage C iniKey respKey n ini resp iniMsgs respMsgs)
    (turn : receiverOf n = .initiator) :
    ∃ msg, respMsgs[n / 2]? = some msg := by
  cases stage with
  | accept => exact ⟨_, rfl⟩
  | kemResponse => exact ⟨_, rfl⟩
  | lock => exact ⟨_, rfl⟩
  | hello => cases turn
  | kemInit => cases turn
  | identity => cases turn
  | finished => cases turn

theorem HonestStage.le
    (stage : HonestStage C iniKey respKey n ini resp iniMsgs respMsgs) :
    n ≤ 6 := by
  cases stage <;> decide

/-! ## The next message -/

/-- What the gate expects depends on the role and the state. -/
theorem Standing.expected_eq
    {s : Session} {key secret : Bytes} {role : HandshakeRole}
    {state : SessionState} {id : UInt64} {absorbed : List Bytes}
    {calls : List CryptoCall}
    (stands : Standing C s key role state secret id absorbed calls)
    (opcode : UInt8) :
    controlExpected s opcode =
      controlExpected { role := role, state := state } opcode := by
  simp only [controlExpected, stands.role, stands.state]

/-- The responder expects the next message, answers it and moves on. -/
theorem HonestStage.responder_takes
    (inverts : AeadInverts C) (kem : KemWorks C) (size : iniKey.length = 32)
    (respSize : respKey.length = 32)
    (stage : HonestStage C iniKey respKey n ini resp iniMsgs respMsgs)
    (turn : receiverOf n = .responder) {msg : Bytes}
    (next : iniMsgs[n / 2]? = some msg) {env : HsEnv}
    (pool : env.buf.isSome = true) (seq : UInt32) :
    controlExpected resp (opcodeOf msg) = true ∧
      ∃ outs,
        Answers (feed C (responderReply C) env resp msg seq) outs ∧
          HonestStage C iniKey respKey (n + 1) ini
            (feed C (responderReply C) env resp msg seq).sess iniMsgs
            (respMsgs ++ outs) := by
  obtain ⟨buf, pool⟩ := Option.isSome_iff_exists.mp pool
  cases stage with
  | hello iniStands respStands =>
      cases next
      obtain ⟨sends, stands⟩ := respStands.feed_hello pool seq
      refine ⟨?_, _, sends.answers ?_, HonestStage.accept iniStands stands⟩
      · rw [respStands.expected_eq]
        rfl
      · simp [acceptPayload]
  | kemInit pair iniStands respStands =>
      cases next
      rename_i id iniCalls respCalls keyCoins publicKey
      obtain ⟨publicKey', secretKey, made, encapsulates⟩ := kem keyCoins
      rw [pair] at made
      cases made
      obtain ⟨ciphertext, shared, encaps, opens⟩ := encapsulates env.coins
      have keySize := (C.length_kemKeypair _ _ _ pair).1
      have cipherSize := (C.length_kemEncaps _ _ _ _ encaps).1
      obtain ⟨sends, stands⟩ :=
        respStands.feed_kemInit pool keySize encaps seq
      refine ⟨?_, _, sends.answers ?_,
        HonestStage.kemResponse cipherSize opens iniStands stands⟩
      · rw [respStands.expected_eq]
        rfl
      · simp [cipherSize]
  | identity iniStands respStands =>
      cases next
      obtain ⟨sends, peer, flag, complete, material, stands⟩ :=
        respStands.feed_identity inverts size rfl
          (carriesProof_proofAfter ctrlIdentityProof _ _ size _) pool seq
      refine ⟨?_, _, sends.answers ?_,
        HonestStage.lock iniStands ⟨stands, peer, flag, complete, material⟩⟩
      · rw [respStands.expected_eq]
        rfl
      · exact length_proofAfter_le _ _ _ ⟨respKey, respSize⟩ _
  | finished => cases next
  | accept => cases turn
  | kemResponse => cases turn
  | lock => cases turn

/-- The initiator expects the next message, answers all but the last and moves
on. -/
theorem HonestStage.initiator_takes
    (inverts : AeadInverts C) (kem : KemWorks C) (size : respKey.length = 32)
    (iniSize : iniKey.length = 32)
    (stage : HonestStage C iniKey respKey n ini resp iniMsgs respMsgs)
    (turn : receiverOf n = .initiator) {msg : Bytes}
    (next : respMsgs[n / 2]? = some msg) {env : HsEnv}
    (pool : env.buf.isSome = true) (seq : UInt32) :
    controlExpected ini (opcodeOf msg) = true ∧
      ∃ outs,
        Answers (feed C (initiatorReply C) env ini msg seq) outs ∧
          HonestStage C iniKey respKey (n + 1)
            (feed C (initiatorReply C) env ini msg seq).sess resp
            (iniMsgs ++ outs) respMsgs := by
  obtain ⟨buf, pool⟩ := Option.isSome_iff_exists.mp pool
  cases stage with
  | accept iniStands respStands =>
      cases next
      obtain ⟨publicKey, secretKey, made, -⟩ := kem env.coins
      have keySize := (C.length_kemKeypair _ _ _ made).1
      obtain ⟨sends, held, stands⟩ :=
        iniStands.feed_accept pool made _ seq
      rw [← held] at made
      refine ⟨?_, _, sends.answers ?_,
        HonestStage.kemInit made stands respStands⟩
      · rw [iniStands.expected_eq]
        rfl
      · simp [keySize]
  | kemResponse cipherSize opens iniStands respStands =>
      cases next
      obtain ⟨sends, stands⟩ :=
        iniStands.feed_kemResponse pool cipherSize opens seq
      refine ⟨?_, _, sends.answers ?_,
        HonestStage.identity stands respStands⟩
      · rw [iniStands.expected_eq]
        rfl
      · exact length_proofAfter_le _ _ _ ⟨iniKey, iniSize⟩ _
  | lock iniStands respEnd =>
      cases next
      obtain ⟨result, peer, flag, complete, material, stands⟩ :=
        iniStands.process_locked inverts size rfl
          (carriesProof_proofAfter ctrlSessionLocked _ _ size _)
      refine ⟨?_, [], ?_, ?_⟩
      · rw [iniStands.expected_eq]
        rfl
      · rw [Answers, feed]
        simp only [lockedAfter, result]
        exact List.Forall₂.nil
      · rw [lockedAfter, feed_complete result]
        exact HonestStage.finished
          ⟨stands, peer, flag, complete, material⟩ respEnd
  | hello => cases turn
  | kemInit => cases turn
  | identity => cases turn
  | finished => cases turn

/-! ## Messages that were taken before -/

/-- The gate of an unlocked responder refuses them all but a HELLO before
PQ_KEM_INIT. -/
theorem HonestStage.responder_refuses
    (stage : HonestStage C iniKey respKey n ini resp iniMsgs respMsgs)
    {m : Nat} (taken : m < n) (turn : receiverOf m = .responder) {msg : Bytes}
    (sent : iniMsgs[m / 2]? = some msg) (unlocked : resp.state ≠ .locked)
    (past : m = 0 → resp.state ≠ .handshakeStart) :
    controlExpected resp (opcodeOf msg) = false := by
  cases stage with
  | hello => exact absurd taken (by omega)
  | accept iniStands respStands =>
      obtain rfl : m = 0 := by omega
      exact absurd respStands.state (past rfl)
  | kemInit pair iniStands respStands =>
      interval_cases m
      · exact absurd respStands.state (past rfl)
      · cases turn
  | kemResponse cipherSize opens iniStands respStands =>
      interval_cases m
      · cases sent
        rw [respStands.expected_eq]
        rfl
      · cases turn
      · cases sent
        rw [respStands.expected_eq]
        rfl
  | identity iniStands respStands =>
      interval_cases m
      · cases sent
        rw [respStands.expected_eq]
        rfl
      · cases turn
      · cases sent
        rw [respStands.expected_eq]
        rfl
      · cases turn
  | lock iniStands respEnd =>
      exact absurd respEnd.stands.state unlocked
  | finished iniEnd respEnd =>
      exact absurd respEnd.stands.state unlocked

/-- The gate of an unlocked initiator refuses them all. -/
theorem HonestStage.initiator_refuses
    (stage : HonestStage C iniKey respKey n ini resp iniMsgs respMsgs)
    {m : Nat} (taken : m < n) (turn : receiverOf m = .initiator) {msg : Bytes}
    (sent : respMsgs[m / 2]? = some msg) (unlocked : ini.state ≠ .locked) :
    controlExpected ini (opcodeOf msg) = false := by
  cases stage with
  | hello => exact absurd taken (by omega)
  | accept =>
      obtain rfl : m = 0 := by omega
      cases turn
  | kemInit pair iniStands =>
      interval_cases m
      · cases turn
      · cases sent
        rw [iniStands.expected_eq]
        rfl
  | kemResponse cipherSize opens iniStands =>
      interval_cases m
      · cases turn
      · cases sent
        rw [iniStands.expected_eq]
        rfl
      · cases turn
  | identity iniStands =>
      interval_cases m
      · cases turn
      · cases sent
        rw [iniStands.expected_eq]
        rfl
      · cases turn
      · cases sent
        rw [iniStands.expected_eq]
        rfl
  | lock iniStands =>
      interval_cases m
      · cases turn
      · cases sent
        rw [iniStands.expected_eq]
        rfl
      · cases turn
      · cases sent
        rw [iniStands.expected_eq]
        rfl
      · cases turn
  | finished iniEnd =>
      exact absurd iniEnd.stands.state unlocked

end

end PqComm
