import PqComm.Handshake.Steps
import PqComm.Lib.HashChain

/-!
# Runs of the handshake

An initiator and a responder, and a network that delivers packets to the two
runners in any order.  `Delivery` names an arbitrary packet; a run is genuine
when every delivered packet is one that a side has emitted before.

The invariants say how the log of a side, the messages it has absorbed and the
packets it has emitted hang together.  They hold in every run, whatever is
delivered.
-/

namespace PqComm

open Lib

/-! ## The two parties and the network -/

inductive Party where
  | initiator
  | responder
  deriving DecidableEq, Repr

structure HsWorld where
  ini : Session
  resp : Session
  iniSeq : UInt32
  respSeq : UInt32
  iniSent : List PacketBuf
  respSent : List PacketBuf

/-- One delivery: who receives which packet, and what the call takes from
outside. -/
structure Delivery where
  party : Party
  packet : PacketBuf
  env : HsEnv

section

variable (C : CryptoSuite)

/-- The runner of the addressed party processes the packet. -/
def HsWorld.step (w : HsWorld) (d : Delivery) : HsWorld :=
  match d.party with
  | .initiator =>
      let r := handshakeRunAsInitiator C d.env w.ini d.packet w.iniSeq
      { w with
        ini := r.sess
        iniSeq := r.seq
        iniSent := w.iniSent ++ r.out.toList }
  | .responder =>
      let r := handshakeRunAsResponder C d.env w.resp d.packet w.respSeq
      { w with
        resp := r.sess
        respSeq := r.seq
        respSent := w.respSent ++ r.out.toList }

def HsWorld.run (w : HsWorld) (ds : List Delivery) : HsWorld :=
  ds.foldl (HsWorld.step C) w

/-- What the two sides start from: sessions in any state, their identity keys,
the random identifier, the buffer of HELLO and the counters. -/
structure HsSetup where
  iniSession : Session
  respSession : Session
  iniKey : IdentityKey
  respKey : IdentityKey
  sessionId : UInt64
  helloBuf : PacketBuf
  iniSeq : UInt32
  respSeq : UInt32

/-- After `handshake_init_initiator`, `handshake_init_responder` and the HELLO
of the initiator.  The histories start here. -/
def HsSetup.start (setup : HsSetup) : HsWorld :=
  let ini :=
    { handshakeInitInitiator setup.iniSession setup.iniKey
        setup.sessionId with history := {} }
  let resp :=
    { handshakeInitResponder setup.respSession setup.respKey with
      history := {} }
  let hello := handshakeBuildHello C ini (some setup.helloBuf) setup.iniSeq
  { ini := hello.sess
    resp := resp
    iniSeq := hello.seq
    respSeq := setup.respSeq
    iniSent := hello.out.toList
    respSent := [] }

/-- Every delivered packet is one that a side has emitted before. -/
def HsWorld.Genuine (w : HsWorld) : List Delivery → Prop
  | [] => True
  | d :: rest =>
      d.packet ∈ w.iniSent ++ w.respSent ∧
        HsWorld.Genuine (w.step C d) rest

end

/-- The payloads of a list of packets, as their receivers parse them. -/
def payloadsOf (packets : List PacketBuf) : List Bytes :=
  packets.filterMap fun p => (packetParse p).map PacketView.payloadBytes

@[simp]
theorem payloadsOf_append (left right : List PacketBuf) :
    payloadsOf (left ++ right) = payloadsOf left ++ payloadsOf right := by
  simp [payloadsOf]

theorem payloadsOf_buildPacket
    (buf : PacketBuf) (sessionId : UInt64) (seq : UInt32) {payload : Bytes}
    (fits : payload.length ≤ 1476) :
    payloadsOf
        [buildPacket buf true 0 sessionId chControl seq payload] =
      [payload] := by
  have parsed := packetParse_buildPacket buf true 0 sessionId chControl seq
    payload (by decide) fits
  simp [payloadsOf, parsed]

/-! ## The log of a session -/

def CryptoCall.isSeal : CryptoCall → Bool
  | .seal _ _ _ _ _ => true
  | _ => false

/-- The encryptions a session has made. -/
def Session.seals (s : Session) : List CryptoCall :=
  s.history.calls.filter CryptoCall.isSeal

theorem mem_seals {s : Session} {key nonce plain cipher tag : Bytes} :
    .seal key nonce plain cipher tag ∈ s.seals ↔
      .seal key nonce plain cipher tag ∈ s.history.calls := by
  simp [Session.seals, CryptoCall.isSeal]

section

variable (C : CryptoSuite)

/-- The value of the transcript after `msgs`. -/
def transcriptOf (msgs : List Bytes) : Bytes :=
  hashChain C.sha256 (zeros 32) msgs

theorem length_transcriptOf (msgs : List Bytes) :
    (transcriptOf C msgs).length = 32 :=
  length_hashChain C.length_sha256 (length_zeros 32) msgs

/-- The transcript of a session is the chain over what it absorbed, every hash
of the chain is in the log, and the secrets have their sizes. -/
structure Chained (s : Session) : Prop where
  secret : s.hs.kemSharedSecret.length = 32
  identity : s.hs.ourIdentityKey.length = 32
  transcript : s.hs.transcriptHash = transcriptOf C s.history.absorbed
  logged :
    ∀ input ∈ chainInputs C.sha256 (zeros 32) s.history.absorbed,
      .hash input ∈ s.history.calls

theorem Chained.updateTranscript
    {s : Session} (chained : Chained C s) (msg : Bytes) :
    Chained C (updateTranscript C s msg) where
  secret := chained.secret
  identity := chained.identity
  transcript := by
    simp only [PqComm.updateTranscript, transcriptOf, hashChain_concat]
    rw [chained.transcript]
    rfl
  logged := by
    intro input member
    rcases (mem_chainInputs_concat _ _).mp member with old | rfl
    · exact List.mem_append_left _ (chained.logged input old)
    · refine List.mem_append_right _ ?_
      rw [chained.transcript]
      exact List.mem_singleton.mpr rfl

theorem Chained.reset {s : Session} : Chained C (sessionReset s) where
  secret := length_zeros 32
  identity := length_zeros 32
  transcript := rfl
  logged := by
    intro input member
    cases member

theorem Chained.proofChecked
    {s s' : Session} {label pre msg : Bytes} (chained : Chained C s)
    (checked : ProofChecked C s label pre msg s') : Chained C s' where
  secret := by
    rw [checked.secret]
    exact chained.secret
  identity := by
    rw [checked.identity]
    exact chained.identity
  transcript := by
    rw [checked.transcript, checked.absorbed]
    exact chained.transcript
  logged := by
    intro input member
    rw [checked.absorbed] at member
    rw [checked.calls]
    exact List.mem_append_left _ (chained.logged input member)

@[simp]
theorem seals_updateTranscript (s : Session) (msg : Bytes) :
    (updateTranscript C s msg).seals = s.seals := by
  simp [Session.seals, updateTranscript, CryptoCall.isSeal]

@[simp]
theorem seals_reset (s : Session) : (sessionReset s).seals = s.seals :=
  rfl

/-- `s'` has the log of `s`, with no encryption added. -/
def LogsWithoutSeal (s s' : Session) : Prop :=
  ∃ extra,
    s'.history.calls = s.history.calls ++ extra ∧
      extra.filter CryptoCall.isSeal = []

theorem LogsWithoutSeal.seals
    {s s' : Session} (logs : LogsWithoutSeal s s') : s'.seals = s.seals := by
  obtain ⟨extra, calls, none⟩ := logs
  simp [Session.seals, calls, none]

theorem LogsWithoutSeal.keeps
    {s s' : Session} (logs : LogsWithoutSeal s s') {call : CryptoCall}
    (member : call ∈ s.history.calls) : call ∈ s'.history.calls := by
  obtain ⟨extra, calls, _⟩ := logs
  rw [calls]
  exact List.mem_append_left _ member

theorem LogsWithoutSeal.of_calls
    {s s' : Session} (same : s'.history.calls = s.history.calls) :
    LogsWithoutSeal s s' :=
  ⟨[], by simp [same], rfl⟩

theorem LogsWithoutSeal.trans
    {s t u : Session} (first : LogsWithoutSeal s t)
    (second : LogsWithoutSeal t u) : LogsWithoutSeal s u := by
  obtain ⟨left, leftCalls, leftNone⟩ := first
  obtain ⟨right, rightCalls, rightNone⟩ := second
  refine ⟨left ++ right, ?_, ?_⟩
  · rw [rightCalls, leftCalls, List.append_assoc]
  · rw [List.filter_append, leftNone, rightNone]
    rfl

theorem logsWithoutSeal_updateTranscript (s : Session) (msg : Bytes) :
    LogsWithoutSeal s (updateTranscript C s msg) :=
  ⟨[.hash (s.hs.transcriptHash ++ msg)], rfl, rfl⟩

theorem logsWithoutSeal_verifyProof
    {s t : Session} (logs : LogsWithoutSeal s t) (label pre msg : Bytes) :
    LogsWithoutSeal s (verifyProof C t label pre msg).1 := by
  exact logs.trans ⟨_, (verifyProof_checked C t label pre msg).calls, rfl⟩

theorem logsWithoutSeal_lockSession
    {s t u : Session} (logs : LogsWithoutSeal s t)
    (derived : lockSession C t = some u) : LogsWithoutSeal s u := by
  obtain ⟨material, _, rfl⟩ := Option.map_eq_some_iff.mp derived
  exact logs

theorem logsWithoutSeal_processOpcode
    {s t : Session} (logs : LogsWithoutSeal s t) (pre : Bytes)
    (opcode : UInt8) (msg : Bytes) :
    LogsWithoutSeal s (processOpcode C t pre opcode msg).1 := by
  rcases processOpcode_session C t pre opcode msg with
    ⟨history, _⟩ | ⟨label, checked | derived⟩
  · exact logs.trans (LogsWithoutSeal.of_calls (by rw [history]))
  · rw [checked]
    exact logsWithoutSeal_verifyProof C logs label pre msg
  · exact logsWithoutSeal_lockSession C
      (logsWithoutSeal_verifyProof C logs label pre msg) derived

/-- Processing a message never seals anything. -/
theorem logsWithoutSeal_processPayload (s : Session) (msg : Bytes) :
    LogsWithoutSeal s (processPayload C s msg).1 := by
  unfold processPayload
  split
  · exact LogsWithoutSeal.of_calls rfl
  · dsimp only
    split
    · exact LogsWithoutSeal.of_calls rfl
    · split
      · exact LogsWithoutSeal.of_calls rfl
      · exact logsWithoutSeal_processOpcode C
          (logsWithoutSeal_updateTranscript C s msg) _ _ _

end

end PqComm
