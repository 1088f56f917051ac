import PqComm.Engine.Handing
import PqComm.Handshake.Stages

/-!
# Duplicated handshake packets

Two engines exchange the six messages of the handshake.  The network delivers
each message for the first time in the order of the protocol, and any message
that was delivered any number of times again.

A message that comes again is stopped by `session_check` in most states of its
receiver, and then changes nothing.  It is not stopped when the receiver is
locked, and a HELLO is not stopped before PQ_KEM_INIT: the first resets the
session, the second enters the transcript of the responder twice.
-/

namespace PqComm

open Lib

/-- The handshake packets that the engine has sent. -/
def Engine.handshakesSent (e : Engine) : List PacketBuf :=
  (e.enqueued.filter fun item => item.origin = .handshake).map TxItem.pkt

/-- The two engines, and the messages that have been delivered, each as it
arrived the first time. -/
structure DuplicateWorld where
  ini : Engine
  resp : Engine
  delivered : List PacketBuf := []

inductive DuplicateAct where
  | first (source : Bytes) (sourceLen : Nat) (env : PollEnv)
  | again (message : Nat) (env : PollEnv)

def DuplicateAct.isFirst : DuplicateAct → Bool
  | .first _ _ _ => true
  | .again _ _ => false

def DuplicateWorld.engine (w : DuplicateWorld) : Party → Engine
  | .initiator => w.ini
  | .responder => w.resp

/-- The next message of the protocol, if it has been sent. -/
def DuplicateWorld.next (w : DuplicateWorld) : Option PacketBuf :=
  (w.engine (receiverOf w.delivered.length).other).handshakesSent[
    w.delivered.length / 2]?

section

variable (C : CryptoSuite)

def DuplicateWorld.receive (w : DuplicateWorld) (party : Party)
    (env : PollEnv) (p : PacketBuf) : DuplicateWorld :=
  match party with
  | .initiator => { w with ini := w.ini.inbound C env p }
  | .responder => { w with resp := w.resp.inbound C env p }

def DuplicateWorld.step (w : DuplicateWorld) : DuplicateAct → DuplicateWorld
  | .first source sourceLen env =>
      match w.next with
      | none => w
      | some p =>
          let arrived := p.setAddr source sourceLen
          { w.receive C (receiverOf w.delivered.length) env arrived with
            delivered := w.delivered ++ [arrived] }
  | .again message env =>
      match w.delivered[message]? with
      | none => w
      | some p => w.receive C (receiverOf message) env p

def DuplicateWorld.run (w : DuplicateWorld) (acts : List DuplicateAct) :
    DuplicateWorld :=
  acts.foldl (DuplicateWorld.step C) w

/-- The engines hold the sessions of a handshake that has begun, and the
initiator has sent its HELLO. -/
structure Begun (setup : HsSetup) (w : DuplicateWorld) : Prop where
  ini : w.ini.current = some (setup.start C).ini
  resp : w.resp.current = some (setup.start C).resp
  iniRole : w.ini.roleInitiator = true
  respRole : w.resp.roleInitiator = false
  hello :
    ∃ addr,
      w.ini.handshakesSent = (setup.start C).iniSent.map (·.sendTo addr)
  silent : w.resp.handshakesSent = []
  fresh : w.delivered = []

end

/-- A message meets no obstacle when it comes first: the filters, the pool and
the transmit ring have room for it.  When it comes again its receiver is not
locked, and is past HELLO if it is a HELLO. -/
def DuplicateWorld.Tolerated (w : DuplicateWorld) : DuplicateAct → Prop
  | .first source sourceLen env =>
      let e := w.engine (receiverOf w.delivered.length)
      ∀ p, w.next = some p →
        PassesFilters env.inbound e.filters (p.setAddr source sourceLen) ∧
          env.packet.hs.buf.isSome = true ∧
          ringFull (e.tx 0 .control) = false
  | .again message env =>
      let e := w.engine (receiverOf message)
      ∀ p s, w.delivered[message]? = some p → e.current = some s →
        PassesFilters env.inbound e.filters p →
          s.state ≠ .locked ∧ (message = 0 → s.state ≠ .handshakeStart)

def ToleratedRun (C : CryptoSuite) :
    DuplicateWorld → List DuplicateAct → Prop
  | _, [] => True
  | w, act :: rest => w.Tolerated act ∧ ToleratedRun C (w.step C act) rest

instance (w : DuplicateWorld) (act : DuplicateAct) :
    Decidable (w.Tolerated act) :=
  match act with
  | .first source sourceLen env =>
      decidable_of_iff
        (w.next.all fun p =>
          decide
            (PassesFilters env.inbound
                (w.engine (receiverOf w.delivered.length)).filters
                (p.setAddr source sourceLen) ∧
              env.packet.hs.buf.isSome = true ∧
              ringFull ((w.engine (receiverOf w.delivered.length)).tx 0
                .control) = false)) <| by
        simp [DuplicateWorld.Tolerated, Option.all_eq_true]
  | .again message env =>
      decidable_of_iff
        ((w.delivered[message]?).all fun p =>
          (w.engine (receiverOf message)).current.all fun s =>
            decide
              (PassesFilters env.inbound
                  (w.engine (receiverOf message)).filters p →
                s.state ≠ .locked ∧
                  (message = 0 → s.state ≠ .handshakeStart))) <| by
        simp only [DuplicateWorld.Tolerated, Option.all_eq_true,
          decide_eq_true_eq]
        constructor
        · intro all p s delivered current
          exact all p delivered s current
        · intro all p delivered s current
          exact all p s delivered current

def toleratedRunDecidable (C : CryptoSuite) :
    ∀ (w : DuplicateWorld) (acts : List DuplicateAct),
      Decidable (ToleratedRun C w acts)
  | _, [] => isTrue trivial
  | w, act :: rest =>
      have := toleratedRunDecidable C (w.step C act) rest
      inferInstanceAs
        (Decidable (w.Tolerated act ∧ ToleratedRun C (w.step C act) rest))

instance (C : CryptoSuite) (w : DuplicateWorld) (acts : List DuplicateAct) :
    Decidable (ToleratedRun C w acts) :=
  toleratedRunDecidable C w acts

/-! ## A handshake packet in the engine -/

theorem carries_of_sameWire
    {p q : PacketBuf} {msg : Bytes} (same : SameWire q p)
    (carries : Carries p msg) : Carries q msg := by
  obtain ⟨v, parsed, payload, channel, clear⟩ := carries
  refine ⟨{ v with buf := q }, ?_, ?_, channel, clear⟩
  · rw [same.packetParse, parsed]
    rfl
  · rw [← payload]
    simp only [PacketView.payloadBytes, same.data,
      (parsedAs_of_packetParse parsed).buf]

section

variable {C : CryptoSuite} {e : Engine} {i : Nat} {p : PacketBuf}
  {msg : Bytes}

@[simp]
theorem handshakesSent_commit
    (e : Engine) (i : Nat) (s : Session) (seq : UInt32)
    (out : Option PacketBuf)
    (room : ringFull (e.tx 0 .control) = false) :
    (e.commit .handshake i s seq out).handshakesSent =
      e.handshakesSent ++ out.toList := by
  cases out with
  | none =>
      simp [Engine.handshakesSent, Engine.commit, Engine.setSession]
  | some p =>
      simp [Engine.handshakesSent, Engine.commit, Engine.setSession,
        Engine.enqueue, ringPush, room, TxItem.message]

/-- The handshake end of the handlers. -/
theorem handleHandshake_effect
    (initiator : Bool) (env : HandlerEnv)
    (room : ringFull (e.tx 0 .control) = false) {v : PacketView}
    (parsed : packetParse p = some v) :
    let reply := if initiator then initiatorReply C else responderReply C
    let r := feed C reply env.hs (e.pool i) v.payloadBytes e.seqCounter
    (e.handleHandshake C initiator env i p).pool i = r.sess ∧
      (e.handleHandshake C initiator env i p).handshakesSent =
        e.handshakesSent ++ (r.out.map (·.sendTo e.peerAddr)).toList := by
  intro reply r
  have ran :
      (if initiator then
          handshakeRunAsInitiator C env.hs (e.pool i) p e.seqCounter
        else
          handshakeRunAsResponder C env.hs (e.pool i) p e.seqCounter) = r := by
    cases initiator with
    | true =>
        simp only [if_true, handshakeRunAsInitiator, handshakeRun_eq, parsed]
        rfl
    | false =>
        simp only [Bool.false_eq_true, if_false, handshakeRunAsResponder,
          handshakeRun_eq, parsed]
        rfl
  unfold Engine.handleHandshake
  rw [ran]
  have pool : ((e.commit .handshake i r.sess r.seq
      (r.out.map (·.sendTo e.peerAddr))).pool i) = r.sess := by
    rw [Engine.commit_pool, Function.update_self]
  have sent := handshakesSent_commit e i r.sess r.seq
    (r.out.map (·.sendTo e.peerAddr)) room
  dsimp only
  split
  · exact ⟨pool, sent⟩
  · exact ⟨pool, sent⟩

theorem afterGates_eq
    (session : e.session = some i) {pre : PreCrypto}
    (kept : pre.sess = some (e.pool i)) :
    e.afterGates pre = { e with filters := pre.filters } := by
  simp [Engine.afterGates, session, kept, Engine.setSession]

/-- The gate decides on a control packet of an unlocked session by its
opcode. -/
theorem sessionCheck_unlocked
    {s : Session} {v : PacketView} (unlocked : s.state ≠ .locked)
    (control : v.channelId = chControl) (nonempty : 1 ≤ v.payloadBytes.length) :
    sessionCheck s v =
      if controlExpected s (opcodeOf v.payloadBytes) then some v else none := by
  have opcode : opcodeOf v.payloadBytes = v.payloadAt 0 := by
    rw [PacketView.payloadBytes, length_memSlice] at nonempty
    rw [opcodeOf, PacketView.payloadBytes, getD_memSlice (by omega)]
    rfl
  rw [sessionCheck, if_pos control, if_neg unlocked, opcode]

/-- The handlers pass a handshake packet of an unlocked session on. -/
theorem hand_handshake
    (session : e.session = some i) (unlocked : (e.pool i).state ≠ .locked)
    {v : PacketView} (parsed : packetParse p = some v)
    (control : v.channelId = chControl) (env : HandlerEnv)
    (source : HandSource) :
    e.hand C env p source =
      Engine.handleHandshake C
        { e with
          handed := e.handed ++ [Handed.mk p (some (i, e.pool i)) source] }
        e.roleInitiator env i p := by
  unfold Engine.hand engineControlHandler engineResponderHandler
  cases e.roleInitiator with
  | true =>
      simp [Engine.handle, session, parsed, control, Engine.handleControl,
        unlocked]
  | false =>
      simp [Engine.handle, session, parsed, control, Engine.handleControl,
        unlocked]

/-- A handshake packet that the gate expects reaches the handshake. -/
theorem inbound_expected
    (session : e.session = some i) (unlocked : (e.pool i).state ≠ .locked)
    (carries : Carries p msg) {env : PollEnv}
    (passes : PassesFilters env.inbound e.filters p)
    (expected : controlExpected (e.pool i) (opcodeOf msg) = true)
    (room : ringFull (e.tx 0 .control) = false) :
    let reply := if e.roleInitiator then initiatorReply C else responderReply C
    let r := feed C reply env.packet.hs (e.pool i) msg e.seqCounter
    (e.inbound C env p).session = some i ∧
      (e.inbound C env p).roleInitiator = e.roleInitiator ∧
      (e.inbound C env p).pool i = r.sess ∧
      (e.inbound C env p).handshakesSent =
        e.handshakesSent ++ (r.out.map (·.sendTo e.peerAddr)).toList := by
  obtain ⟨v, parsed, rfl, control, clear⟩ := carries
  have checked :=
    sessionCheck_unlocked unlocked control (passes.nonempty parsed)
  obtain ⟨raw, parsed', offensive, anti, static, kernel⟩ := passes
  rw [parsed] at parsed'
  cases parsed'
  rw [if_pos expected] at checked
  have resilient :
      resilienceCheck v (e.pool i) env.inbound.dataBuf env.inbound.parityBuf =
        (e.pool i, true) := by
    rw [resilienceCheck, if_pos unlocked]
  have gates :
      PassesGates env.inbound e.filters (e.pool i) p v (e.pool i) :=
    ⟨⟨v, parsed, offensive, anti, static, kernel, checked⟩, resilient⟩
  obtain ⟨view, kept⟩ := gates.preCrypto
  generalize filtered :
    (pipelineInboundPreCrypto env.inbound e.filters (some (e.pool i))
      p).filters = filters
  have reached :
      e.inbound C env p =
        { e with filters := filters }.hand C env.packet p .direct := by
    unfold Engine.inbound
    simp only [session, Option.map_some, view, afterGates_eq session kept,
      clear, Bool.false_eq_true, if_false, filtered]
  rw [reached, hand_handshake (e := { e with filters := filters }) session
    unlocked parsed control]
  generalize e.handed ++ _ = handed
  have frame := frame_handleHandshake C
    { e with filters := filters, handed := handed } e.roleInitiator
    env.packet i p
  refine ⟨frame.session.trans session, frame.roleInitiator, ?_⟩
  exact handleHandshake_effect
    (e := { e with filters := filters, handed := handed }) e.roleInitiator
    env.packet room parsed

theorem dropControl_keeps (e : Engine) (now : UInt64) (p : PacketBuf) :
    (e.dropControl now p).session = e.session ∧
      (e.dropControl now p).roleInitiator = e.roleInitiator ∧
      (e.dropControl now p).pool = e.pool ∧
      (e.dropControl now p).handshakesSent = e.handshakesSent := by
  unfold Engine.dropControl
  split
  · exact ⟨rfl, rfl, rfl, rfl⟩
  · split
    · dsimp only
      split
      · exact ⟨rfl, rfl, rfl, rfl⟩
      · exact ⟨rfl, rfl, rfl, rfl⟩
    · split
      · exact ⟨rfl, rfl, rfl, rfl⟩
      · split
        · exact ⟨rfl, rfl, rfl, rfl⟩
        · exact ⟨rfl, rfl, rfl, rfl⟩

/-- A handshake packet that is not expected changes nothing the handshake
looks at. -/
theorem inbound_refused
    (session : e.session = some i) (carries : Carries p msg) {env : PollEnv}
    (refused :
      PassesFilters env.inbound e.filters p →
        (e.pool i).state ≠ .locked ∧
          controlExpected (e.pool i) (opcodeOf msg) = false) :
    (e.inbound C env p).session = some i ∧
      (e.inbound C env p).roleInitiator = e.roleInitiator ∧
      (e.inbound C env p).pool i = e.pool i ∧
      (e.inbound C env p).handshakesSent = e.handshakesSent := by
  obtain ⟨v, parsed, rfl, control, clear⟩ := carries
  have stopped :
      ∀ raw, packetParse p = some raw →
        PassesFilters env.inbound e.filters p →
          sessionCheck (e.pool i) raw = none := by
    intro raw parsed' passes
    rw [parsed] at parsed'
    cases parsed'
    obtain ⟨unlocked, unexpected⟩ := refused passes
    rw [sessionCheck_unlocked unlocked control (passes.nonempty parsed),
      unexpected]
    rfl
  obtain ⟨noView, kept⟩ := preCrypto_refused stopped
  unfold Engine.inbound
  simp only [session, Option.map_some, noView, afterGates_eq session kept]
  split
  · obtain ⟨same, role, pool, sent⟩ := dropControl_keeps _ env.now p
    exact ⟨same, role, congrFun pool i, sent⟩
  · exact ⟨rfl, rfl, rfl, rfl⟩

/-! ## One side -/

/-- The engine of a side, its session and the messages it has sent. -/
structure Holds (e : Engine) (initiator : Bool) (s : Session)
    (msgs : List Bytes) : Prop where
  session : e.current = some s
  role : e.roleInitiator = initiator
  sent : List.Forall₂ Carries e.handshakesSent msgs

theorem controlExpected_unlocked
    {s : Session} {opcode : UInt8}
    (expected : controlExpected s opcode = true) : s.state ≠ .locked := by
  intro locked
  unfold controlExpected at expected
  rw [locked] at expected
  cases role : s.role <;> rw [role] at expected <;> cases expected

section

variable {initiator : Bool} {s : Session} {msgs : List Bytes}

theorem Holds.slot (holds : Holds e initiator s msgs) :
    ∃ i, e.session = some i ∧ e.pool i = s :=
  Option.map_eq_some_iff.mp holds.session

/-- A message that the gate expects goes to the handshake, and the answer is
sent. -/
theorem Holds.expected
    (holds : Holds e initiator s msgs) (carries : Carries p msg)
    {env : PollEnv} (passes : PassesFilters env.inbound e.filters p)
    (expected : controlExpected s (opcodeOf msg) = true)
    (room : ringFull (e.tx 0 .control) = false) :
    let reply := if initiator then initiatorReply C else responderReply C
    let r := feed C reply env.packet.hs s msg e.seqCounter
    ∀ outs, Answers r outs →
      Holds (e.inbound C env p) initiator r.sess (msgs ++ outs) := by
  obtain ⟨i, session, rfl⟩ := holds.slot
  have effect := inbound_expected (C := C) session
    (controlExpected_unlocked expected) carries passes expected room
  rw [holds.role] at effect
  obtain ⟨same, role, pool, sent⟩ := effect
  intro reply r outs carried
  refine ⟨?_, role, ?_⟩
  · rw [Engine.current, same, Option.map_some, pool]
  · rw [sent]
    refine List.rel_append holds.sent ?_
    change List.Forall₂ Carries (r.out.map (·.sendTo e.peerAddr)).toList outs
    rw [Answers] at carried
    cases out : r.out with
    | none =>
        rw [out] at carried
        exact carried
    | some answer =>
        rw [out] at carried
        cases carried with
        | cons carries none =>
            cases none
            exact List.Forall₂.cons
              (carries_of_sameWire (sameWire_sendTo _ _) carries)
              List.Forall₂.nil

theorem Holds.refused
    (holds : Holds e initiator s msgs) (carries : Carries p msg)
    {env : PollEnv}
    (refused :
      PassesFilters env.inbound e.filters p →
        s.state ≠ .locked ∧ controlExpected s (opcodeOf msg) = false) :
    Holds (e.inbound C env p) initiator s msgs := by
  obtain ⟨i, session, rfl⟩ := holds.slot
  obtain ⟨same, role, pool, sent⟩ :=
    inbound_refused (C := C) session carries refused
  refine ⟨?_, role.trans holds.role, ?_⟩
  · rw [Engine.current, same, Option.map_some, pool]
  · rw [sent]
    exact holds.sent

end

/-! ## Both sides -/

/-- The messages that are addressed to a side. -/
def messagesTo (party : Party) (iniMsgs respMsgs : List Bytes) : List Bytes :=
  match party with
  | .responder => iniMsgs
  | .initiator => respMsgs

variable (C) in
/-- As many messages have been taken as have been delivered, and each side is
where an undisturbed handshake would be. -/
structure DuplicateInv (iniKey respKey : Bytes) (w : DuplicateWorld)
    (ini resp : Session) (iniMsgs respMsgs : List Bytes) : Prop where
  stage :
    HonestStage C iniKey respKey w.delivered.length ini resp iniMsgs respMsgs
  iniHolds : Holds w.ini true ini iniMsgs
  respHolds : Holds w.resp false resp respMsgs
  taken :
    ∀ (m : Nat) p, w.delivered[m]? = some p →
      ∃ msg, Carries p msg ∧
        (messagesTo (receiverOf m) iniMsgs respMsgs)[m / 2]? = some msg

theorem sent_getElem?
    {packets : List PacketBuf} {msgs : List Bytes}
    (sent : List.Forall₂ Carries packets msgs) (k : Nat) :
    Option.Rel Carries packets[k]? msgs[k]? := by
  induction sent generalizing k with
  | nil =>
      exact Option.Rel.none
  | cons carries rest hypothesis =>
      cases k with
      | zero =>
          exact Option.Rel.some carries
      | succ k =>
          exact hypothesis k

theorem carried_of_sent
    {packets : List PacketBuf} {msgs : List Bytes}
    (sent : List.Forall₂ Carries packets msgs) {k : Nat}
    (found : packets[k]? = some p) :
    ∃ msg, msgs[k]? = some msg ∧ Carries p msg := by
  have related := sent_getElem? sent k
  rw [found] at related
  cases place : msgs[k]? with
  | none =>
      rw [place] at related
      cases related
  | some msg =>
      rw [place] at related
      cases related with
      | some carries => exact ⟨msg, rfl, carries⟩

theorem duplicateInv_start
    {setup : HsSetup} {w : DuplicateWorld} (begun : Begun C setup w) :
    DuplicateInv C setup.iniKey.bytes setup.respKey.bytes w
      (setup.start C).ini (setup.start C).resp [[ctrlHello]] [] where
  stage := by
    rw [begun.fresh]
    exact honestStage_start setup
  iniHolds := by
    refine ⟨begun.ini, begun.iniRole, ?_⟩
    obtain ⟨addr, sent⟩ := begun.hello
    rw [sent]
    refine List.Forall₂.cons (carries_of_sameWire (sameWire_sendTo _ _) ?_)
      List.Forall₂.nil
    refine ⟨_, packetParse_buildPacket setup.helloBuf true 0 0 chControl
      setup.iniSeq [ctrlHello] (by decide) (by decide), ?_, rfl, rfl⟩
    exact builtView_payloadBytes ..
  respHolds := by
    refine ⟨begun.resp, begun.respRole, ?_⟩
    rw [begun.silent]
    exact List.Forall₂.nil
  taken := by
    intro m p delivered
    rw [begun.fresh] at delivered
    cases delivered

section

variable {iniKey respKey : Bytes} {w : DuplicateWorld} {ini resp : Session}
  {iniMsgs respMsgs : List Bytes}

/-- What has been sent stays in its place. -/
theorem messagesTo_append
    {party : Party} {iniNew respNew : List Bytes} {k : Nat}
    (sent : (messagesTo party iniMsgs respMsgs)[k]? = some msg) :
    (messagesTo party (iniMsgs ++ iniNew) (respMsgs ++ respNew))[k]? =
      some msg := by
  cases party with
  | responder =>
      rw [messagesTo] at sent ⊢
      rw [List.getElem?_append_left (List.getElem?_eq_some_iff.mp sent).1]
      exact sent
  | initiator =>
      rw [messagesTo] at sent ⊢
      rw [List.getElem?_append_left (List.getElem?_eq_some_iff.mp sent).1]
      exact sent

/-- One more message has been taken. -/
theorem taken_append
    {delivered : List PacketBuf} (iniNew respNew : List Bytes)
    {arrived : PacketBuf}
    (taken :
      ∀ (m : Nat) p, delivered[m]? = some p →
        ∃ msg, Carries p msg ∧
          (messagesTo (receiverOf m) iniMsgs respMsgs)[m / 2]? = some msg)
    (carries : Carries arrived msg)
    (sent :
      (messagesTo (receiverOf delivered.length) iniMsgs respMsgs)[
        delivered.length / 2]? = some msg) (m : Nat) (p : PacketBuf)
    (member : (delivered ++ [arrived])[m]? = some p) :
    ∃ msg, Carries p msg ∧
      (messagesTo (receiverOf m) (iniMsgs ++ iniNew) (respMsgs ++ respNew))[
        m / 2]? = some msg := by
  rcases Nat.lt_or_ge m delivered.length with old | new
  · rw [List.getElem?_append_left old] at member
    obtain ⟨msg, carried, place⟩ := taken m p member
    exact ⟨msg, carried, messagesTo_append place⟩
  · have last : m = delivered.length := by
      have bound := (List.getElem?_eq_some_iff.mp member).1
      simp only [List.length_append, List.length_singleton] at bound
      omega
    subst last
    rw [List.getElem?_concat_length] at member
    cases member
    exact ⟨msg, carries, messagesTo_append sent⟩

/-- A message that comes again changes nothing. -/
theorem DuplicateInv.again
    (inv : DuplicateInv C iniKey respKey w ini resp iniMsgs respMsgs)
    {message : Nat} {env : PollEnv}
    (tolerated : w.Tolerated (.again message env)) :
    DuplicateInv C iniKey respKey (w.step C (.again message env)) ini resp
      iniMsgs respMsgs := by
  simp only [DuplicateWorld.step]
  cases delivered : w.delivered[message]? with
  | none =>
      exact inv
  | some p =>
      obtain ⟨msg, carries, sent⟩ := inv.taken message p delivered
      have earlier : message < w.delivered.length :=
        (List.getElem?_eq_some_iff.mp delivered).1
      cases turn : receiverOf message with
      | responder =>
          rw [turn] at sent
          simp only [DuplicateWorld.Tolerated, turn] at tolerated
          have holds : Holds (w.resp.inbound C env p) false resp respMsgs := by
            refine inv.respHolds.refused carries fun passes => ?_
            obtain ⟨unlocked, past⟩ :=
              tolerated p resp delivered inv.respHolds.session passes
            exact ⟨unlocked, inv.stage.responder_refuses earlier turn sent
              unlocked past⟩
          exact ⟨inv.stage, inv.iniHolds, holds, inv.taken⟩
      | initiator =>
          rw [turn] at sent
          simp only [DuplicateWorld.Tolerated, turn] at tolerated
          have holds : Holds (w.ini.inbound C env p) true ini iniMsgs := by
            refine inv.iniHolds.refused carries fun passes => ?_
            obtain ⟨unlocked, -⟩ :=
              tolerated p ini delivered inv.iniHolds.session passes
            exact ⟨unlocked, inv.stage.initiator_refuses earlier turn sent
              unlocked⟩
          exact ⟨inv.stage, holds, inv.respHolds, inv.taken⟩

/-- The next message of the protocol is there until all six have been
delivered. -/
theorem DuplicateInv.next_isSome
    (inv : DuplicateInv C iniKey respKey w ini resp iniMsgs respMsgs)
    (unfinished : w.delivered.length < 6) : w.next ≠ none := by
  intro none
  rw [DuplicateWorld.next] at none
  cases turn : receiverOf w.delivered.length with
  | responder =>
      obtain ⟨msg, sent⟩ := inv.stage.sent_to_responder turn unfinished
      have related := sent_getElem? inv.iniHolds.sent (w.delivered.length / 2)
      rw [turn] at none
      rw [show w.ini.handshakesSent[w.delivered.length / 2]? = _ from none,
        sent] at related
      cases related
  | initiator =>
      obtain ⟨msg, sent⟩ := inv.stage.sent_to_initiator turn
      have related :=
        sent_getElem? inv.respHolds.sent (w.delivered.length / 2)
      rw [turn] at none
      rw [show w.resp.handshakesSent[w.delivered.length / 2]? = _ from none,
        sent] at related
      cases related

/-- The responder takes the next message. -/
theorem DuplicateInv.responder_takes
    (aead : AeadInverts C) (kem : KemWorks C) (iniSize : iniKey.length = 32)
    (respSize : respKey.length = 32)
    (inv : DuplicateInv C iniKey respKey w ini resp iniMsgs respMsgs)
    (turn : receiverOf w.delivered.length = .responder)
    (place : iniMsgs[w.delivered.length / 2]? = some msg)
    (carries : Carries p msg) {env : PollEnv}
    (passes : PassesFilters env.inbound w.resp.filters p)
    (pool : env.packet.hs.buf.isSome = true)
    (room : ringFull (w.resp.tx 0 .control) = false) :
    ∃ resp' respMsgs',
      DuplicateInv C iniKey respKey
        { w with
          resp := w.resp.inbound C env p
          delivered := w.delivered ++ [p] } ini resp' iniMsgs respMsgs' := by
  obtain ⟨expected, outs, answers, stage⟩ :=
    inv.stage.responder_takes aead kem iniSize respSize turn place pool
      w.resp.seqCounter
  have holds := inv.respHolds.expected carries passes expected room outs
    answers
  refine ⟨_, _, ?_, inv.iniHolds, holds, ?_⟩
  · rw [List.length_append, List.length_singleton]
    exact stage
  · intro m q member
    have sent :
        (messagesTo (receiverOf w.delivered.length) iniMsgs respMsgs)[
          w.delivered.length / 2]? = some msg := by
      rw [turn]
      exact place
    have kept := taken_append [] outs inv.taken carries sent m q member
    rwa [List.append_nil] at kept

/-- The initiator takes the next message. -/
theorem DuplicateInv.initiator_takes
    (aead : AeadInverts C) (kem : KemWorks C) (iniSize : iniKey.length = 32)
    (respSize : respKey.length = 32)
    (inv : DuplicateInv C iniKey respKey w ini resp iniMsgs respMsgs)
    (turn : receiverOf w.delivered.length = .initiator)
    (place : respMsgs[w.delivered.length / 2]? = some msg)
    (carries : Carries p msg) {env : PollEnv}
    (passes : PassesFilters env.inbound w.ini.filters p)
    (pool : env.packet.hs.buf.isSome = true)
    (room : ringFull (w.ini.tx 0 .control) = false) :
    ∃ ini' iniMsgs',
      DuplicateInv C iniKey respKey
        { w with
          ini := w.ini.inbound C env p
          delivered := w.delivered ++ [p] } ini' resp iniMsgs' respMsgs := by
  obtain ⟨expected, outs, answers, stage⟩ :=
    inv.stage.initiator_takes aead kem respSize iniSize turn place pool
      w.ini.seqCounter
  have holds := inv.iniHolds.expected carries passes expected room outs
    answers
  refine ⟨_, _, ?_, holds, inv.respHolds, ?_⟩
  · rw [List.length_append, List.length_singleton]
    exact stage
  · intro m q member
    have sent :
        (messagesTo (receiverOf w.delivered.length) iniMsgs respMsgs)[
          w.delivered.length / 2]? = some msg := by
      rw [turn]
      exact place
    have kept := taken_append outs [] inv.taken carries sent m q member
    rwa [List.append_nil] at kept

/-- A message that comes first moves the handshake on. -/
theorem DuplicateInv.first
    (aead : AeadInverts C) (kem : KemWorks C) (iniSize : iniKey.length = 32)
    (respSize : respKey.length = 32)
    (inv : DuplicateInv C iniKey respKey w ini resp iniMsgs respMsgs)
    {source : Bytes} {sourceLen : Nat} {env : PollEnv}
    (tolerated : w.Tolerated (.first source sourceLen env)) :
    ∃ ini' resp' iniMsgs' respMsgs',
      DuplicateInv C iniKey respKey (w.step C (.first source sourceLen env))
        ini' resp' iniMsgs' respMsgs' := by
  simp only [DuplicateWorld.step]
  cases next : w.next with
  | none =>
      exact ⟨ini, resp, iniMsgs, respMsgs, inv⟩
  | some p =>
      obtain ⟨passes, pool, room⟩ := tolerated p next
      have wire := sameWire_setAddr p source sourceLen
      rw [DuplicateWorld.next] at next
      cases turn : receiverOf w.delivered.length with
      | responder =>
          rw [turn] at next passes room
          obtain ⟨msg, place, carries⟩ :=
            carried_of_sent inv.iniHolds.sent next
          obtain ⟨resp', respMsgs', inv'⟩ :=
            inv.responder_takes aead kem iniSize respSize turn place
              (carries_of_sameWire wire carries) passes pool room
          exact ⟨ini, resp', iniMsgs, respMsgs', inv'⟩
      | initiator =>
          rw [turn] at next passes room
          obtain ⟨msg, place, carries⟩ :=
            carried_of_sent inv.respHolds.sent next
          obtain ⟨ini', iniMsgs', inv'⟩ :=
            inv.initiator_takes aead kem iniSize respSize turn place
              (carries_of_sameWire wire carries) passes pool room
          exact ⟨ini', resp, iniMsgs', respMsgs, inv'⟩

theorem DuplicateInv.first_delivered
    (inv : DuplicateInv C iniKey respKey w ini resp iniMsgs respMsgs)
    (source : Bytes) (sourceLen : Nat) (env : PollEnv) :
    min 6 (w.delivered.length + 1) ≤
      (w.step C (.first source sourceLen env)).delivered.length := by
  simp only [DuplicateWorld.step]
  cases next : w.next with
  | none =>
      have finished : ¬ w.delivered.length < 6 :=
        fun unfinished => inv.next_isSome unfinished next
      dsimp only
      omega
  | some p =>
      simp only [List.length_append, List.length_singleton]
      exact Nat.min_le_right _ _

theorem DuplicateWorld.again_delivered
    (w : DuplicateWorld) (message : Nat) (env : PollEnv) :
    (w.step C (.again message env)).delivered = w.delivered := by
  simp only [DuplicateWorld.step]
  cases w.delivered[message]? with
  | none =>
      rfl
  | some p =>
      dsimp only [DuplicateWorld.receive]
      split
      · rfl
      · rfl

/-- A run keeps the invariant, and counts its first deliveries up to six. -/
theorem DuplicateInv.run
    (aead : AeadInverts C) (kem : KemWorks C) (iniSize : iniKey.length = 32)
    (respSize : respKey.length = 32) {acts : List DuplicateAct} :
    ∀ {w : DuplicateWorld} {ini resp : Session}
      {iniMsgs respMsgs : List Bytes},
      DuplicateInv C iniKey respKey w ini resp iniMsgs respMsgs →
        ToleratedRun C w acts →
          ∃ ini' resp' iniMsgs' respMsgs',
            DuplicateInv C iniKey respKey (w.run C acts) ini' resp' iniMsgs'
                respMsgs' ∧
              min 6
                  (w.delivered.length +
                    (acts.filter DuplicateAct.isFirst).length) ≤
                (w.run C acts).delivered.length := by
  induction acts with
  | nil =>
      intro w ini resp iniMsgs respMsgs inv _
      exact ⟨ini, resp, iniMsgs, respMsgs, inv, Nat.min_le_right _ _⟩
  | cons act rest hypothesis =>
      intro w ini resp iniMsgs respMsgs inv tolerated
      cases act with
      | first source sourceLen env =>
          obtain ⟨_, _, _, _, inv'⟩ :=
            inv.first aead kem iniSize respSize tolerated.1
          have progress := inv.first_delivered source sourceLen env
          obtain ⟨ini', resp', iniMsgs', respMsgs', final, counted⟩ :=
            hypothesis inv' tolerated.2
          refine ⟨ini', resp', iniMsgs', respMsgs', final,
            le_trans ?_ counted⟩
          simp only [List.filter_cons, DuplicateAct.isFirst, if_true,
            List.length_cons]
          omega
      | again message env =>
          have inv' := inv.again tolerated.1
          obtain ⟨ini', resp', iniMsgs', respMsgs', final, counted⟩ :=
            hypothesis inv' tolerated.2
          refine ⟨ini', resp', iniMsgs', respMsgs', final,
            le_trans ?_ counted⟩
          rw [DuplicateWorld.again_delivered]
          simp [DuplicateAct.isFirst]

end

end

/-- With every message delivered once in order, and again only where the
session gate refuses it, the handshake ends as it does undisturbed. -/
theorem handshake_tolerates_duplicates
    (C : CryptoSuite) (aead : AeadInverts C) (kem : KemWorks C)
    (setup : HsSetup) (w : DuplicateWorld) (begun : Begun C setup w)
    (acts : List DuplicateAct) (tolerated : ToleratedRun C w acts)
    (delivered : 6 ≤ (acts.filter DuplicateAct.isFirst).length) :
    ∃ ini resp,
      (w.run C acts).ini.current = some ini ∧
        (w.run C acts).resp.current = some resp ∧ Agreed ini resp := by
  obtain ⟨ini, resp, iniMsgs, respMsgs, final, counted⟩ :=
    (duplicateInv_start begun).run aead kem setup.iniKey.length_bytes
      setup.respKey.length_bytes tolerated
  have all : (w.run C acts).delivered.length = 6 := by
    have bound := final.stage.le
    omega
  have stage := final.stage
  rw [all] at stage
  exact ⟨ini, resp, final.iniHolds.session, final.respHolds.session,
    stage.agreed⟩

/-! ## Two runs of the sample parties -/

theorem kemWorks_sampleSuite : KemWorks sampleSuite := by
  intro keyCoins
  refine ⟨_, _, rfl, fun coins => ⟨_, _, rfl, ?_⟩⟩
  exact kemDecaps_sampleSuite keyCoins _

/-- An engine in the middle of a handshake. -/
def sampleEngine (s : Session) (initiator : Bool) (sent : List PacketBuf) :
    Engine :=
  { transportEngineInit sampleConfig false false with
    session := some 0
    pool := fun _ => s
    seqCounter := 2
    roleInitiator := initiator
    enqueued := sent.map fun p => TxItem.message .handshake p s 1 }

/-- The parties of the sample handshake. -/
def sampleDuplicates : DuplicateWorld where
  ini :=
    sampleEngine (sampleSetup.start sampleSuite).ini true
      ((sampleSetup.start sampleSuite).iniSent.map (·.sendTo []))
  resp := sampleEngine (sampleSetup.start sampleSuite).resp false []

def sampleFirst : DuplicateAct := .first (zeros 28) 28 samplePoll

theorem begun_sampleDuplicates :
    Begun sampleSuite sampleSetup sampleDuplicates where
  ini := rfl
  resp := rfl
  iniRole := rfl
  respRole := rfl
  hello := ⟨[], rfl⟩
  silent := rfl
  fresh := rfl


/-- Four messages come again, each where the gate refuses it. -/
def toleratedDuplicates : List DuplicateAct :=
  [sampleFirst, sampleFirst, .again 1 samplePoll, sampleFirst,
    .again 0 samplePoll, .again 2 samplePoll, sampleFirst,
    .again 3 samplePoll, sampleFirst, sampleFirst]

theorem handshake_tolerates_duplicates_sample :
    ∃ ini resp,
      (sampleDuplicates.run sampleSuite toleratedDuplicates).ini.current =
          some ini ∧
        (sampleDuplicates.run sampleSuite toleratedDuplicates).resp.current =
          some resp ∧ Agreed ini resp :=
  handshake_tolerates_duplicates sampleSuite aeadInverts_sampleSuite
    kemWorks_sampleSuite sampleSetup sampleDuplicates begun_sampleDuplicates
    toleratedDuplicates (by decide +kernel) (by decide)

/-- All six messages arrive, and the last of them twice. -/
def duplicatedLock : List DuplicateAct :=
  List.replicate 6 sampleFirst ++ [.again 5 samplePoll]

/-- The second SESSION_LOCKED resets the initiator. -/
theorem duplicatedLock_resets :
    Begun sampleSuite sampleSetup sampleDuplicates ∧
      6 ≤ (duplicatedLock.filter DuplicateAct.isFirst).length ∧
      ¬ ∃ ini resp,
        (sampleDuplicates.run sampleSuite duplicatedLock).ini.current =
            some ini ∧
          (sampleDuplicates.run sampleSuite duplicatedLock).resp.current =
            some resp ∧ Agreed ini resp := by
  refine ⟨begun_sampleDuplicates, by decide, ?_⟩
  rintro ⟨ini, resp, current, -, agreed⟩
  have reset :
      ((sampleDuplicates.run sampleSuite duplicatedLock).ini.current.any
        fun s => s.state == .idle) = true := by
    decide +kernel
  rw [current, Option.any_some, agreed.iniLocked] at reset
  cases reset

end PqComm
