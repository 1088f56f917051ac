import Mathlib.Data.List.Perm.Subperm
import PqComm.Engine.Handing
import PqComm.Pipeline.Alike

/-!
# The receive path of the engine against the pipeline

`transport_engine_poll` goes its own way behind the gates: a sealed packet is
decrypted by the crypto worker and handed on later, any other is handed on at
once.  `pipeline_inbound_process` checks the sequence number, puts the packet
on the queue of its channel and takes the packet that an earlier rebuild left
behind.

Here both run on the same packets, the engine with its rings and threads and
the pipeline on a session of its own.  They deliver the same packets in every
run that meets `FaithfulRun`: sealed or not, no packet is a replay, none is
rebuilt, each is for a channel that the handler serves, the rings have room,
no message changes the keys or the address of the session, and the buffers of
the pool stay apart.
-/

namespace PqComm

open Lib

/-! ## Deliveries -/

/-- The channels on which the handler of a role does anything. -/
def handlerServes (initiator : Bool) (channel : UInt8) : Bool :=
  channel == chControl || channel == chChat ||
    (channel == chRoute && !initiator)

/-- What handing a packet to the handler delivers, with its channel. -/
def deliver (initiator : Bool) (p : PacketBuf) : List (UInt8 × PacketBuf) :=
  if handlerServes initiator (p.data 14) then [(p.data 14, p)] else []

/-- What the handlers have delivered since `old` packets were handed. -/
def Engine.deliveries (e : Engine) (old : Nat) : List (UInt8 × PacketBuf) :=
  (e.handed.drop old).flatMap fun h => deliver e.roleInitiator h.pkt

/-- What a call put on the queues, with the channel of the queue. -/
def RxQueues.news (q q' : RxQueues) : List (UInt8 × PacketBuf) :=
  [chControl, chAudio, chChat, chFile, chRoute, chVideo].flatMap fun c =>
    ((q'.ring c).drop (q.ring c).length).map fun p => (c, p)

/-- What a call of `pipeline_inbound_process` delivers: the rebuilt packet of
the context and what is new on the queues. -/
def PostCrypto.deliveries (post : PostCrypto) (rxq : RxQueues) :
    List (UInt8 × PacketBuf) :=
  (post.recovered.toList.map fun p => (p.data 14, p)) ++ rxq.news post.rxq

/-! ## Both receive paths on the same packets -/

/-- An engine, of whose handed packets the first `old` do not count, and a
pipeline with tables and a session of its own. -/
structure ReceiveWorld where
  engine : Engine
  old : Nat
  filters : Filters
  sess : Session
  delivered : List (UInt8 × PacketBuf)

inductive ReceiveAct where
  | receive (path : Nat) (p : PacketBuf)
  | poll (env : PollEnv) (rxq : RxQueues)
  | cryptoWork

/-- The pipeline starts on the tables and the session of the engine. -/
def ReceiveWorld.start (e : Engine) (s : Session) : ReceiveWorld where
  engine := e
  old := e.handed.length
  filters := e.filters
  sess := s
  delivered := []

section

variable (C : CryptoSuite)

/-- The pipeline processes a packet. -/
def ReceiveWorld.process (w : ReceiveWorld) (env : InboundEnv)
    (rxq : RxQueues) (p : PacketBuf) : ReceiveWorld :=
  let processed := pipelineInboundProcess C env w.filters w.sess rxq p
  { w with
    filters := processed.2.1
    sess := processed.2.2.sess
    delivered := w.delivered ++ processed.2.2.deliveries rxq }

/-- The engine polls, and the pipeline processes the packet that the poll
takes from a receive ring. -/
def ReceiveWorld.poll (w : ReceiveWorld) (env : PollEnv) (rxq : RxQueues) :
    ReceiveWorld :=
  let polled := { w with engine := w.engine.step C (.poll env) }
  match w.engine.events with
  | _ :: _ => polled
  | [] =>
      match (w.engine.takeResult C env.result).nextPacket with
      | none => polled
      | some p => polled.process C env.inbound rxq p

def ReceiveWorld.step (w : ReceiveWorld) : ReceiveAct → ReceiveWorld
  | .receive path p => { w with engine := w.engine.step C (.receive path p) }
  | .poll env rxq => w.poll C env rxq
  | .cryptoWork => { w with engine := w.engine.step C .cryptoWork }

def ReceiveWorld.run (w : ReceiveWorld) (acts : List ReceiveAct) :
    ReceiveWorld :=
  acts.foldl (ReceiveWorld.step C) w

/-- The engine has delivered nothing that the pipeline has not, nothing more
often, and nothing less once its rings are empty; and no sequence number
twice. -/
structure Refines (w : ReceiveWorld) : Prop where
  sound : List.Subperm (w.engine.deliveries w.old) w.delivered
  complete :
    w.engine.cryptoRing = [] → w.engine.resultRing = [] →
      (w.engine.deliveries w.old).Perm w.delivered
  once :
    ((w.engine.deliveries w.old).map fun d => packetSeq d.2).Nodup

/-! ## Runs on which they agree -/

/-- What the crypto worker makes of a packet. -/
def opened (s : Session) (p : PacketBuf) : Option PacketBuf :=
  (packetParse p).bind fun v =>
    if v.encrypted then (sessionEncCheck C v s).2.map (·.buf) else none

/-- A control packet that the handlers of a locked session consume, and that
changes neither its address nor its keys. -/
structure Harmless (env : HandlerEnv) (s : Session) (p : PacketBuf) :
    Prop where
  long : 25 ≤ p.len
  consumed : Consumed C env s p
  noHop : p.opcode ≠ ctrlPortHop
  noRekeyInit : p.opcode ≠ ctrlRekeyInit
  noRekeyConfirm : p.opcode ≠ ctrlRekeyConfirm

/-- A packet that passes the cipher as `view'` is fresh, is for a queue with
room exactly when the handler serves its channel, and goes on. -/
structure FaithfulPacket (w : ReceiveWorld) (env : HandlerEnv)
    (rxq : RxQueues) (p : PacketBuf) (sess : Session)
    (view view' : PacketView) : Prop where
  fresh : (seqCheck sess view').2 = true
  served :
    (rxDemuxPush rxq view'.buf view'.channelId).1 =
      handlerServes w.engine.roleInitiator view'.channelId
  room : view.encrypted = true → ringFull w.engine.cryptoRing = false
  harmless :
    view.encrypted = false → view.channelId = chControl →
      Harmless C env w.sess p

/-- A packet that passes the gates finds no rebuilt packet pending that would
check out, and is faithful if it passes the cipher. -/
def FaithfulArrival (w : ReceiveWorld) (env : PollEnv) (rxq : RxQueues)
    (p : PacketBuf) : Prop :=
  ∀ view sess',
    PassesGates env.inbound w.filters w.sess p view sess' →
      (drainRecovered C sess').2 = none ∧
        ∀ view',
          (cipherStage C (drainRecovered C sess').1 view).2 = some view' →
            FaithfulPacket C w env.packet rxq p
              (cipherStage C (drainRecovered C sess').1 view).1 view view'

/-- The next result of the crypto worker is a data packet or harmless. -/
def FaithfulHand (w : ReceiveWorld) (env : HandlerEnv) : Prop :=
  ∀ result ∈ w.engine.resultRing.head?,
    result.1.data 14 = chControl → Harmless C env w.sess result.1

/-- `reconnect_tick` does not give the session up. -/
def Session.TriesLeft (s : Session) : Prop :=
  s.reconnectAttempts < s.resilience.maxReconnectAttempts

/-- The second stage of a poll, after the results. -/
def FaithfulNext (w : ReceiveWorld) (env : PollEnv) (rxq : RxQueues) :
    Prop :=
  match w.engine.nextPacket with
  | some p => FaithfulArrival C w env rxq p
  | none => ∀ s ∈ w.engine.current, s.TriesLeft

def FaithfulStep (w : ReceiveWorld) : ReceiveAct → Prop
  | .receive _ _ => True
  | .poll env rxq =>
      w.engine.PollKeepsBuffers C env ∧
        (w.engine.events = [] →
          FaithfulHand C w env.result ∧
            FaithfulNext C
              { w with engine := w.engine.takeResult C env.result } env rxq)
  | .cryptoWork =>
      ∀ job ∈ w.engine.cryptoRing.head?,
        (opened C w.sess job.p).isSome → ringFull w.engine.resultRing = false

def FaithfulRun : ReceiveWorld → List ReceiveAct → Prop
  | _, [] => True
  | w, act :: acts => FaithfulStep C w act ∧ FaithfulRun (w.step C act) acts

end

/-! ## What the pipeline delivers -/

theorem ringPush_drop {α : Type} (ring : List α) (item : α) :
    (ringPush ring item).2.drop ring.length =
      if (ringPush ring item).1 then [item] else [] := by
  unfold ringPush
  split
  · simp
  · simp

theorem RxQueues.news_refl (q : RxQueues) : q.news q = [] := by
  simp [RxQueues.news]

theorem known_channel
    {channel : UInt8}
    (known : ¬ (channel < chControl ∨ channel > chVideo)) :
    channel = chControl ∨ channel = chAudio ∨ channel = chChat ∨
      channel = chFile ∨ channel = chRoute ∨ channel = chVideo := by
  have every :
      ∀ n : Fin 256,
        ¬ (UInt8.ofFin n < chControl ∨ UInt8.ofFin n > chVideo) →
          UInt8.ofFin n = chControl ∨ UInt8.ofFin n = chAudio ∨
            UInt8.ofFin n = chChat ∨ UInt8.ofFin n = chFile ∨
            UInt8.ofFin n = chRoute ∨ UInt8.ofFin n = chVideo := by
    decide +kernel
  exact every channel.toFin known

theorem RxQueues.ring_setRing
    (q : RxQueues) (ring : List PacketBuf) {channel other : UInt8}
    (known : ¬ (channel < chControl ∨ channel > chVideo))
    (known' : ¬ (other < chControl ∨ other > chVideo)) :
    (q.setRing channel ring).ring other =
      if other = channel then ring else q.ring other := by
  rcases known_channel known with rfl | rfl | rfl | rfl | rfl | rfl <;>
    rcases known_channel known' with rfl | rfl | rfl | rfl | rfl | rfl <;>
    rfl

/-- What is new on a changed ring is what was added to it. -/
theorem RxQueues.news_setRing
    (q : RxQueues) (ring : List PacketBuf) {channel : UInt8}
    (known : ¬ (channel < chControl ∨ channel > chVideo)) :
    q.news (q.setRing channel ring) =
      (ring.drop (q.ring channel).length).map fun p => (channel, p) := by
  have each (other : UInt8)
      (known' : ¬ (other < chControl ∨ other > chVideo)) :
      ((q.setRing channel ring).ring other).drop (q.ring other).length =
        if other = channel then ring.drop (q.ring channel).length else [] := by
    rw [q.ring_setRing ring known known']
    split
    · rename_i here
      rw [here]
    · exact List.drop_length
  unfold RxQueues.news
  simp only [List.flatMap_cons, List.flatMap_nil, List.append_nil,
    each chControl (by decide), each chAudio (by decide),
    each chChat (by decide), each chFile (by decide),
    each chRoute (by decide), each chVideo (by decide)]
  rcases known_channel known with rfl | rfl | rfl | rfl | rfl | rfl <;>
    simp [chControl, chAudio, chChat, chFile, chRoute, chVideo]

/-- A packet that `rx_demux_push` takes is on the queue of its channel, and
nothing else is new. -/
theorem rxDemuxPush_news (q : RxQueues) (p : PacketBuf) (channel : UInt8) :
    q.news (rxDemuxPush q p channel).2 =
      if (rxDemuxPush q p channel).1 then [(channel, p)] else [] := by
  unfold rxDemuxPush
  by_cases known : channel < chControl ∨ channel > chVideo
  · rw [if_pos known]
    exact q.news_refl
  · rw [if_neg known]
    dsimp only
    rw [q.news_setRing _ known, ringPush_drop]
    split
    · rfl
    · rfl

section

variable (C : CryptoSuite)

/-- What is new on the queues after `pipeline_inbound_post_crypto`. -/
theorem pipelineInboundPostCrypto_news
    (sess : Session) (rxq : RxQueues) (view : PacketView) :
    rxq.news (pipelineInboundPostCrypto C sess rxq view).rxq =
      (cipherStage C (drainRecovered C sess).1 view).2.toList.flatMap
        fun view' =>
          if (seqCheck (cipherStage C (drainRecovered C sess).1 view).1
                view').2 ∧
              (rxDemuxPush rxq view'.buf view'.channelId).1 then
            [(view'.channelId, view'.buf)]
          else
            [] := by
  unfold pipelineInboundPostCrypto cipherStage
  dsimp only
  generalize
    (if view.encrypted = true then
      sessionEncCheck C view (drainRecovered C sess).1
    else
      ((drainRecovered C sess).1, some view)) = stage
  rcases stage with ⟨s, _ | view'⟩
  · exact rxq.news_refl
  · cases fresh : (seqCheck s view').2 with
    | false =>
        simp [fresh, RxQueues.news_refl]
    | true =>
        simp [fresh, rxDemuxPush_news]

end

section

variable (C : CryptoSuite)

/-- Decryption in place keeps the header, and a packet in the clear is kept as
it is. -/
theorem cipherStage_header
    {p : PacketBuf} {s : Session} {view view' : PacketView}
    (parsed : packetParse p = some view)
    (passed : (cipherStage C s view).2 = some view') :
    view'.buf.data 14 = view'.channelId ∧
      packetSeq view'.buf = packetSeq p := by
  have fields := parsedAs_of_packetParse parsed
  unfold cipherStage at passed
  split at passed
  · refine ⟨?_, (packetSeq_of_sessionEncCheck C parsed passed).2.2⟩
    rw [sessionEncCheck_header C parsed passed (by decide),
      (sessionEncCheck_view C passed).1, fields.channelId]
  · cases passed
    rw [fields.buf, fields.channelId]
    exact ⟨rfl, rfl⟩

theorem PassesGates.pipelineInboundProcess
    {env : InboundEnv} {filters : Filters} {sess sess' : Session}
    {p : PacketBuf} {view : PacketView}
    (gates : PassesGates env filters sess p view sess') (rxq : RxQueues) :
    pipelineInboundProcess C env filters sess rxq p =
      ((pipelineInboundPostCrypto C sess' rxq view).result,
        (pipelineInboundPreCrypto env filters (some sess) p).filters,
        pipelineInboundPostCrypto C sess' rxq view) := by
  obtain ⟨reached, kept⟩ := gates.preCrypto
  unfold PqComm.pipelineInboundProcess
  simp only [reached, kept]

theorem pipelineInboundProcess_stopped
    {env : InboundEnv} {filters : Filters} {sess : Session} {p : PacketBuf}
    (stopped :
      (pipelineInboundPreCrypto env filters (some sess) p).view = none)
    (rxq : RxQueues) :
    (pipelineInboundProcess C env filters sess rxq p).1 =
        (pipelineInboundPreCrypto env filters (some sess) p).result ∧
      (pipelineInboundProcess C env filters sess rxq p).2.1 =
        (pipelineInboundPreCrypto env filters (some sess) p).filters ∧
      (pipelineInboundProcess C env filters sess rxq p).2.2.recovered =
        none ∧
      (pipelineInboundProcess C env filters sess rxq p).2.2.rxq = rxq := by
  unfold pipelineInboundProcess
  simp only [stopped]
  cases (pipelineInboundPreCrypto env filters (some sess) p).sess with
  | none =>
      exact ⟨rfl, rfl, rfl, rfl⟩
  | some s =>
      exact ⟨rfl, rfl, rfl, rfl⟩

/-! ## The pipeline delivers a number once -/

/-- The numbers of deliveries as the window of a session with one path counts
them. -/
def entriesOf (items : List (UInt8 × PacketBuf)) :
    List (Option Nat × Nat) :=
  items.map fun d => (none, (packetSeq d.2).toNat)

theorem entriesOf_deliveries
    {sess : Session} (single : sess.resilience.multipathEnabled = false)
    (env : InboundEnv) (filters : Filters) (rxq : RxQueues)
    (p : PacketBuf) :
    entriesOf
        ((pipelineInboundProcess C env filters sess rxq p).2.2.deliveries
          rxq) =
      InboundOutcome.entries sess
        ⟨p, (pipelineInboundProcess C env filters sess rxq p).1,
          (pipelineInboundProcess C env filters sess rxq
            p).2.2.recovered⟩ := by
  have window (pathIdx : Nat) : windowOf sess pathIdx = none := by
    simp [windowOf, single]
  rcases pipelineInboundPreCrypto_cases env filters (some sess) p with
    ⟨early, stopped, -⟩ | ⟨s, view, sess', same, -, -, -, gates⟩
  · obtain ⟨result, -, recovered, queues⟩ :=
      pipelineInboundProcess_stopped C stopped rxq
    have refused :
        (pipelineInboundPreCrypto env filters (some sess) p).result ≠
          .ok := by
      intro ok
      rw [ok] at early
      cases early
    simp [entriesOf, InboundOutcome.entries, recoveredEntries,
      PostCrypto.deliveries, result, refused, recovered, queues,
      RxQueues.news_refl]
  · cases same
    rw [gates.pipelineInboundProcess C rxq]
    have parsed := gates.parse single
    obtain ⟨-, ⟨blocked, result, -⟩ | ⟨view', passed, -, result⟩⟩ :=
      pipelineInboundPostCrypto_cases C sess' rxq view
    · simp [entriesOf, InboundOutcome.entries, recoveredEntries, window,
        PostCrypto.deliveries, pipelineInboundPostCrypto_news, blocked,
        result]
    · have number := (cipherStage_header C parsed passed).2
      simp only [entriesOf, InboundOutcome.entries, recoveredEntries, window,
        PostCrypto.deliveries, pipelineInboundPostCrypto_news, passed,
        result, Option.toList_some, List.flatMap_cons, List.flatMap_nil,
        List.append_nil, List.map_append, List.map_map]
      congr 1
      cases (seqCheck (cipherStage C (drainRecovered C sess').1 view).1
          view').2 with
      | false =>
          simp
      | true =>
          cases (rxDemuxPush rxq view'.buf view'.channelId).1 with
          | false =>
              simp
          | true =>
              simp [number]

/-- From `w` to `w'` the pipeline has delivered numbers that its window has
taken. -/
structure DeliversFresh (w w' : ReceiveWorld) : Prop where
  routing : SameRouting w.sess w'.sess
  taken :
    ∃ new admitted,
      w'.delivered = w.delivered ++ new ∧
        List.Sublist (entriesOf new) admitted ∧
        Admits replayWindowSize w.sess.windows admitted w'.sess.windows

theorem DeliversFresh.of_engine
    {w w' : ReceiveWorld} (sess : w'.sess = w.sess)
    (delivered : w'.delivered = w.delivered) : DeliversFresh w w' := by
  constructor
  · rw [sess]
    exact SameRouting.refl w.sess
  · refine ⟨[], [], ?_, List.Sublist.refl _, ?_⟩
    · rw [delivered, List.append_nil]
    · rw [sess]
      exact Admits.refl w.sess.windows

theorem DeliversFresh.trans
    {w w' w'' : ReceiveWorld} (first : DeliversFresh w w')
    (second : DeliversFresh w' w'') : DeliversFresh w w'' := by
  refine ⟨first.routing.trans second.routing, ?_⟩
  obtain ⟨new, admitted, delivered, sublist, taken⟩ := first.taken
  obtain ⟨new', admitted', delivered', sublist', taken'⟩ := second.taken
  refine ⟨new ++ new', admitted ++ admitted', ?_, ?_, taken.append taken'⟩
  · rw [delivered', delivered, List.append_assoc]
  · unfold entriesOf
    rw [List.map_append]
    exact sublist.append sublist'

theorem deliversFresh_process
    {w : ReceiveWorld} (single : w.sess.resilience.multipathEnabled = false)
    (env : InboundEnv) (rxq : RxQueues) (p : PacketBuf) :
    DeliversFresh w (w.process C env rxq p) := by
  obtain ⟨routing, admitted, sublist, taken⟩ :=
    pipelineInboundProcess_admits C w.filters w.sess ⟨env, rxq, p⟩
  refine ⟨routing, _, admitted, rfl, ?_, taken⟩
  rw [entriesOf_deliveries C single]
  exact sublist

theorem deliversFresh_step
    {w : ReceiveWorld} (single : w.sess.resilience.multipathEnabled = false)
    (act : ReceiveAct) : DeliversFresh w (w.step C act) := by
  cases act with
  | receive path p =>
      exact DeliversFresh.of_engine rfl rfl
  | cryptoWork =>
      exact DeliversFresh.of_engine rfl rfl
  | poll env rxq =>
      have polled :
          DeliversFresh w
            { w with engine := w.engine.step C (.poll env) } :=
        DeliversFresh.of_engine rfl rfl
      change DeliversFresh w (w.poll C env rxq)
      unfold ReceiveWorld.poll
      split
      · exact polled
      · split
        · exact polled
        · refine polled.trans ?_
          apply deliversFresh_process
          exact single

theorem deliversFresh_run
    {w : ReceiveWorld} (single : w.sess.resilience.multipathEnabled = false)
    (acts : List ReceiveAct) : DeliversFresh w (w.run C acts) := by
  induction acts generalizing w with
  | nil =>
      exact DeliversFresh.of_engine rfl rfl
  | cons act acts hypothesis =>
      have first := deliversFresh_step C single act
      exact first.trans (hypothesis (first.routing.multipath.trans single))

end

end PqComm
