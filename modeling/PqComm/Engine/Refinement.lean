import PqComm.Engine.ReceiveFrame

/-!
# The engine refines the pipeline

In every faithful run the engine has delivered what the pipeline has, up to
the packets on the rings of the crypto worker.  `RefinesInv` counts these
too.
-/

namespace PqComm

open Lib

/-! ## The invariant -/

section

variable (C : CryptoSuite)

/-- What the packets on the rings of the crypto worker will deliver. -/
def Engine.inFlight (e : Engine) (s : Session) :
    List (UInt8 × PacketBuf) :=
  (e.resultRing.flatMap fun result => deliver e.roleInitiator result.1) ++
    e.cryptoRing.flatMap fun job =>
      (opened C s job.p).toList.flatMap (deliver e.roleInitiator)

/-- The two sessions are alike and the books are balanced. -/
structure RefinesInv (i : Nat) (w : ReceiveWorld) : Prop where
  session : w.engine.session = some i
  filters : w.filters = w.engine.filters
  alike : ReceivesAlike w.sess (w.engine.pool i)
  locked : w.sess.state = .locked
  single : w.sess.resilience.multipathEnabled = false
  jobs : ∀ job ∈ w.engine.cryptoRing, job.sess = i
  old : w.old ≤ w.engine.handed.length
  balance :
    (w.engine.deliveries w.old ++ w.engine.inFlight C w.sess).Perm
      w.delivered

theorem opened_congr
    {s t : Session} (alike : ReceivesAlike s t) (p : PacketBuf) :
    opened C t p = opened C s p := by
  unfold opened
  simp only [alike.sessionEncCheck C]

variable {C} {i : Nat} {w : ReceiveWorld}

/-- A step that moves no packet. -/
theorem RefinesInv.moved
    (inv : RefinesInv C i w) {e : Engine} {filters : Filters} {s : Session}
    (same : SameInbound w.engine e) (session : e.session = w.engine.session)
    (role : e.roleInitiator = w.engine.roleInitiator)
    (tables : filters = e.filters)
    (pool : ReceivesAlike (w.engine.pool i) (e.pool i))
    (sess : ReceivesAlike w.sess s) :
    RefinesInv C i { w with engine := e, filters := filters, sess := s } where
  session := session.trans inv.session
  filters := tables
  alike := (sess.symm.trans inv.alike).trans pool
  locked := sess.state.trans inv.locked
  single := sess.multipath.trans inv.single
  jobs := by
    rw [same.cryptoRing]
    exact inv.jobs
  old := by
    rw [same.handed]
    exact inv.old
  balance := by
    have balance := inv.balance
    unfold Engine.deliveries Engine.inFlight at balance ⊢
    simpa only [same.handed, same.resultRing, same.cryptoRing, role,
      opened_congr C sess] using balance

theorem RefinesInv.of_frame
    (inv : RefinesInv C i w) {e : Engine} (frame : ReceiveFrame i w.engine e) :
    RefinesInv C i { w with engine := e } :=
  inv.moved frame.toSameInbound frame.session frame.roleInitiator
    (inv.filters.trans frame.filters.symm) frame.alike
    (ReceivesAlike.refl w.sess)

/-! ### Handing a packet on -/

theorem Engine.deliveries_handed
    {e : Engine} {old : Nat} (bound : old ≤ e.handed.length)
    (record : Handed) :
    { e with handed := e.handed ++ [record] }.deliveries old =
      e.deliveries old ++ deliver e.roleInitiator record.pkt := by
  unfold Engine.deliveries
  rw [List.drop_append_of_le_length bound, List.flatMap_append]
  simp

theorem RefinesInv.hand
    (inv : RefinesInv C i w) (env : HandlerEnv) {p : PacketBuf}
    (source : HandSource)
    (harmless : p.data 14 = chControl → Harmless C env w.sess p) :
    RefinesInv C i
      { w with
        engine := w.engine.hand C env p source
        delivered := w.delivered ++ deliver w.engine.roleInitiator p } := by
  unfold Engine.hand
  extract_lets record logged
  have noted :
      RefinesInv C i
        { w with
          engine := logged
          delivered := w.delivered ++ deliver w.engine.roleInitiator p } := by
    refine ⟨inv.session, inv.filters, inv.alike, inv.locked, inv.single,
      inv.jobs, ?_, ?_⟩
    · simp only [logged, List.length_append]
      exact Nat.le_add_right_of_le inv.old
    · have counted := Engine.deliveries_handed inv.old record
      rw [show logged.deliveries w.old = _ from counted, List.append_assoc]
      refine (List.perm_append_comm.append_left _).trans ?_
      rw [← List.append_assoc]
      exact inv.balance.append_right _
  have handled (initiator : Bool) :
      ReceiveFrame i logged (logged.handle C initiator env p) :=
    receiveFrame_handle initiator inv.session
      (inv.alike.state.trans inv.locked) inv.alike harmless
  clear_value logged
  split
  · exact noted.of_frame (handled true)
  · exact noted.of_frame (handled false)

theorem RefinesInv.of_perm
    {items : List (UInt8 × PacketBuf)} (inv : RefinesInv C i w)
    (same : w.delivered.Perm items) :
    RefinesInv C i { w with delivered := items } :=
  ⟨inv.session, inv.filters, inv.alike, inv.locked, inv.single, inv.jobs,
    inv.old, inv.balance.trans same⟩

theorem RefinesInv.takeResult
    (inv : RefinesInv C i w) {env : HandlerEnv}
    (faithful : FaithfulHand C w env) :
    RefinesInv C i { w with engine := w.engine.takeResult C env } := by
  unfold Engine.takeResult
  split
  · exact inv
  · rename_i p source rest pending
    -- Without the result the books balance on what is left of them.
    have popped :
        RefinesInv C i
          { w with
            engine := { w.engine with resultRing := rest }
            delivered :=
              w.engine.deliveries w.old ++
                { w.engine with resultRing := rest }.inFlight C w.sess } :=
      ⟨inv.session, inv.filters, inv.alike, inv.locked, inv.single, inv.jobs,
        inv.old, List.Perm.refl _⟩
    have harmless := faithful (p, source) (by rw [pending]; rfl)
    refine (popped.hand env source harmless).of_perm ?_
    refine List.Perm.trans ?_ inv.balance
    have split :
        w.engine.inFlight C w.sess =
          deliver w.engine.roleInitiator p ++
            { w.engine with resultRing := rest }.inFlight C w.sess := by
      unfold Engine.inFlight
      rw [pending, List.flatMap_cons, List.append_assoc]
    rw [split, List.append_assoc]
    exact List.perm_append_comm.append_left _

/-! ### The crypto worker -/

theorem RefinesInv.push
    (inv : RefinesInv C i w) (p : PacketBuf)
    (room :
      (opened C w.sess p).isSome → ringFull w.engine.cryptoRing = false) :
    RefinesInv C i
      { w with
        engine :=
          { w.engine with
            cryptoRing :=
              (ringPush w.engine.cryptoRing { p := p, sess := i }).2 }
        delivered :=
          w.delivered ++
            (opened C w.sess p).toList.flatMap
              (deliver w.engine.roleInitiator) } := by
  refine ⟨inv.session, inv.filters, inv.alike, inv.locked, inv.single,
    fun job member => ?_, inv.old, ?_⟩
  · simp only [ringPush] at member
    split at member
    · exact inv.jobs job member
    · rcases List.mem_append.mp member with old | new
      · exact inv.jobs job old
      · rw [List.mem_singleton.mp new]
  · have balance := inv.balance
    unfold Engine.deliveries Engine.inFlight at balance ⊢
    by_cases full : ringFull w.engine.cryptoRing = true
    · -- A packet that finds no room would not have opened.
      have lost : opened C w.sess p = none := by
        cases result : opened C w.sess p with
        | none =>
            rfl
        | some q =>
            rw [room (by rw [result]; rfl)] at full
            cases full
      simpa only [ringPush, full, if_true, lost, Option.toList_none,
        List.flatMap_nil, List.append_nil] using balance
    · simp only [ringPush, full, Bool.false_eq_true, if_false,
        List.flatMap_append, List.flatMap_cons, List.flatMap_nil,
        List.append_nil]
      simpa only [List.append_assoc] using balance.append_right _

/-- The worker takes a job and leaves what it opened. -/
theorem RefinesInv.worked
    (inv : RefinesInv C i w) {job : CryptoJob} {rest : List CryptoJob}
    (pending : w.engine.cryptoRing = job :: rest) {s : Session}
    (alike : ReceivesAlike (w.engine.pool i) s)
    (results : List (PacketBuf × HandSource))
    (left :
      (results.flatMap fun result =>
          deliver w.engine.roleInitiator result.1) =
        (w.engine.resultRing.flatMap fun result =>
            deliver w.engine.roleInitiator result.1) ++
          (opened C w.sess job.p).toList.flatMap
            (deliver w.engine.roleInitiator)) :
    RefinesInv C i
      { w with
        engine :=
          { w.engine.setSession i s with
            cryptoRing := rest
            resultRing := results } } := by
  refine ⟨inv.session, inv.filters, ?_, inv.locked, inv.single,
    fun other member => ?_, inv.old, ?_⟩
  · simp only [Engine.setSession, Function.update_self]
    exact inv.alike.trans alike
  · apply inv.jobs
    rw [pending]
    exact List.mem_cons_of_mem _ member
  · have balance := inv.balance
    unfold Engine.deliveries Engine.inFlight at balance ⊢
    rw [pending, List.flatMap_cons, ← List.append_assoc] at balance
    simp only [Engine.setSession]
    rw [left]
    simpa only [List.append_assoc] using balance

theorem RefinesInv.cryptoWork
    (inv : RefinesInv C i w)
    (room :
      ∀ job ∈ w.engine.cryptoRing.head?,
        (opened C w.sess job.p).isSome →
          ringFull w.engine.resultRing = false) :
    RefinesInv C i { w with engine := w.engine.cryptoWork C } := by
  unfold Engine.cryptoWork
  split
  · exact inv
  · rename_i job rest pending
    have here : job.sess = i :=
      inv.jobs job (by rw [pending]; exact List.mem_cons_self)
    have room := room job (by rw [pending]; rfl)
    have dropped (nothing : opened C w.sess job.p = none) :
        RefinesInv C i
          { w with engine := { w.engine with cryptoRing := rest } } := by
      have worked :=
        inv.worked pending (ReceivesAlike.refl _) w.engine.resultRing
          (by simp [nothing])
      simpa only [Engine.setSession, Function.update_eq_self] using worked
    cases parsed : packetParse job.p with
    | none =>
        exact dropped (by simp [opened, parsed])
    | some view =>
        dsimp only
        split
        · rename_i plain
          exact dropped (by simp_all [opened])
        · rename_i sealed
          have cipher :
              opened C w.sess job.p =
                (sessionEncCheck C view (w.engine.pool i)).2.map
                  (·.buf) := by
            rw [inv.alike.sessionEncCheck C]
            simp_all [opened]
          have alike :=
            receivesAlike_sessionEncCheck C view (w.engine.pool i)
          rw [here]
          cases checked :
              (sessionEncCheck C view (w.engine.pool i)).2 with
          | none =>
              exact inv.worked pending alike w.engine.resultRing
                (by simp [cipher, checked])
          | some view' =>
              have roomy : ringFull w.engine.resultRing = false :=
                room (by rw [cipher, checked]; rfl)
              refine inv.worked pending alike _ ?_
              simp only [Engine.setSession, ringPush, roomy,
                Bool.false_eq_true, if_false, List.flatMap_append, cipher,
                checked]
              rfl

end

/-! ### Packets from the receive rings -/

section

variable {C : CryptoSuite} {i : Nat} {w : ReceiveWorld}

theorem receivesAlike_pipelineInboundProcess
    (env : InboundEnv) (filters : Filters) (sess : Session) (rxq : RxQueues)
    (p : PacketBuf) :
    ReceivesAlike sess
      (pipelineInboundProcess C env filters sess rxq p).2.2.sess := by
  rcases pipelineInboundProcess_cases C env filters sess rxq p with
    ⟨-, -, moved⟩ | ⟨view, sess', gates, -, post⟩
  · exact moved.alike
  · rw [post]
    exact gates.reassembles.alike.trans
      (receivesAlike_pipelineInboundPostCrypto C sess' rxq view)

theorem pipelineInboundProcess_filters
    (env : InboundEnv) (filters : Filters) (sess : Session) (rxq : RxQueues)
    (p : PacketBuf) :
    (pipelineInboundProcess C env filters sess rxq p).2.1 =
      (pipelineInboundPreCrypto env filters (some sess) p).filters := by
  unfold pipelineInboundProcess
  dsimp only
  split
  · rfl
  · rfl

theorem receiveFrame_dropControl
    (e : Engine) (now : UInt64) (p : PacketBuf) :
    ReceiveFrame i e (e.dropControl now p) := by
  have quiet {f : Engine} (frame : QuietFrame e f) : ReceiveFrame i e f :=
    ReceiveFrame.of_pool frame.toHandlerFrame frame.pool
  apply quiet
  unfold Engine.dropControl
  split
  · exact QuietFrame.refl e
  · split
    · dsimp only
      split
      · exact ⟨⟨⟨rfl, rfl, rfl⟩, rfl, rfl, rfl⟩, rfl⟩
      · exact ⟨⟨⟨rfl, rfl, rfl⟩, rfl, rfl, rfl⟩, rfl⟩
    · split
      · exact ⟨⟨⟨rfl, rfl, rfl⟩, rfl, rfl, rfl⟩, rfl⟩
      · split
        · exact ⟨⟨⟨rfl, rfl, rfl⟩, rfl, rfl, rfl⟩, rfl⟩
        · exact QuietFrame.refl e

/-- What a faithful packet that passes the gates delivers. -/
theorem FaithfulArrival.deliveries
    {env : PollEnv} {rxq : RxQueues} {p : PacketBuf} {view : PacketView}
    {sess' : Session} (faithful : FaithfulArrival C w env rxq p)
    (single : w.sess.resilience.multipathEnabled = false)
    (gates : PassesGates env.inbound w.filters w.sess p view sess') :
    (pipelineInboundProcess C env.inbound w.filters w.sess rxq
        p).2.2.deliveries rxq =
      (cipherStage C w.sess view).2.toList.flatMap fun view' =>
        deliver w.engine.roleInitiator view'.buf := by
  obtain ⟨quiet, agrees⟩ := faithful view sess' gates
  have alike :=
    gates.reassembles.alike.trans (receivesAlike_drainRecovered C sess')
  rw [gates.pipelineInboundProcess C rxq, ← alike.cipherStage C]
  unfold PostCrypto.deliveries
  rw [(pipelineInboundPostCrypto_cases C sess' rxq view).1, quiet,
    pipelineInboundPostCrypto_news]
  cases passed : (cipherStage C (drainRecovered C sess').1 view).2 with
  | none =>
      rfl
  | some view' =>
      have packet := agrees view' passed
      have channel := (cipherStage_header C (gates.parse single) passed).1
      simp [deliver, packet.fresh, packet.served, channel]

theorem Engine.afterGates_role (e : Engine) (pre : PreCrypto) :
    (e.afterGates pre).roleInitiator = e.roleInitiator := by
  unfold Engine.afterGates
  split
  · rfl
  · rfl

theorem Engine.afterGates_session (e : Engine) (pre : PreCrypto) :
    (e.afterGates pre).session = e.session := by
  unfold Engine.afterGates
  split
  · rename_i session _
    exact session.symm ▸ rfl
  · rfl

theorem Engine.inbound_passes
    {e : Engine} {env : PollEnv} {p : PacketBuf} {view : PacketView}
    (session : e.session = some i)
    (reached :
      (pipelineInboundPreCrypto env.inbound e.filters
        (e.session.map e.pool) p).view = some view) :
    e.inbound C env p =
      let next :=
        e.afterGates
          (pipelineInboundPreCrypto env.inbound e.filters
            (e.session.map e.pool) p)
      if view.encrypted then
        { next with
          cryptoRing := (ringPush next.cryptoRing { p := p, sess := i }).2 }
      else
        next.hand C env.packet p .direct := by
  have kept := (Engine.afterGates_session e (pipelineInboundPreCrypto
    env.inbound e.filters (e.session.map e.pool) p)).trans session
  unfold Engine.inbound
  simp only [reached, kept]

theorem Engine.inbound_stopped
    {e : Engine} {env : PollEnv} {p : PacketBuf}
    (stopped :
      (pipelineInboundPreCrypto env.inbound e.filters
        (e.session.map e.pool) p).view = none) :
    e.inbound C env p =
      let pre :=
        pipelineInboundPreCrypto env.inbound e.filters
          (e.session.map e.pool) p
      if pre.result = .dropSession then
        (e.afterGates pre).dropControl env.now p
      else
        e.afterGates pre := by
  unfold Engine.inbound
  simp only [stopped]

/-- The engine and the pipeline past the gates, before the packet goes on. -/
theorem RefinesInv.afterGates
    (inv : RefinesInv C i w) (env : InboundEnv) (rxq : RxQueues)
    (p : PacketBuf) :
    RefinesInv C i
      { w with
        engine :=
          w.engine.afterGates
            (pipelineInboundPreCrypto env w.engine.filters
              (w.engine.session.map w.engine.pool) p)
        filters := (pipelineInboundProcess C env w.filters w.sess rxq p).2.1
        sess :=
          (pipelineInboundProcess C env w.filters w.sess rxq p).2.2.sess } := by
  have current :
      w.engine.session.map w.engine.pool = some (w.engine.pool i) := by
    rw [inv.session]
    rfl
  have moved :=
    reassembles_pipelineInboundPreCrypto env w.engine.filters
      (some (w.engine.pool i)) p
  have tables :
      (pipelineInboundProcess C env w.filters w.sess rxq p).2.1 =
        (pipelineInboundPreCrypto env w.engine.filters
          (some (w.engine.pool i)) p).filters := by
    rw [pipelineInboundProcess_filters, inv.filters]
    exact pipelineInboundPreCrypto_filters ..
  rw [current]
  generalize
    pipelineInboundPreCrypto env w.engine.filters
      (some (w.engine.pool i)) p = pre at moved tables ⊢
  obtain ⟨result, filters, sess, view⟩ := pre
  cases moved with
  | some moved =>
      have alike := moved.alike
      apply inv.moved
      · exact sameInbound_afterGates _ _
      · simp [Engine.afterGates, inv.session, Engine.setSession]
      · simp [Engine.afterGates, inv.session, Engine.setSession]
      · rw [tables]
        simp [Engine.afterGates, inv.session]
      · simpa [Engine.afterGates, inv.session, Engine.setSession] using alike
      · exact receivesAlike_pipelineInboundProcess ..

theorem RefinesInv.inbound
    (inv : RefinesInv C i w) {env : PollEnv} {rxq : RxQueues} {p : PacketBuf}
    (faithful : FaithfulArrival C w env rxq p) :
    RefinesInv C i
      ({ w with engine := w.engine.inbound C env p }.process C env.inbound rxq
        p) := by
  have gated := inv.afterGates env.inbound rxq p
  have current :
      w.engine.session.map w.engine.pool = some (w.engine.pool i) := by
    rw [inv.session]
    rfl
  have locked := inv.alike.state.trans inv.locked
  have single := inv.alike.multipath.trans inv.single
  have kept : ReceivesAlike w.sess _ :=
    receivesAlike_pipelineInboundProcess (C := C) env.inbound w.filters w.sess
      rxq p
  unfold ReceiveWorld.process
  dsimp only
  rcases pipelineInboundPreCrypto_cases env.inbound w.engine.filters
      (some (w.engine.pool i)) p with
    ⟨-, stopped, -⟩ | ⟨s, view, s', same, -, reached, -, passes⟩
  · -- The gates of the pipeline stop the packet too.
    have nothing :
        (pipelineInboundProcess C env.inbound w.filters w.sess rxq
          p).2.2.deliveries rxq = [] := by
      rcases pipelineInboundPreCrypto_cases env.inbound w.filters
          (some w.sess) p with
        ⟨-, stopped', -⟩ | ⟨s, view, s', same, -, -, -, gates⟩
      · obtain ⟨-, -, recovered, queues⟩ :=
          pipelineInboundProcess_stopped C stopped' rxq
        simp [PostCrypto.deliveries, recovered, queues, RxQueues.news_refl]
      · cases same
        obtain ⟨t, passes⟩ :=
          inv.alike.passesGates inv.locked inv.single gates
        rw [inv.filters] at passes
        rw [passes.preCrypto.1] at stopped
        cases stopped
    rw [← current] at stopped
    rw [nothing, List.append_nil, Engine.inbound_stopped stopped]
    dsimp only
    split
    · exact gated.of_frame (receiveFrame_dropControl _ _ _)
    · exact gated
  · cases same
    rw [← inv.filters] at passes
    obtain ⟨sess', gates⟩ :=
      inv.alike.symm.passesGates locked single passes
    have parsed := gates.parse inv.single
    have fields := parsedAs_of_packetParse parsed
    rw [← current] at reached
    rw [faithful.deliveries inv.single gates,
      Engine.inbound_passes inv.session reached]
    dsimp only
    obtain ⟨-, agrees⟩ := faithful view sess' gates
    have alike :=
      gates.reassembles.alike.trans (receivesAlike_drainRecovered C sess')
    cases encrypted : view.encrypted with
    | true =>
        rw [if_pos rfl]
        have cipher :
            opened C w.sess p = (cipherStage C w.sess view).2.map (·.buf) := by
          simp [opened, parsed, cipherStage, encrypted]
        have room :
            (opened C w.sess p).isSome →
              ringFull w.engine.cryptoRing = false := by
          intro opens
          rw [cipher, Option.isSome_map] at opens
          obtain ⟨view', passed⟩ := Option.isSome_iff_exists.mp opens
          exact
            (agrees view' ((alike.cipherStage C view).trans passed)).room
              encrypted
        have pushed :=
          gated.push p
            (by
              rw [opened_congr C kept, (sameInbound_afterGates _ _).cryptoRing]
              exact room)
        rw [opened_congr C kept, cipher, Option.toList_map, List.flatMap_map,
          Engine.afterGates_role] at pushed
        exact pushed
    | false =>
        rw [if_neg Bool.false_ne_true]
        have passed (s : Session) : (cipherStage C s view).2 = some view := by
          simp [cipherStage, encrypted]
        have handed :=
          gated.hand env.packet (p := p) .direct fun control =>
            ((agrees view (passed _)).harmless encrypted
              (fields.channelId.trans control)).congr kept
        rw [Engine.afterGates_role] at handed
        rw [passed, Option.toList_some, List.flatMap_cons, List.flatMap_nil,
          List.append_nil, fields.buf]
        exact handed

/-! ### Polls and runs -/

theorem transportEnginePoll_next
    {e : Engine} {env : PollEnv} {p : PacketBuf} (quiet : e.events = [])
    (next : (e.takeResult C env.result).nextPacket = some p) :
    ∃ rings,
      (transportEnginePoll C env e).2.2 =
        { e.takeResult C env.result with rxRings := rings }.inbound C env
          p := by
  unfold Engine.nextPacket at next
  unfold transportEnginePoll
  rw [quiet]
  dsimp only
  cases ring : (e.takeResult C env.result).rxRing with
  | none =>
      rw [ring] at next
      cases next
  | some j =>
      rw [ring, Option.bind_some] at next
      dsimp only
      obtain ⟨rest, items⟩ := List.head?_eq_some_iff.mp next
      rw [items]
      exact ⟨_, rfl⟩

theorem transportEnginePoll_idle
    {e : Engine} {env : PollEnv} (quiet : e.events = [])
    (idle : (e.takeResult C env.result).nextPacket = none) :
    (transportEnginePoll C env e).2.2 =
      (e.takeResult C env.result).ticks C env := by
  unfold Engine.nextPacket at idle
  unfold transportEnginePoll
  rw [quiet]
  dsimp only
  cases ring : (e.takeResult C env.result).rxRing with
  | none =>
      rfl
  | some j =>
      -- The ring that was found has a packet.
      have found := List.find?_some ring
      rw [ring, Option.bind_some, List.head?_eq_none_iff] at idle
      rw [idle] at found
      cases found

theorem RefinesInv.poll
    (inv : RefinesInv C i w) {env : PollEnv} {rxq : RxQueues}
    (faithful : FaithfulStep C w (.poll env rxq)) :
    RefinesInv C i (w.poll C env rxq) := by
  unfold ReceiveWorld.poll
  simp only [Engine.step]
  cases pending : w.engine.events with
  | cons event rest =>
      dsimp only
      apply inv.of_frame
      unfold transportEnginePoll
      rw [pending]
      exact ReceiveFrame.of_pool ⟨⟨rfl, rfl, rfl⟩, rfl, rfl, rfl⟩ rfl
  | nil =>
      obtain ⟨hand, next⟩ := faithful.2 pending
      have taken := inv.takeResult hand
      unfold FaithfulNext at next
      dsimp only at next ⊢
      cases found : (w.engine.takeResult C env.result).nextPacket with
      | none =>
          rw [found] at next
          dsimp only
          rw [transportEnginePoll_idle pending found]
          apply taken.of_frame
          apply receiveFrame_ticks taken.session
          apply next
          rw [Engine.current, taken.session]
          rfl
      | some p =>
          rw [found] at next
          dsimp only
          obtain ⟨rings, polled⟩ := transportEnginePoll_next pending found
          rw [polled]
          have popped :=
            taken.of_frame
              (e := { w.engine.takeResult C env.result with
                rxRings := rings })
              (ReceiveFrame.of_pool ⟨⟨rfl, rfl, rfl⟩, rfl, rfl, rfl⟩ rfl)
          apply popped.inbound
          intro view sess' gates
          obtain ⟨quiet, agrees⟩ := next view sess' gates
          refine ⟨quiet, fun view' passed => ?_⟩
          have packet := agrees view' passed
          exact ⟨packet.fresh, packet.served, packet.room, packet.harmless⟩

theorem RefinesInv.step
    (inv : RefinesInv C i w) {act : ReceiveAct}
    (faithful : FaithfulStep C w act) : RefinesInv C i (w.step C act) := by
  cases act with
  | receive path p =>
      exact inv.of_frame
        (ReceiveFrame.of_pool ⟨⟨rfl, rfl, rfl⟩, rfl, rfl, rfl⟩ rfl)
  | poll env rxq =>
      exact inv.poll faithful
  | cryptoWork =>
      exact inv.cryptoWork faithful

theorem RefinesInv.run
    (inv : RefinesInv C i w) {acts : List ReceiveAct}
    (faithful : FaithfulRun C w acts) : RefinesInv C i (w.run C acts) := by
  induction acts generalizing w with
  | nil =>
      exact inv
  | cons act acts hypothesis =>
      exact hypothesis (inv.step faithful.1) faithful.2

theorem refinesInv_start
    {e : Engine} {s : Session} (session : e.session = some i)
    (current : e.pool i = s) (locked : s.state = .locked)
    (single : s.resilience.multipathEnabled = false)
    (crypto : e.cryptoRing = []) (results : e.resultRing = []) :
    RefinesInv C i (ReceiveWorld.start e s) where
  session := session
  filters := rfl
  alike := by
    rw [ReceiveWorld.start, current]
    exact ReceivesAlike.refl s
  locked := locked
  single := single
  jobs := by
    simp [ReceiveWorld.start, crypto]
  old := Nat.le_refl _
  balance := by
    simp [ReceiveWorld.start, Engine.deliveries, Engine.inFlight, crypto,
      results]

end

/-- On a locked session with one path, in every faithful run of the engine and
its threads, whatever their order, the engine delivers what the pipeline
delivers. -/
theorem engine_refines_pipeline
    (C : CryptoSuite) {e : Engine} {s : Session} (current : e.current = some s)
    (locked : s.state = .locked)
    (single : s.resilience.multipathEnabled = false)
    (crypto : e.cryptoRing = []) (results : e.resultRing = [])
    (acts : List ReceiveAct)
    (faithful : FaithfulRun C (ReceiveWorld.start e s) acts) :
    Refines ((ReceiveWorld.start e s).run C acts) := by
  obtain ⟨i, session, pool⟩ := Option.map_eq_some_iff.mp current
  have inv :=
    (refinesInv_start (C := C) session pool locked single crypto
      results).run faithful
  have fresh := deliversFresh_run C (w := ReceiveWorld.start e s) single acts
  generalize (ReceiveWorld.start e s).run C acts = w at inv fresh ⊢
  have sound :
      List.Subperm (w.engine.deliveries w.old) w.delivered :=
    (List.sublist_append_left _ _).subperm.trans inv.balance.subperm
  refine ⟨sound, fun noJobs noResults => ?_, ?_⟩
  · have balance := inv.balance
    simpa [Engine.inFlight, noJobs, noResults] using balance
  · obtain ⟨new, admitted, delivered, sublist, taken⟩ := fresh.taken
    have numbers : (w.delivered.map fun d => packetSeq d.2).Nodup := by
      rw [delivered]
      have nodup := taken.nodup.sublist sublist
      unfold entriesOf at nodup
      apply List.Nodup.of_map fun seq : UInt32 =>
        ((none : Option Nat), seq.toNat)
      rw [ReceiveWorld.start, List.nil_append, List.map_map]
      exact nodup
    obtain ⟨items, perm, sublist'⟩ := sound
    rw [← (perm.map _).nodup_iff]
    exact numbers.sublist (sublist'.map _)

/-! ## Runs of data packets -/

section

variable (C : CryptoSuite)

/-- A check of `FaithfulArrival` for anything but messages in the clear. -/
def arrivalChecks (w : ReceiveWorld) (env : PollEnv) (rxq : RxQueues)
    (p : PacketBuf) : Bool :=
  let pre := pipelineInboundPreCrypto env.inbound w.filters (some w.sess) p
  match pre.view, pre.sess with
  | some view, some sess' =>
      let drained := drainRecovered C sess'
      let stage := cipherStage C drained.1 view
      drained.2.isNone &&
        (view.encrypted || view.channelId != chControl) &&
        stage.2.all fun view' =>
          (seqCheck stage.1 view').2 &&
            (rxDemuxPush rxq view'.buf view'.channelId).1 ==
              handlerServes w.engine.roleInitiator view'.channelId &&
            !ringFull w.engine.cryptoRing
  | _, _ => true

theorem faithfulArrival_of_checks
    {w : ReceiveWorld} {env : PollEnv} {rxq : RxQueues} {p : PacketBuf}
    (checks : arrivalChecks C w env rxq p = true) :
    FaithfulArrival C w env rxq p := by
  intro view sess' gates
  obtain ⟨reached, kept⟩ := gates.preCrypto
  simp only [arrivalChecks, reached, kept, Bool.and_eq_true,
    Option.isNone_iff_eq_none, Bool.or_eq_true, bne_iff_ne] at checks
  obtain ⟨⟨quiet, data⟩, rest⟩ := checks
  refine ⟨quiet, fun view' passed => ?_⟩
  rw [passed] at rest
  simp only [Option.all_some, Bool.and_eq_true, beq_iff_eq,
    Bool.not_eq_true'] at rest
  obtain ⟨⟨fresh, served⟩, room⟩ := rest
  refine ⟨fresh, served, fun _ => room, fun plain control => ?_⟩
  rcases data with sealed | other
  · rw [plain] at sealed
    cases sealed
  · exact absurd control other

/-- A check of `FaithfulStep` for runs without messages in the clear. -/
def stepChecks (w : ReceiveWorld) : ReceiveAct → Bool
  | .receive _ _ => true
  | .poll env rxq =>
      let taken := { w with engine := w.engine.takeResult C env.result }
      decide (w.engine.PollKeepsBuffers C env) &&
        (!w.engine.events.isEmpty ||
          (w.engine.resultRing.head?.all fun result =>
            result.1.data 14 != chControl) &&
          match taken.engine.nextPacket with
          | some p => arrivalChecks C taken env rxq p
          | none =>
              taken.engine.current.all fun s =>
                decide
                  (s.reconnectAttempts < s.resilience.maxReconnectAttempts))
  | .cryptoWork => !ringFull w.engine.resultRing

def runChecks : ReceiveWorld → List ReceiveAct → Bool
  | _, [] => true
  | w, act :: acts => stepChecks C w act && runChecks (w.step C act) acts

theorem faithfulStep_of_checks
    {w : ReceiveWorld} {act : ReceiveAct}
    (checks : stepChecks C w act = true) : FaithfulStep C w act := by
  cases act with
  | receive path p =>
      trivial
  | poll env rxq =>
      simp only [stepChecks, Bool.and_eq_true, decide_eq_true_eq] at checks
      obtain ⟨kept, checks⟩ := checks
      refine ⟨kept, fun quiet => ?_⟩
      simp only [quiet, List.isEmpty_nil, Bool.not_true, Bool.false_or,
        Bool.and_eq_true] at checks
      obtain ⟨hand, next⟩ := checks
      constructor
      · intro result member control
        rw [Option.mem_def] at member
        rw [member, Option.all_some] at hand
        simp [control] at hand
      · unfold FaithfulNext
        dsimp only
        split
        · rename_i p found
          rw [found] at next
          exact faithfulArrival_of_checks C next
        · rename_i idle
          rw [idle] at next
          intro s member
          rw [Option.mem_def] at member
          rw [member, Option.all_some] at next
          have left :
              s.reconnectAttempts < s.resilience.maxReconnectAttempts :=
            of_decide_eq_true next
          exact left
  | cryptoWork =>
      intro job member opens
      simpa [stepChecks] using checks

theorem faithfulRun_of_checks
    {w : ReceiveWorld} {acts : List ReceiveAct}
    (checks : runChecks C w acts = true) : FaithfulRun C w acts := by
  induction acts generalizing w with
  | nil =>
      trivial
  | cons act acts hypothesis =>
      simp only [runChecks, Bool.and_eq_true] at checks
      exact ⟨faithfulStep_of_checks C checks.1, hypothesis checks.2⟩

end

/-- A responder with a locked session, before any packet. -/
def receivingEngine : Engine :=
  { transportEngineInit sampleConfig false false with
    pool := fun _ => sampleLocked
    sessionCount := 1
    session := some 0
    seqCounter := 1
    sessionIsLocked := true }

/-- A sealed chat message with a number. -/
def numberedChat (seq : UInt32) : PacketBuf :=
  sealTx sampleSuite
    ((buildPacket default true 0 77 chChat seq [0x68, 0x69, 0]).sendTo
      (resolvePeer sampleConnect.address 9000))
    sampleLocked

/-- A poll with buffers for the rebuilt packets. -/
def bufferedPoll : ReceiveAct :=
  .poll
    { samplePoll with
      inbound :=
        { now := 5000, dataBuf := some default, parityBuf := some default } }
    {}

/-- A packet arrives, is decrypted, handed on and its event taken. -/
def throughEngine (p : PacketBuf) : List ReceiveAct :=
  [.receive 0 p, bufferedPoll, .cryptoWork, bufferedPoll, bufferedPoll]

/-- What both have made of some packets. -/
def receiveSample (packets : List PacketBuf) : ReceiveWorld :=
  (ReceiveWorld.start receivingEngine sampleLocked).run sampleSuite
    (packets.flatMap throughEngine)

theorem engine_refines_pipeline_chats :
    Refines (receiveSample [numberedChat 8, numberedChat 9]) ∧
      (receiveSample [numberedChat 8, numberedChat 9]).delivered.map
          (fun d => (d.1, packetSeq d.2)) =
        [(chChat, 8), (chChat, 9)] := by
  constructor
  · apply engine_refines_pipeline sampleSuite rfl rfl rfl rfl rfl
    apply faithfulRun_of_checks
    decide +kernel
  · decide +kernel

/-- The parity of the messages 8 and 9, as the peer sends it. -/
def chatParity : PacketBuf :=
  let peer := { sampleLocked with resilience := { fecGroupSize := 2 } }
  let addr := resolvePeer sampleConnect.address 9000
  let first :=
    fecTxAfterEncrypt (numberedChat 8) peer chChat 8 (some default) addr
  let second :=
    fecTxAfterEncrypt (numberedChat 9) first.1 chChat 9 (some default) addr
  second.2.getD default

/-- A replayed message is delivered twice, and a lost one that the pipeline
rebuilds is not delivered. -/
theorem replay_and_rebuild_differ :
    ¬ Refines (receiveSample [numberedChat 8, numberedChat 8]) ∧
      ¬ Refines
        (receiveSample [numberedChat 8, chatParity, numberedChat 10]) := by
  constructor
  · intro refines
    exact absurd refines.once (by decide +kernel)
  · intro refines
    have same :=
      refines.complete (List.isEmpty_iff.mp (by decide +kernel))
        (List.isEmpty_iff.mp (by decide +kernel))
    exact absurd same.length_eq (by decide +kernel)

end PqComm
