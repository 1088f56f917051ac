import PqComm.Layers.Replay
import PqComm.Pipeline.Delivery

/-!
# Replay protection over runs of the pipeline

A packet and the packet rebuilt from parity enter the replay window through
the same `seq_check`, one call after the other.  Read with the windows of
`Layers.Replay`, a run of `pipeline_inbound_process` takes the numbers it
delivers one by one, each of them fresh, so no window delivers a number twice.
The window of a packet is that of the path it arrived on.
-/

namespace PqComm

open Lib

/-! ## What selects a window and what it holds -/

/-- `s'` selects paths as `s` does. -/
structure SameRouting (s s' : Session) : Prop where
  multipath :
    s'.resilience.multipathEnabled = s.resilience.multipathEnabled
  pathCount : s'.resilience.pathCount = s.resilience.pathCount
  peerAddrs : s'.peerAddrs = s.peerAddrs
  peerAddrLens : s'.peerAddrLens = s.peerAddrLens

theorem SameRouting.refl (s : Session) : SameRouting s s :=
  ⟨rfl, rfl, rfl, rfl⟩

theorem SameRouting.trans
    {s t u : Session} (first : SameRouting s t) (second : SameRouting t u) :
    SameRouting s u where
  multipath := second.multipath.trans first.multipath
  pathCount := second.pathCount.trans first.pathCount
  peerAddrs := second.peerAddrs.trans first.peerAddrs
  peerAddrLens := second.peerAddrLens.trans first.peerAddrLens

/-- `s'` has the replay windows of `s`, its own and those of the paths. -/
structure SameReplay (s s' : Session) : Prop where
  lastSeq : s'.lastSeq = s.lastSeq
  recvBitmap : s'.recvBitmap = s.recvBitmap
  pathLastSeq : ∀ i,
    (s'.resilience.paths i).lastSeq = (s.resilience.paths i).lastSeq
  pathBitmap : ∀ i,
    (s'.resilience.paths i).recvBitmap = (s.resilience.paths i).recvBitmap

theorem SameReplay.refl (s : Session) : SameReplay s s :=
  ⟨rfl, rfl, fun _ => rfl, fun _ => rfl⟩

theorem SameReplay.trans
    {s t u : Session} (first : SameReplay s t) (second : SameReplay t u) :
    SameReplay s u where
  lastSeq := second.lastSeq.trans first.lastSeq
  recvBitmap := second.recvBitmap.trans first.recvBitmap
  pathLastSeq := fun i => (second.pathLastSeq i).trans (first.pathLastSeq i)
  pathBitmap := fun i => (second.pathBitmap i).trans (first.pathBitmap i)

theorem SameReplay.windows
    {s s' : Session} (same : SameReplay s s') : s'.windows = s.windows := by
  funext i
  cases i with
  | none =>
      simp only [Session.windows, same.lastSeq, same.recvBitmap]
  | some i =>
      simp only [Session.windows, same.pathLastSeq i, same.pathBitmap i]

theorem SameRouting.windowOf
    {s s' : Session} (same : SameRouting s s') (pathIdx : Nat) :
    windowOf s' pathIdx = PqComm.windowOf s pathIdx := by
  simp only [PqComm.windowOf, same.multipath, same.pathCount]

/-- The verdict of `seq_check` depends on nothing else. -/
theorem seqCheck_verdict_congr
    {s s' : Session} (routing : SameRouting s s') (replay : SameReplay s s')
    (v : PacketView) : (seqCheck s' v).2 = (seqCheck s v).2 := by
  simp only [seqCheck, routing.multipath, routing.pathCount, replay.lastSeq,
    replay.recvBitmap, replay.pathLastSeq, replay.pathBitmap]
  split
  · rfl
  · split <;> rfl

/-! ## The stages -/

theorem Reassembles.routing
    {s s' : Session} (moved : Reassembles s s') : SameRouting s s' where
  multipath := moved.windows.multipath
  pathCount := moved.windows.pathCount
  peerAddrs := by rw [moved.rest]
  peerAddrLens := by rw [moved.rest]

theorem Reassembles.replay
    {s s' : Session} (moved : Reassembles s s') : SameReplay s s' where
  lastSeq := by rw [moved.rest]
  recvBitmap := by rw [moved.rest]
  pathLastSeq := moved.windows.lastSeq
  pathBitmap := moved.windows.recvBitmap

section

variable (C : CryptoSuite)

theorem sessionEncCheck_session (v : PacketView) (sess : Session) :
    ∃ hs, (sessionEncCheck C v sess).1 = { sess with hs := hs } := by
  unfold sessionEncCheck
  split
  · exact ⟨sess.hs, rfl⟩
  · split
    · exact ⟨sess.hs, rfl⟩
    · split
      · exact ⟨_, rfl⟩
      · exact ⟨sess.hs, rfl⟩

theorem sessionEncCheck_routing (v : PacketView) (sess : Session) :
    SameRouting sess (sessionEncCheck C v sess).1 := by
  obtain ⟨hs, same⟩ := sessionEncCheck_session C v sess
  rw [same]
  exact ⟨rfl, rfl, rfl, rfl⟩

theorem sessionEncCheck_replay (v : PacketView) (sess : Session) :
    SameReplay sess (sessionEncCheck C v sess).1 := by
  obtain ⟨hs, same⟩ := sessionEncCheck_session C v sess
  rw [same]
  exact ⟨rfl, rfl, fun _ => rfl, fun _ => rfl⟩

theorem seqCheck_routing (s : Session) (v : PacketView) :
    SameRouting s (seqCheck s v).1 := by
  unfold seqCheck
  split
  · exact SameRouting.refl s
  · split <;> exact ⟨rfl, rfl, rfl, rfl⟩

/-- Decryption in place rewrites the payload and clears the flag of the
view. -/
theorem sessionEncCheck_view
    {v v' : PacketView} {sess : Session}
    (checked : (sessionEncCheck C v sess).2 = some v') :
    v' = { v with encrypted := v'.encrypted, buf := v'.buf } ∧
      (headerSize ≤ v.payload →
        ∀ i, i < headerSize → v'.buf.data i = v.buf.data i) := by
  unfold sessionEncCheck at checked
  split at checked
  · cases checked
    exact ⟨rfl, fun _ _ _ => rfl⟩
  · split at checked
    · cases checked
      exact ⟨rfl, fun _ _ _ => rfl⟩
    · split at checked
      · cases checked
      · cases checked
        refine ⟨rfl, fun behind i inside => ?_⟩
        exact memWrite_before (Nat.lt_of_lt_of_le inside behind)

/-- The number of a decrypted packet is that of the packet received. -/
theorem packetSeq_of_sessionEncCheck
    {p : PacketBuf} {v v' : PacketView} {sess : Session}
    (parsed : packetParse p = some v)
    (checked : (sessionEncCheck C v sess).2 = some v') :
    v'.seq = packetSeq p ∧ v'.pathIdx = 0 ∧
      packetSeq v'.buf = packetSeq p := by
  obtain ⟨rest, header⟩ := sessionEncCheck_view C checked
  obtain ⟨seq, path⟩ := seq_of_packetParse parsed
  have buf := (parsedAs_of_packetParse parsed).buf
  have behind := payload_of_packetParse parsed
  refine ⟨?_, ?_, ?_⟩
  · rw [rest]
    exact seq
  · rw [rest]
    exact path
  · unfold packetSeq
    congr 2
    apply memSlice_congr
    intro i _ upper
    rw [header behind i (by unfold headerSize; omega), buf]

/-- The entry a rebuilt packet has in the windows. -/
def recoveredEntries (s : Session) (recovered : Option PacketBuf) :
    List (Option Nat × Nat) :=
  recovered.toList.map fun buf => (windowOf s 0, (packetSeq buf).toNat)

theorem processFecRecovered_admits (sess : Session) (rec : PacketBuf) :
    SameRouting sess (processFecRecovered C sess rec).1 ∧
      Admits replayWindowSize sess.windows
        (recoveredEntries sess (processFecRecovered C sess rec).2)
        (processFecRecovered C sess rec).1.windows := by
  unfold processFecRecovered
  cases parsed : packetParse rec with
  | none =>
      exact ⟨SameRouting.refl sess, Admits.refl sess.windows⟩
  | some view =>
      dsimp only
      split
      · exact ⟨SameRouting.refl sess, Admits.refl sess.windows⟩
      · have routing := sessionEncCheck_routing C view sess
        have replay := sessionEncCheck_replay C view sess
        cases checked : (sessionEncCheck C view sess).2 with
        | none =>
            refine ⟨routing, ?_⟩
            dsimp only
            rw [replay.windows]
            exact Admits.refl sess.windows
        | some view' =>
            refine ⟨routing.trans (seqCheck_routing _ view'), ?_⟩
            obtain ⟨seq, path, number⟩ :=
              packetSeq_of_sessionEncCheck C parsed checked
            have taken := seqCheck_admits (sessionEncCheck C view sess).1 view'
            rw [replay.windows, routing.windowOf, path, seq, ← number]
              at taken
            cases verdict : (seqCheck (sessionEncCheck C view sess).1 view').2
            · simpa [verdict, recoveredEntries] using taken
            · simpa [verdict, recoveredEntries] using taken

theorem drainRecovered_admits (sess : Session) :
    SameRouting sess (drainRecovered C sess).1 ∧
      Admits replayWindowSize sess.windows
        (recoveredEntries sess (drainRecovered C sess).2)
        (drainRecovered C sess).1.windows := by
  unfold drainRecovered
  cases sess.fecRecovered with
  | none =>
      exact ⟨SameRouting.refl sess, Admits.refl sess.windows⟩
  | some rec =>
      obtain ⟨routing, taken⟩ :=
        processFecRecovered_admits C { sess with fecRecovered := none } rec
      exact ⟨⟨routing.multipath, routing.pathCount, routing.peerAddrs,
        routing.peerAddrLens⟩, taken⟩

/-- The decryption step of `pipeline_inbound_post_crypto`. -/
def cipherStage (sess : Session) (view : PacketView) :
    Session × Option PacketView :=
  if view.encrypted then
    sessionEncCheck C view sess
  else
    (sess, some view)

theorem cipherStage_routing (sess : Session) (view : PacketView) :
    SameRouting sess (cipherStage C sess view).1 := by
  unfold cipherStage
  split
  · exact sessionEncCheck_routing C view sess
  · exact SameRouting.refl sess

theorem cipherStage_replay (sess : Session) (view : PacketView) :
    SameReplay sess (cipherStage C sess view).1 := by
  unfold cipherStage
  split
  · exact sessionEncCheck_replay C view sess
  · exact SameReplay.refl sess

theorem cipherStage_view
    {sess : Session} {view view' : PacketView}
    (opened : (cipherStage C sess view).2 = some view') :
    view'.seq = view.seq ∧ view'.pathIdx = view.pathIdx := by
  unfold cipherStage at opened
  split at opened
  · rw [(sessionEncCheck_view C opened).1]
    exact ⟨rfl, rfl⟩
  · cases opened
    exact ⟨rfl, rfl⟩

/-- What `pipeline_inbound_post_crypto` can do. -/
theorem pipelineInboundPostCrypto_cases
    (sess : Session) (rxq : RxQueues) (view : PacketView) :
    (pipelineInboundPostCrypto C sess rxq view).recovered =
        (drainRecovered C sess).2 ∧
      (((cipherStage C (drainRecovered C sess).1 view).2 = none ∧
          (pipelineInboundPostCrypto C sess rxq view).result =
            .dropSessionEnc ∧
          (pipelineInboundPostCrypto C sess rxq view).sess =
            (cipherStage C (drainRecovered C sess).1 view).1) ∨
        ∃ view',
          (cipherStage C (drainRecovered C sess).1 view).2 = some view' ∧
          (pipelineInboundPostCrypto C sess rxq view).sess =
            (seqCheck (cipherStage C (drainRecovered C sess).1 view).1
              view').1 ∧
          (pipelineInboundPostCrypto C sess rxq view).result =
            if (seqCheck (cipherStage C (drainRecovered C sess).1 view).1
                view').2 then
              if (rxDemuxPush rxq view'.buf view'.channelId).1 then .ok
              else .dropDemux
            else
              .dropSeq) := by
  unfold pipelineInboundPostCrypto
  cases opened : (cipherStage C (drainRecovered C sess).1 view).2 with
  | none =>
      have stage := opened
      unfold cipherStage at stage
      simp only [stage]
      exact ⟨trivial, Or.inl ⟨trivial, trivial, rfl⟩⟩
  | some view' =>
      have stage := opened
      unfold cipherStage at stage
      simp only [stage]
      cases fresh : (seqCheck (cipherStage C (drainRecovered C sess).1
          view).1 view').2 with
      | false =>
          have verdict := fresh
          unfold cipherStage at verdict
          simp only [verdict]
          refine ⟨rfl, Or.inr ⟨view', rfl, rfl, ?_⟩⟩
          rw [fresh]
          rfl
      | true =>
          have verdict := fresh
          unfold cipherStage at verdict
          simp only [verdict]
          refine ⟨rfl, Or.inr ⟨view', rfl, rfl, ?_⟩⟩
          rw [fresh]
          rfl

/-- What `pipeline_inbound_post_crypto` delivers is among the numbers it
takes; a packet whose queue is full has been taken and is not delivered. -/
theorem pipelineInboundPostCrypto_admits
    (sess : Session) (rxq : RxQueues) (view : PacketView) :
    SameRouting sess (pipelineInboundPostCrypto C sess rxq view).sess ∧
      ∃ admitted,
        List.Sublist
          (recoveredEntries sess
              (pipelineInboundPostCrypto C sess rxq view).recovered ++
            if (pipelineInboundPostCrypto C sess rxq view).result = .ok then
              [(windowOf sess view.pathIdx, view.seq.toNat)]
            else
              [])
          admitted ∧
        Admits replayWindowSize sess.windows admitted
          (pipelineInboundPostCrypto C sess rxq view).sess.windows := by
  obtain ⟨routing, drained⟩ := drainRecovered_admits C sess
  have routing' :=
    routing.trans (cipherStage_routing C (drainRecovered C sess).1 view)
  have windows :=
    (cipherStage_replay C (drainRecovered C sess).1 view).windows
  obtain ⟨recovered, cases⟩ := pipelineInboundPostCrypto_cases C sess rxq view
  rw [recovered]
  rcases cases with ⟨-, result, kept⟩ | ⟨view', opened, kept, result⟩
  · rw [result, kept, windows]
    exact ⟨routing', _, List.Sublist.refl _, by simpa using drained⟩
  · obtain ⟨seq, path⟩ := cipherStage_view C opened
    have taken :=
      seqCheck_admits (cipherStage C (drainRecovered C sess).1 view).1 view'
    rw [windows, routing'.windowOf, path, seq] at taken
    rw [result, kept]
    refine ⟨routing'.trans (seqCheck_routing _ view'), _, ?_,
      drained.append taken⟩
    apply List.Sublist.append_left
    split
    · split
      · exact List.Sublist.refl _
      · exact List.nil_sublist _
    · exact List.nil_sublist _

/-- A packet is stopped by the gates, which deliver nothing and leave the
windows alone, or reaches `pipeline_inbound_post_crypto`. -/
theorem pipelineInboundProcess_cases
    (env : InboundEnv) (filters : Filters) (sess : Session) (rxq : RxQueues)
    (p : PacketBuf) :
    ((pipelineInboundProcess C env filters sess rxq p).1.beforeCipher ∧
        (pipelineInboundProcess C env filters sess rxq p).2.2.recovered =
          none ∧
        Reassembles sess
          (pipelineInboundProcess C env filters sess rxq p).2.2.sess) ∨
      ∃ view sess', PassesGates env filters sess p view sess' ∧
        (pipelineInboundProcess C env filters sess rxq p).1 =
          (pipelineInboundPostCrypto C sess' rxq view).result ∧
        (pipelineInboundProcess C env filters sess rxq p).2.2 =
          pipelineInboundPostCrypto C sess' rxq view := by
  unfold pipelineInboundProcess
  rcases pipelineInboundPreCrypto_cases env filters (some sess) p with
    ⟨early, noView, moved⟩ | ⟨s, view, sess', same, _, reached, kept, gates⟩
  · simp only [noView]
    cases kept : (pipelineInboundPreCrypto env filters (some sess) p).sess with
    | none =>
        rw [kept] at moved
        cases moved
    | some s' =>
        rw [kept] at moved
        cases moved with
        | some moved =>
            exact Or.inl ⟨early, rfl, moved⟩
  · cases same
    simp only [reached, kept]
    exact Or.inr ⟨view, sess', gates, rfl, rfl⟩

end

/-! ## Runs -/

/-- The path a packet is attributed to. -/
def arrivalPath (s : Session) (p : PacketBuf) : Nat :=
  if p.data 14 ≠ chControl ∧ s.resilience.multipathEnabled then
    (matchPath s (sinPort p.addr)).getD 0
  else
    0

theorem SameRouting.arrivalPath
    {s s' : Session} (same : SameRouting s s') (p : PacketBuf) :
    arrivalPath s' p = PqComm.arrivalPath s p := by
  simp only [PqComm.arrivalPath, matchPath, same.multipath, same.pathCount,
    same.peerAddrs, same.peerAddrLens]

/-- One call of `pipeline_inbound_process`.  The receive queues are an input,
since their consumers run between the calls. -/
structure InboundCall where
  env : InboundEnv
  rxq : RxQueues
  packet : PacketBuf

/-- What one call made of its packet. -/
structure InboundOutcome where
  packet : PacketBuf
  result : PipelineResult
  recovered : Option PacketBuf

/-- The outcomes of a sequence of calls on one session. -/
def inboundRun (C : CryptoSuite) :
    Filters → Session → List InboundCall → List InboundOutcome
  | _, _, [] => []
  | filters, sess, call :: calls =>
      let processed :=
        pipelineInboundProcess C call.env filters sess call.rxq call.packet
      { packet := call.packet
        result := processed.1
        recovered := processed.2.2.recovered } ::
        inboundRun C processed.2.1 processed.2.2.sess calls

/-- The sequence numbers one call delivered. -/
def InboundOutcome.seqs (outcome : InboundOutcome) : List UInt32 :=
  outcome.recovered.toList.map packetSeq ++
    if outcome.result = .ok then [packetSeq outcome.packet] else []

/-- The same numbers with the windows they were checked against. -/
def InboundOutcome.entries (s : Session) (outcome : InboundOutcome) :
    List (Option Nat × Nat) :=
  recoveredEntries s outcome.recovered ++
    if outcome.result = .ok then
      [(windowOf s (arrivalPath s outcome.packet),
        (packetSeq outcome.packet).toNat)]
    else
      []

theorem SameRouting.entries
    {s s' : Session} (same : SameRouting s s') (outcome : InboundOutcome) :
    outcome.entries s' = outcome.entries s := by
  simp only [InboundOutcome.entries, recoveredEntries, same.windowOf,
    same.arrivalPath]

/-- The view that passes the gates has the path of the packet. -/
theorem PassesGates.pathIdx
    {env : InboundEnv} {filters : Filters} {sess : Session} {p : PacketBuf}
    {view : PacketView} {sess' : Session}
    (gates : PassesGates env filters sess p view sess') :
    view.pathIdx = arrivalPath sess p ∧ view.seq = packetSeq p := by
  obtain ⟨raw, parsed, _, _, _, _, checked⟩ := gates.parsed
  obtain ⟨seq, path⟩ := seq_of_packetParse parsed
  have fields := parsedAs_of_packetParse parsed
  have rest := sessionCheck_view checked
  refine ⟨?_, by rw [rest]; exact seq⟩
  unfold arrivalPath
  rw [← fields.channelId, ← fields.buf]
  rcases sessionCheck_cases checked with
    ⟨control, rfl⟩ | ⟨data, ⟨multipath, i, found, rfl⟩ | ⟨single, rfl⟩⟩
  · -- A control packet keeps the index zero of the parser.
    rw [if_neg (by simp [control])]
    exact path
  · rw [if_pos ⟨data, multipath⟩, found]
    rfl
  · rw [if_neg (fun both => single both.2)]

/-- What one call delivers is among the numbers it takes. -/
theorem pipelineInboundProcess_admits
    (C : CryptoSuite) (filters : Filters) (sess : Session)
    (call : InboundCall) :
    let processed :=
      pipelineInboundProcess C call.env filters sess call.rxq call.packet
    SameRouting sess processed.2.2.sess ∧
      ∃ admitted,
        List.Sublist
          (InboundOutcome.entries sess
            ⟨call.packet, processed.1, processed.2.2.recovered⟩)
          admitted ∧
        Admits replayWindowSize sess.windows admitted
          processed.2.2.sess.windows := by
  intro processed
  rcases pipelineInboundProcess_cases C call.env filters sess call.rxq
      call.packet with
    ⟨early, recovered, moved⟩ | ⟨view, sess', gates, result, post⟩
  · have refused : processed.1 ≠ .ok := by
      intro ok
      rw [ok] at early
      cases early
    refine ⟨moved.routing, [], ?_, ?_⟩
    · simp only [InboundOutcome.entries, refused, if_false, processed,
        recovered]
      exact List.Sublist.refl _
    · rw [moved.replay.windows]
      exact Admits.refl _
  · have routing := gates.reassembles.routing
    obtain ⟨routing', admitted, delivered, taken⟩ :=
      pipelineInboundPostCrypto_admits C sess' call.rxq view
    obtain ⟨path, seq⟩ := gates.pathIdx
    rw [gates.reassembles.replay.windows] at taken
    simp only [processed, InboundOutcome.entries, result, post]
    refine ⟨routing.trans routing', admitted, ?_, taken⟩
    rw [routing.windowOf, path, seq] at delivered
    simpa only [recoveredEntries, routing.windowOf] using delivered

/-- Every window takes the numbers that a run delivers one by one. -/
theorem inboundRun_admits
    (C : CryptoSuite) (filters : Filters) (sess : Session)
    (calls : List InboundCall) :
    ∃ admitted after,
      List.Sublist
        ((inboundRun C filters sess calls).flatMap
          (InboundOutcome.entries sess))
        admitted ∧
      Admits replayWindowSize sess.windows admitted after := by
  induction calls generalizing filters sess with
  | nil =>
      exact ⟨[], sess.windows, List.Sublist.refl _, Admits.refl _⟩
  | cons call calls hypothesis =>
      obtain ⟨routing, first, delivered, taken⟩ :=
        pipelineInboundProcess_admits C filters sess call
      obtain ⟨rest, after, delivered', taken'⟩ :=
        hypothesis
          (pipelineInboundProcess C call.env filters sess call.rxq
            call.packet).2.1
          (pipelineInboundProcess C call.env filters sess call.rxq
            call.packet).2.2.sess
      refine ⟨first ++ rest, after, ?_, taken.append taken'⟩
      simp only [inboundRun, List.flatMap_cons]
      refine List.Sublist.append delivered ?_
      simpa only [funext routing.entries] using delivered'

/-- No window delivers a number twice. -/
theorem nodup_entries_inboundRun
    (C : CryptoSuite) (filters : Filters) (sess : Session)
    (calls : List InboundCall) :
    ((inboundRun C filters sess calls).flatMap
      (InboundOutcome.entries sess)).Nodup := by
  obtain ⟨admitted, after, delivered, taken⟩ :=
    inboundRun_admits C filters sess calls
  exact taken.nodup.sublist delivered

/-- With one path, whatever the state of the session, no sequence number is
delivered twice, be it by a packet or by a rebuild. -/
theorem inboundRun_seqs_nodup
    (C : CryptoSuite) (filters : Filters) (sess : Session)
    (single : sess.resilience.multipathEnabled = false)
    (calls : List InboundCall) :
    ((inboundRun C filters sess calls).flatMap
      InboundOutcome.seqs).Nodup := by
  have window : ∀ pathIdx, windowOf sess pathIdx = none := by
    intro pathIdx
    simp [windowOf, single]
  have entries : ∀ outcome : InboundOutcome,
      outcome.entries sess =
        outcome.seqs.map fun seq => (none, seq.toNat) := by
    intro outcome
    simp only [InboundOutcome.entries, InboundOutcome.seqs, recoveredEntries,
      window, List.map_append, List.map_map]
    congr 1
    split <;> rfl
  have nodup := nodup_entries_inboundRun C filters sess calls
  simp only [funext entries, ← List.map_flatMap] at nodup
  exact nodup.of_map

/-- On any number of paths, each path accepts a sequence number once. -/
theorem inboundRun_paths_nodup
    (C : CryptoSuite) (filters : Filters) (sess : Session)
    (calls : List InboundCall) :
    (((inboundRun C filters sess calls).filter fun outcome =>
        outcome.result = .ok).map fun outcome =>
          (arrivalPath sess outcome.packet,
            packetSeq outcome.packet)).Nodup := by
  have nodup := nodup_entries_inboundRun C filters sess calls
  generalize inboundRun C filters sess calls = outcomes at nodup ⊢
  refine List.Nodup.of_map
    (fun entry => (windowOf sess entry.1, entry.2.toNat))
    (nodup.sublist ?_)
  clear nodup
  induction outcomes with
  | nil =>
      exact List.Sublist.refl _
  | cons outcome outcomes hypothesis =>
      rw [List.flatMap_cons]
      by_cases ok : outcome.result = .ok
      · have here :
            List.Sublist
              [(windowOf sess (arrivalPath sess outcome.packet),
                (packetSeq outcome.packet).toNat)]
              (outcome.entries sess) := by
          simp only [InboundOutcome.entries, ok, if_true]
          exact List.sublist_append_right _ _
        simp only [ok, List.filter_cons, decide_true, if_true, List.map_cons]
        exact here.append hypothesis
      · simp only [ok, List.filter_cons, decide_false, Bool.false_eq_true,
          if_false]
        exact hypothesis.trans (List.sublist_append_right _ _)

/-! ## Packets without a valid tag -/

section

variable (C : CryptoSuite) (env : InboundEnv) (filters : Filters)
  (sess : Session) (rxq : RxQueues) (p : PacketBuf)

/-- A rebuilt packet that `session_enc_check` lets through: its tag verifies,
or it is on the control channel. -/
def RebuildAdmitted (rec : PacketBuf) : Prop :=
  ∃ v, packetParse rec = some v ∧ v.encrypted = true ∧
    (v.channelId = chControl ∨ TagVerifies C sess v)

/-- A call that gets as far as the cipher takes up an admitted rebuilt
packet. -/
def TakesRebuild : Prop :=
  ∃ view sess' rec, PassesGates env filters sess p view sess' ∧
    sess'.fecRecovered = some rec ∧ RebuildAdmitted C sess rec

/-- The packet is encrypted data by its header, or some gate in front of the
cipher refuses it. -/
def SealedOrRefused : Prop :=
  (p.data 14 ≠ chControl ∧ p.data 5 &&& packetFlagEncrypted ≠ 0) ∨
    ∀ view sess', ¬ PassesGates env filters sess p view sess'

variable {C env filters sess p}

theorem sessionEncCheck_admits_iff
    {v : PacketView} (locked : sess.state = .locked) :
    (sessionEncCheck C v sess).2 = none ↔
      ¬ (v.channelId = chControl ∨ TagVerifies C sess v) := by
  unfold sessionEncCheck TagVerifies
  rw [if_neg (by simp [locked])]
  by_cases control : v.channelId = chControl
  · simp [control]
  · rw [if_neg control]
    cases aeadDecrypt C sess.keys.sessionKey v.nonce
        (buildAad sess.keys v.channelId v.buf.data) v.payloadBytes v.tag <;>
      simp [control]

theorem tagVerifies_congr
    {s s' : Session} (same : s'.keys = s.keys) (v : PacketView) :
    TagVerifies C s' v ↔ TagVerifies C s v := by
  unfold TagVerifies
  rw [same]

theorem rebuildAdmitted_congr
    {s s' : Session} (same : s'.keys = s.keys) (rec : PacketBuf) :
    RebuildAdmitted C s' rec ↔ RebuildAdmitted C s rec := by
  unfold RebuildAdmitted
  simp only [tagVerifies_congr same]

theorem processFecRecovered_replay
    {rec : PacketBuf} (locked : sess.state = .locked)
    (refused : ¬ RebuildAdmitted C sess rec) :
    SameReplay sess (processFecRecovered C sess rec).1 := by
  unfold processFecRecovered
  cases parsed : packetParse rec with
  | none =>
      exact SameReplay.refl sess
  | some view =>
      by_cases encrypted : view.encrypted = true
      · have stopped : (sessionEncCheck C view sess).2 = none := by
          rw [sessionEncCheck_admits_iff locked]
          intro admitted
          exact refused ⟨view, parsed, encrypted, admitted⟩
        simp only [encrypted, stopped]
        exact sessionEncCheck_replay C view sess
      · simp only [encrypted]
        exact SameReplay.refl sess

theorem drainRecovered_replay
    (locked : sess.state = .locked)
    (refused : ∀ rec, sess.fecRecovered = some rec →
      ¬ RebuildAdmitted C sess rec) :
    SameReplay sess (drainRecovered C sess).1 := by
  unfold drainRecovered
  cases pending : sess.fecRecovered with
  | none =>
      exact SameReplay.refl sess
  | some rec =>
      have replay :
          SameReplay { sess with fecRecovered := none }
            (processFecRecovered C { sess with fecRecovered := none }
              rec).1 := by
        apply processFecRecovered_replay
        · exact locked
        · exact refused rec pending
      exact ⟨replay.lastSeq, replay.recvBitmap, replay.pathLastSeq,
        replay.pathBitmap⟩

/-- Encrypted data whose tag does not verify moves no replay window and costs
no later packet its place. -/
theorem unauthenticated_keeps_windows
    (locked : sess.state = .locked)
    (invalid : ¬ Authenticated C sess p)
    (scope : SealedOrRefused env filters sess p)
    (rebuild : ¬ TakesRebuild C env filters sess p) :
    SameReplay sess
        (pipelineInboundProcess C env filters sess rxq p).2.2.sess ∧
      ∀ v,
        (seqCheck
          (pipelineInboundProcess C env filters sess rxq p).2.2.sess v).2 =
            (seqCheck sess v).2 := by
  have routing :=
    (pipelineInboundProcess_admits C filters sess ⟨env, rxq, p⟩).1
  suffices replay :
      SameReplay sess
        (pipelineInboundProcess C env filters sess rxq p).2.2.sess from
    ⟨replay, seqCheck_verdict_congr routing replay⟩
  rcases pipelineInboundProcess_cases C env filters sess rxq p with
    ⟨-, -, moved⟩ | ⟨view, sess', gates, -, post⟩
  · exact moved.replay
  · have untouched := gates.reassembles.untouched
    have core := untouched.toSameCore.trans (drainRecovered_core C sess')
    obtain ⟨raw, parsed, viewEq⟩ := gates.view_eq
    have fields := parsedAs_of_packetParse parsed
    obtain ⟨data, flagged⟩ : p.data 14 ≠ chControl ∧
        p.data 5 &&& packetFlagEncrypted ≠ 0 := by
      rcases scope with sealed | refused
      · exact sealed
      · exact absurd gates (refused view sess')
    have encrypted : view.encrypted = true := by
      rw [viewEq]
      exact fields.encrypted.mpr flagged
    have onData : view.channelId ≠ chControl := by
      rw [viewEq]
      simpa only [fields.channelId] using data
    have drained : SameReplay sess' (drainRecovered C sess').1 := by
      refine drainRecovered_replay (untouched.state.trans locked) ?_
      intro rec pending admitted
      exact rebuild ⟨view, sess', rec, gates, pending,
        (rebuildAdmitted_congr untouched.keys rec).mp admitted⟩
    have stopped :
        (cipherStage C (drainRecovered C sess').1 view).2 = none := by
      unfold cipherStage
      rw [if_pos encrypted,
        sessionEncCheck_admits_iff (core.state.trans locked)]
      rintro (control | verified)
      · exact onData control
      · have valid := (tagVerifies_congr core.keys view).mp verified
        rw [viewEq] at valid
        exact invalid ⟨raw, parsed, fields.encrypted.mpr flagged, valid⟩
    rw [post]
    rcases (pipelineInboundPostCrypto_cases C sess' rxq view).2 with
      ⟨-, -, kept⟩ | ⟨view', opened, -⟩
    · rw [kept]
      exact (gates.reassembles.replay.trans drained).trans
        (cipherStage_replay C _ view)
    · rw [stopped] at opened
      cases opened

end

/-! ## A session to receive with -/

/-- The address `::` with a port. -/
def samplePeer (port : UInt16) : Bytes :=
  [10, 0] ++ htons port ++ zeros 28

/-- A locked session with two registered paths. -/
def sampleReceiver (multipath : Bool) : Session :=
  { sessionId := 5
    addr := samplePeer 7000
    addrLen := sockaddrIn6Size
    state := .locked
    resilience := { pathCount := 2, multipathEnabled := multipath }
    peerAddrs := fun i => samplePeer (7000 + UInt16.ofNat i)
    peerAddrLens := fun _ => sockaddrIn6Size }

/-- A chat packet of the peer, sealed under the session key. -/
def sampleSealed (port : UInt16) (seq : UInt32) : PacketBuf :=
  (encryptTxPacket sampleSuite
    (buildPacket default true 0 5 chChat seq [104, 105])
    (sampleReceiver false)).2.setAddr (samplePeer port) sockaddrIn6Size

def sampleCall (packet : PacketBuf) : InboundCall where
  env := { now := 0, dataBuf := some default, parityBuf := some default }
  rxq := {}
  packet := packet

theorem inboundRun_seqs_nodup_replayed :
    (inboundRun sampleSuite {} (sampleReceiver false)
        [sampleCall (sampleSealed 7000 3),
          sampleCall (sampleSealed 7000 3)]).map (·.result) =
        [.ok, .dropSeq] ∧
      ((inboundRun sampleSuite {} (sampleReceiver false)
        [sampleCall (sampleSealed 7000 3),
          sampleCall (sampleSealed 7000 3)]).flatMap
            InboundOutcome.seqs).Nodup :=
  ⟨by decide +kernel,
    inboundRun_seqs_nodup sampleSuite {} (sampleReceiver false) rfl _⟩

/-- Two copies of one packet, from two registered ports, are both accepted. -/
theorem inboundRun_accepts_copy_on_second_path :
    ¬ (((inboundRun sampleSuite {} (sampleReceiver true)
        [sampleCall (sampleSealed 7000 3),
          sampleCall (sampleSealed 7001 3)]).filter fun outcome =>
            outcome.result = .ok).map fun outcome =>
              packetSeq outcome.packet).Nodup := by
  decide +kernel

/-- A heartbeat that anybody can send, with a large number. -/
def strayHeartbeat : PacketBuf :=
  (buildPacket default true 0 0 chControl 9000 [ctrlHeartbeat]).setAddr
    (samplePeer 9) sockaddrIn6Size

/-- The sealed packet with its first ciphertext byte changed. -/
def sampleForged : PacketBuf :=
  let p := sampleSealed 7000 9000
  { p with data := memWrite p.data 36 [p.data 36 ^^^ 1] }

/-- A control packet without any tag moves the window past a genuine data
packet, which is then dropped. -/
theorem control_packet_moves_window :
    ¬ Authenticated sampleSuite (sampleReceiver false) strayHeartbeat ∧
      ¬ SameReplay (sampleReceiver false)
        (pipelineInboundProcess sampleSuite
          (sampleCall strayHeartbeat).env {} (sampleReceiver false) {}
          strayHeartbeat).2.2.sess ∧
      (inboundRun sampleSuite {} (sampleReceiver false)
        [sampleCall (sampleSealed 7000 3)]).map (·.result) = [.ok] ∧
      (inboundRun sampleSuite {} (sampleReceiver false)
        [sampleCall strayHeartbeat,
          sampleCall (sampleSealed 7000 3)]).map (·.result) =
        [.ok, .dropSeq] := by
  refine ⟨?_, ?_, by decide +kernel, by decide +kernel⟩
  · rintro ⟨v, parsed, encrypted, -⟩
    have flagged := (parsedAs_of_packetParse parsed).encrypted.mp encrypted
    exact flagged (by decide +kernel)
  · intro same
    have moved := same.lastSeq
    revert moved
    decide +kernel

theorem unauthenticated_keeps_windows_forged :
    SameReplay (sampleReceiver false)
        (pipelineInboundProcess sampleSuite (sampleCall sampleForged).env {}
          (sampleReceiver false) {} sampleForged).2.2.sess ∧
      (inboundRun sampleSuite {} (sampleReceiver false)
        [sampleCall sampleForged,
          sampleCall (sampleSealed 7000 3)]).map (·.result) =
        [.dropSessionEnc, .ok] := by
  refine ⟨?_, by decide +kernel⟩
  refine (unauthenticated_keeps_windows {} rfl ?_
    (Or.inl ⟨by decide +kernel, by decide +kernel⟩) ?_).1
  · rintro ⟨v, parsed, -, plain, opened⟩
    have refused :
        ((packetParse sampleForged).any fun v =>
          (aeadDecrypt sampleSuite (zeros 32) v.nonce
            (buildAad {} v.channelId v.buf.data) v.payloadBytes
            v.tag).isSome) = false := by
      decide +kernel
    rw [parsed] at refused
    simp only [Option.any_some] at refused
    rw [show aeadDecrypt sampleSuite (zeros 32) v.nonce
      (buildAad {} v.channelId v.buf.data) v.payloadBytes v.tag =
        some plain from opened] at refused
    cases refused
  · rintro ⟨view, sess', rec, gates, pending, -⟩
    have none :
        ((pipelineInboundPreCrypto (sampleCall sampleForged).env {}
          (some (sampleReceiver false)) sampleForged).sess.bind
            (·.fecRecovered)).isNone = true := by
      decide +kernel
    rw [gates.preCrypto.2] at none
    simp [pending] at none

end PqComm
