import Mathlib.Data.List.Induction
import PqComm.Engine.Handing

/-!
# The crypto worker as a thread

`Engine.cryptoWork` does one iteration of `crypto_loop` at once.  Here the
thread pops a job, checks it under the key lock and pushes the result in three
steps, and anything the engine does may come between them.

Every job that was queued is then in exactly one place, the packets come back
in the order in which their jobs were queued, and each was opened under a state
that its session had after it was queued.  This is said of runs in which the
engine keeps its buffers apart; in others two jobs can have one buffer.
-/

namespace PqComm

open Lib

/-! ## The thread -/

/-- The job that the worker had of a packet. -/
def HandSource.job : HandSource → Option CryptoJob
  | .direct => none
  | .checked original sess _ => some { p := original, sess := sess }

/-- Where `crypto_loop` stands. -/
inductive WorkerPhase where
  | sleeping
  | took (job : CryptoJob)
  | opened (p : PacketBuf) (source : HandSource)

def WorkerPhase.jobs : WorkerPhase → List CryptoJob
  | .sleeping => []
  | .took job => [job]
  | .opened _ source => source.job.toList

/-- The engine and its worker thread, with the jobs that were queued and those
whose buffer the thread has returned to the pool. -/
structure WorkerWorld where
  engine : Engine
  phase : WorkerPhase := .sleeping
  queued : List CryptoJob := []
  returned : List CryptoJob := []

inductive WorkerAct where
  | engine (act : EngineAct)
  | pop
  | check
  | push

/-- The thread gives the buffer back. -/
def WorkerWorld.giveBack (w : WorkerWorld) : WorkerWorld :=
  { w with phase := .sleeping, returned := w.returned ++ w.phase.jobs }

/-- `ring_pop` on the ring of the jobs. -/
def WorkerWorld.pop (w : WorkerWorld) : WorkerWorld :=
  match w.phase, w.engine.cryptoRing with
  | .sleeping, job :: rest =>
      { w with
        engine := { w.engine with cryptoRing := rest }
        phase := .took job }
  | _, _ => w

/-- `ring_push` on the ring of the results. -/
def WorkerWorld.push (w : WorkerWorld) : WorkerWorld :=
  match w.phase with
  | .opened p source =>
      if ringFull w.engine.resultRing then
        w.giveBack
      else
        { w with
          engine :=
            { w.engine with
              resultRing := (ringPush w.engine.resultRing (p, source)).2 }
          phase := .sleeping }
  | _ => w

section

variable (C : CryptoSuite)

/-- `packet_parse`, and `session_enc_check` under the lock of the keys. -/
def WorkerWorld.check (w : WorkerWorld) : WorkerWorld :=
  match w.phase with
  | .took job =>
      match packetParse job.p with
      | none => w.giveBack
      | some view =>
          if !view.encrypted then
            w.giveBack
          else
            let s := w.engine.pool job.sess
            let checked := sessionEncCheck C view s
            let w :=
              { w with engine := w.engine.setSession job.sess checked.1 }
            match checked.2 with
            | none => w.giveBack
            | some view =>
                { w with
                  phase := .opened view.buf (.checked job.p job.sess s) }
  | _ => w

/-- One step of the engine or of the thread. -/
def WorkerWorld.step (w : WorkerWorld) : WorkerAct → WorkerWorld
  | .engine .cryptoWork => w
  | .engine act =>
      let e := w.engine.step C act
      { w with
        engine := e
        queued := w.queued ++ e.cryptoRing.drop w.engine.cryptoRing.length }
  | .pop => w.pop
  | .check => w.check C
  | .push => w.push

def WorkerWorld.run (w : WorkerWorld) (acts : List WorkerAct) : WorkerWorld :=
  acts.foldl (WorkerWorld.step C) w

/-- The calls of the engine keep its buffers apart. -/
def WorkerWorld.KeepsBuffers (w : WorkerWorld) : WorkerAct → Prop
  | .engine act => w.engine.KeepsBuffers C act
  | _ => True

def WorkerWorld.BuffersApart (w : WorkerWorld) : List WorkerAct → Prop
  | [] => True
  | act :: acts => w.KeepsBuffers C act ∧ (w.step C act).BuffersApart acts

instance (w : WorkerWorld) : DecidablePred (w.KeepsBuffers C)
  | .engine act => inferInstanceAs (Decidable (w.engine.KeepsBuffers C act))
  | .pop => isTrue trivial
  | .check => isTrue trivial
  | .push => isTrue trivial

instance decidableWorkerBuffersApart :
    (w : WorkerWorld) → (acts : List WorkerAct) →
      Decidable (w.BuffersApart C acts)
  | _, [] => isTrue trivial
  | w, act :: acts =>
      @instDecidableAnd _ _ (inferInstance : Decidable (w.KeepsBuffers C act))
        (decidableWorkerBuffersApart (w.step C act) acts)

theorem WorkerWorld.step_engine
    (w : WorkerWorld) {act : EngineAct} (other : act ≠ .cryptoWork) :
    w.step C (.engine act) =
      { w with
        engine := w.engine.step C act
        queued :=
          w.queued ++
            (w.engine.step C act).cryptoRing.drop
              w.engine.cryptoRing.length } := by
  cases act with
  | cryptoWork => exact absurd rfl other
  | _ => rfl

/-- An iteration that nothing interrupts is `Engine.cryptoWork`. -/
theorem run_iteration
    (w : WorkerWorld) (sleeping : w.phase = .sleeping) :
    (w.run C [.pop, .check, .push]).engine = w.engine.cryptoWork C ∧
      (w.run C [.pop, .check, .push]).phase = .sleeping := by
  obtain ⟨e, phase, queued, returned⟩ := w
  cases sleeping
  unfold Engine.cryptoWork
  simp only [WorkerWorld.run, List.foldl_cons, List.foldl_nil,
    WorkerWorld.step]
  cases ring : e.cryptoRing with
  | nil =>
      simp only [WorkerWorld.pop, ring, WorkerWorld.check, WorkerWorld.push,
        and_self]
  | cons job rest =>
      simp only [WorkerWorld.pop, ring, WorkerWorld.check]
      cases parsed : packetParse job.p with
      | none =>
          simp only [WorkerWorld.giveBack, WorkerWorld.push, and_self]
      | some view =>
          dsimp only
          by_cases plain : (!view.encrypted) = true
          · rw [if_pos plain, if_pos plain]
            exact ⟨rfl, rfl⟩
          · rw [if_neg plain, if_neg plain]
            cases checked : (sessionEncCheck C view (e.pool job.sess)).2 with
            | none =>
                exact ⟨rfl, rfl⟩
            | some view' =>
                have ring' :
                    (({ e with cryptoRing := rest }.setSession job.sess
                      (sessionEncCheck C view
                        (e.pool job.sess)).1)).resultRing =
                      e.resultRing :=
                  rfl
                simp only [WorkerWorld.push]
                cases full : ringFull e.resultRing with
                | true =>
                    simp only [ring', ringPush, full, if_true,
                      WorkerWorld.giveBack, and_true]
                    rfl
                | false =>
                    simp only [ring', full, Bool.false_eq_true, if_false,
                      and_true]

end

/-! ## What the engine does to the rings -/

/-- The jobs of the packets that were handed to a handler. -/
def Engine.handedJobs (e : Engine) : List CryptoJob :=
  e.handed.filterMap fun h => h.source.job

/-- The jobs of the results that wait for a poll. -/
def Engine.resultJobs (e : Engine) : List CryptoJob :=
  e.resultRing.filterMap fun result => result.2.job

/-- The engine queues jobs behind those that wait, takes results from the
front, and hands these on and what needs no worker. -/
structure PacketMoves (e e' : Engine) (new : List CryptoJob)
    (taken : List (PacketBuf × HandSource)) (news : List Handed) : Prop where
  cryptoRing : e'.cryptoRing = e.cryptoRing ++ new
  resultRing : e.resultRing = taken ++ e'.resultRing
  handed : e'.handed = e.handed ++ news
  jobs :
    (news.filterMap fun h => h.source.job) =
      taken.filterMap fun result => result.2.job
  origin :
    ∀ h ∈ news,
      (h.source = .direct ∧ ¬ Flagged h.pkt) ∨ (h.pkt, h.source) ∈ taken

/-- The same for some jobs, results and packets. -/
def MovesPackets (e e' : Engine) : Prop :=
  ∃ new taken news, PacketMoves e e' new taken news

theorem SameInbound.movesPackets
    {e e' : Engine} (same : SameInbound e e') : MovesPackets e e' :=
  ⟨[], [], [],
    { cryptoRing := by rw [same.cryptoRing, List.append_nil]
      resultRing := same.resultRing.symm
      handed := by rw [same.handed, List.append_nil]
      jobs := rfl
      origin := fun _ none => absurd none List.not_mem_nil }⟩

theorem MovesPackets.trans
    {e f g : Engine} (first : MovesPackets e f)
    (second : MovesPackets f g) : MovesPackets e g := by
  obtain ⟨new, taken, news, moves⟩ := first
  obtain ⟨new', taken', news', moves'⟩ := second
  refine ⟨new ++ new', taken ++ taken', news ++ news',
    { cryptoRing := ?_
      resultRing := ?_
      handed := ?_
      jobs := ?_
      origin := fun h member => ?_ }⟩
  · rw [moves'.cryptoRing, moves.cryptoRing, List.append_assoc]
  · rw [moves.resultRing, moves'.resultRing, List.append_assoc]
  · rw [moves'.handed, moves.handed, List.append_assoc]
  · rw [List.filterMap_append, List.filterMap_append, moves.jobs,
      moves'.jobs]
  · rcases List.mem_append.mp member with old | late
    · exact (moves.origin h old).imp_right (List.mem_append_left _)
    · exact (moves'.origin h late).imp_right (List.mem_append_right _)

section

variable (C : CryptoSuite) (e : Engine)

/-- A packet goes to its handler. -/
theorem handed_hand
    (env : HandlerEnv) (p : PacketBuf) (source : HandSource) :
    SameInbound
      { e with
        handed :=
          e.handed ++
            [{ pkt := p
               session := e.session.map fun i => (i, e.pool i)
               source := source }] }
      (e.hand C env p source) := by
  unfold Engine.hand
  extract_lets record next
  change SameInbound next _
  split
  · exact (frame_handle C next true env p).toSameInbound
  · exact (frame_handle C next false env p).toSameInbound

theorem movesPackets_direct
    (env : HandlerEnv) {p : PacketBuf} (plain : ¬ Flagged p) :
    MovesPackets e (e.hand C env p .direct) := by
  refine MovesPackets.trans ?_ (handed_hand C e env p .direct).movesPackets
  refine ⟨[], [], _,
    { cryptoRing := (List.append_nil _).symm
      resultRing := rfl
      handed := rfl
      jobs := rfl
      origin := fun h member => ?_ }⟩
  rw [List.mem_singleton.mp member]
  exact Or.inl ⟨rfl, plain⟩

theorem movesPackets_takeResult (env : HandlerEnv) :
    MovesPackets e (e.takeResult C env) := by
  unfold Engine.takeResult
  split
  · exact (SameInbound.refl e).movesPackets
  · rename_i p source rest waiting
    refine MovesPackets.trans ?_
      (handed_hand C { e with resultRing := rest } env p source).movesPackets
    refine ⟨[], [(p, source)], _,
      { cryptoRing := (List.append_nil _).symm
        resultRing := waiting
        handed := rfl
        jobs := rfl
        origin := fun h member => ?_ }⟩
    rw [List.mem_singleton.mp member]
    exact Or.inr List.mem_cons_self

theorem movesPackets_inbound (env : PollEnv) (p : PacketBuf) :
    MovesPackets e (e.inbound C env p) := by
  unfold Engine.inbound
  extract_lets pre next
  have gated : MovesPackets e next :=
    (sameInbound_afterGates e pre).movesPackets
  refine gated.trans ?_
  split
  · rename_i view i reached _
    split
    · cases full : ringFull next.cryptoRing with
      | true =>
          refine SameInbound.movesPackets ⟨?_, rfl, rfl⟩
          simp only [ringPush, full, if_true]
      | false =>
          refine ⟨[{ p := p, sess := i }], [], [],
            { cryptoRing := ?_
              resultRing := rfl
              handed := (List.append_nil _).symm
              jobs := rfl
              origin := fun _ none => absurd none List.not_mem_nil }⟩
          simp only [ringPush, full, Bool.false_eq_true, if_false]
    · rename_i plain
      refine movesPackets_direct C next env.packet ?_
      rwa [← encrypted_of_preCrypto reached]
  · split
    · exact (sameInbound_dropControl _ _ _).movesPackets
    · exact (SameInbound.refl _).movesPackets

theorem movesPackets_poll (env : PollEnv) :
    MovesPackets e (transportEnginePoll C env e).2.2 := by
  unfold transportEnginePoll
  split
  · exact SameInbound.movesPackets ⟨rfl, rfl, rfl⟩
  · have taken := movesPackets_takeResult C e env.result
    dsimp only
    split
    · split
      · exact taken
      · refine taken.trans (MovesPackets.trans ?_
          (movesPackets_inbound C _ env _))
        exact SameInbound.movesPackets ⟨rfl, rfl, rfl⟩
    · exact taken.trans (sameInbound_ticks C _ env).movesPackets

/-- Whatever the engine does besides the work of the thread. -/
theorem movesPackets_step
    (act : EngineAct) (other : act ≠ .cryptoWork) :
    MovesPackets e (e.step C act) := by
  cases act with
  | cryptoWork => exact absurd rfl other
  | poll env => exact movesPackets_poll C e env
  | connect env port =>
      exact (sameInbound_connect C e env port).movesPackets
  | sendConnectRequest address port username displayName buf =>
      exact (sameInbound_sendConnectRequest e address port username
        displayName buf).movesPackets
  | acceptConnection address port buf =>
      exact (sameInbound_acceptConnection e address port buf).movesPackets
  | declineConnection address port buf =>
      exact (sameInbound_declineConnection e address port buf).movesPackets
  | sendChat text buf parityBuf =>
      exact (sameInbound_sendChat C e text buf parityBuf).movesPackets
  | sendFile file buf => exact (sameInbound_sendFile e file buf).movesPackets
  | sendTyping buf =>
      exact (frame_sendMessage e buf _).toSameInbound.movesPackets
  | sendDeliveryAck msgSeq buf =>
      exact (frame_sendMessage e buf _).toSameInbound.movesPackets
  | portHop newPort buf =>
      exact (sameInbound_portHop e newPort buf).movesPackets
  | audioCallEnd => exact SameInbound.movesPackets ⟨rfl, rfl, rfl⟩
  | videoCallEnd => exact SameInbound.movesPackets ⟨rfl, rfl, rfl⟩
  | receive path p => exact SameInbound.movesPackets ⟨rfl, rfl, rfl⟩
  | disconnect =>
      apply SameInbound.movesPackets
      rw [Engine.step, transportEngineDisconnect]
      split
      · exact SameInbound.refl e
      · exact ⟨rfl, rfl, rfl⟩
  | startListener =>
      apply SameInbound.movesPackets
      rw [Engine.step, transportEngineStartListener]
      split
      · exact SameInbound.refl e
      · exact ⟨rfl, rfl, rfl⟩
  | audioCallStart =>
      apply SameInbound.movesPackets
      rw [Engine.step, transportEngineAudioCallStart]
      split
      · exact SameInbound.refl e
      · exact ⟨rfl, rfl, rfl⟩
  | videoCallStart =>
      apply SameInbound.movesPackets
      rw [Engine.step, transportEngineVideoCallStart]
      split
      · exact SameInbound.refl e
      · exact ⟨rfl, rfl, rfl⟩
  | setFecEnabled enabled =>
      apply SameInbound.movesPackets
      rw [Engine.step, transportSetFecEnabled]
      split
      · exact ⟨rfl, rfl, rfl⟩
      · exact SameInbound.refl e
  | shutdown =>
      apply SameInbound.movesPackets
      rw [Engine.step, transportEngineShutdown]
      split
      · exact SameInbound.refl e
      · exact ⟨rfl, rfl, rfl⟩
  | transmit path =>
      apply SameInbound.movesPackets
      rw [Engine.step, Engine.transmit]
      split
      · exact SameInbound.refl e
      · exact ⟨rfl, rfl, rfl⟩

end

/-! ## Every job is in one place -/

/-- Where the queued jobs are that the thread has not given back, those that
are handed first. -/
def WorkerWorld.places (w : WorkerWorld) : List CryptoJob :=
  w.engine.handedJobs ++ w.engine.resultJobs ++ w.phase.jobs ++
    w.engine.cryptoRing

/-- The jobs are in order and none is lost.  What was checked satisfies
`Origin`. -/
structure WorkerInv (Origin : PacketBuf → HandSource → Prop)
    (w : WorkerWorld) : Prop where
  order : List.Sublist w.places w.queued
  custody : (w.places ++ w.returned).Perm w.queued
  held : ∀ p source, w.phase = .opened p source → Origin p source
  results : ∀ result ∈ w.engine.resultRing, Origin result.1 result.2
  handed :
    ∀ h ∈ w.engine.handed,
      (h.source = .direct ∧ ¬ Flagged h.pkt) ∨ Origin h.pkt h.source

section

variable {Origin : PacketBuf → HandSource → Prop} {w : WorkerWorld}

theorem WorkerInv.mono
    {Origin' : PacketBuf → HandSource → Prop} (inv : WorkerInv Origin w)
    (more : ∀ p source, Origin p source → Origin' p source) :
    WorkerInv Origin' w where
  order := inv.order
  custody := inv.custody
  held := fun p source held => more p source (inv.held p source held)
  results := fun result member => more _ _ (inv.results result member)
  handed := fun h member => (inv.handed h member).imp_right (more _ _)

/-- The jobs stay where they are, or go to the next place. -/
theorem WorkerInv.of_places
    {w' : WorkerWorld} (inv : WorkerInv Origin w)
    (places : w'.places = w.places) (queued : w'.queued = w.queued)
    (returned : w'.returned = w.returned)
    (held : ∀ p source, w'.phase = .opened p source → Origin p source)
    (results : ∀ result ∈ w'.engine.resultRing, Origin result.1 result.2)
    (handed : w'.engine.handed = w.engine.handed) : WorkerInv Origin w' where
  order := by
    rw [places, queued]
    exact inv.order
  custody := by
    rw [places, queued, returned]
    exact inv.custody
  held := held
  results := results
  handed := by
    rw [handed]
    exact inv.handed

theorem WorkerInv.giveBack (inv : WorkerInv Origin w) :
    WorkerInv Origin w.giveBack where
  order := by
    refine List.Sublist.trans ?_ inv.order
    unfold WorkerWorld.places
    apply List.Sublist.append_right
    apply List.Sublist.append_left
    exact List.nil_sublist _
  custody := by
    refine List.Perm.trans ?_ inv.custody
    change
      (w.engine.handedJobs ++ w.engine.resultJobs ++ [] ++
        w.engine.cryptoRing ++ (w.returned ++ w.phase.jobs)).Perm _
    unfold WorkerWorld.places
    simp only [List.append_nil, List.append_assoc]
    apply List.Perm.append_left
    apply List.Perm.append_left
    rw [← List.append_assoc]
    exact List.perm_append_comm
  held := fun _ _ none => nomatch none
  results := inv.results
  handed := inv.handed

theorem WorkerInv.pop (inv : WorkerInv Origin w) :
    WorkerInv Origin w.pop := by
  unfold WorkerWorld.pop
  split
  · rename_i job rest sleeping ring
    refine inv.of_places ?_ rfl rfl (fun _ _ none => nomatch none)
      inv.results rfl
    unfold WorkerWorld.places
    rw [sleeping, ring]
    simp only [WorkerPhase.jobs, List.append_nil, List.append_assoc,
      List.singleton_append]
    rfl
  · exact inv

theorem WorkerInv.push (inv : WorkerInv Origin w) :
    WorkerInv Origin w.push := by
  unfold WorkerWorld.push
  split
  · rename_i p source opened
    cases full : ringFull w.engine.resultRing with
    | true =>
        rw [if_pos rfl]
        exact inv.giveBack
    | false =>
        rw [if_neg Bool.false_ne_true]
        have pushed :
            (ringPush w.engine.resultRing (p, source)).2 =
              w.engine.resultRing ++ [(p, source)] := by
          unfold ringPush
          rw [full]
          rfl
        rw [pushed]
        refine inv.of_places ?_ rfl rfl (fun _ _ none => nomatch none) ?_ rfl
        · unfold WorkerWorld.places
          rw [opened]
          have last :
              [(p, source)].filterMap (fun result => result.2.job) =
                source.job.toList := by
            cases source with
            | direct => rfl
            | checked original sess s => rfl
          simp only [WorkerPhase.jobs, Engine.resultJobs,
            List.filterMap_append, List.append_nil, List.append_assoc, last]
          rfl
        · intro result member
          rcases List.mem_append.mp member with old | new
          · exact inv.results result old
          · rw [List.mem_singleton.mp new]
            exact inv.held p source opened
  · exact inv

theorem WorkerInv.engine
    {C : CryptoSuite} (inv : WorkerInv Origin w) {act : EngineAct}
    (other : act ≠ .cryptoWork) :
    WorkerInv Origin
      { w with
        engine := w.engine.step C act
        queued :=
          w.queued ++
            (w.engine.step C act).cryptoRing.drop
              w.engine.cryptoRing.length } := by
  obtain ⟨new, taken, news, moves⟩ :=
    movesPackets_step C w.engine act other
  generalize w.engine.step C act = e at moves
  have fresh : e.cryptoRing.drop w.engine.cryptoRing.length = new := by
    rw [moves.cryptoRing, List.drop_left]
  have done :
      e.handedJobs ++ e.resultJobs =
        w.engine.handedJobs ++ w.engine.resultJobs := by
    unfold Engine.handedJobs Engine.resultJobs
    rw [moves.handed, moves.resultRing, List.filterMap_append,
      List.filterMap_append, moves.jobs, List.append_assoc]
  rw [fresh]
  have places :
      WorkerWorld.places
          { w with engine := e, queued := w.queued ++ new } =
        w.places ++ new := by
    unfold WorkerWorld.places
    dsimp only
    rw [done, moves.cryptoRing]
    simp only [List.append_assoc]
  constructor
  · rw [places]
    exact inv.order.append_right new
  · rw [places, List.append_assoc]
    refine (List.perm_append_comm.append_left w.places).trans ?_
    rw [← List.append_assoc]
    exact inv.custody.append_right new
  · exact inv.held
  · intro result member
    apply inv.results
    rw [moves.resultRing]
    exact List.mem_append_right _ member
  · intro h member
    change h ∈ e.handed at member
    rw [moves.handed] at member
    rcases List.mem_append.mp member with old | late
    · exact inv.handed h old
    · refine (moves.origin h late).imp_right fun waiting => ?_
      apply inv.results (h.pkt, h.source)
      rw [moves.resultRing]
      exact List.mem_append_left _ waiting

/-- The check of the thread, when what it leaves satisfies `Origin`. -/
theorem WorkerInv.check
    {C : CryptoSuite} (inv : WorkerInv Origin w)
    (opens : ∀ job view view',
      w.phase = .took job → packetParse job.p = some view →
        view.encrypted = true →
          (sessionEncCheck C view (w.engine.pool job.sess)).2 = some view' →
            Origin view'.buf
              (.checked job.p job.sess (w.engine.pool job.sess))) :
    WorkerInv Origin (w.check C) := by
  unfold WorkerWorld.check
  split
  · rename_i job took
    cases parsed : packetParse job.p with
    | none =>
        exact inv.giveBack
    | some view =>
        dsimp only
        by_cases plain : (!view.encrypted) = true
        · rw [if_pos plain]
          exact inv.giveBack
        · rw [if_neg plain]
          have encrypted : view.encrypted = true := by
            simpa using plain
          have checking :
              WorkerInv Origin
                { w with
                  engine :=
                    w.engine.setSession job.sess
                      (sessionEncCheck C view
                        (w.engine.pool job.sess)).1 } :=
            inv.of_places rfl rfl rfl inv.held inv.results rfl
          cases checked :
              (sessionEncCheck C view (w.engine.pool job.sess)).2 with
          | none =>
              exact checking.giveBack
          | some view' =>
              refine checking.of_places ?_ rfl rfl ?_ inv.results rfl
              · unfold WorkerWorld.places
                dsimp only
                rw [took]
                rfl
              · intro p source opened
                cases opened
                exact opens job view view' took parsed encrypted checked
  · exact inv

end

section

variable (C : CryptoSuite)

/-- During the run `acts` the thread checked a packet that had been queued for
a session, and what it left under the state of that session is `p`. -/
def CheckedDuring (w : WorkerWorld) (acts : List WorkerAct) (p : PacketBuf)
    (source : HandSource) : Prop :=
  ∃ before after original i v v',
    acts = before ++ .check :: after ∧
      (w.run C before).phase = .took { p := original, sess := i } ∧
        source = .checked original i ((w.run C before).engine.pool i) ∧
          packetParse original = some v ∧ v.encrypted = true ∧
            (sessionEncCheck C v ((w.run C before).engine.pool i)).2 =
                some v' ∧
              p = v'.buf

theorem CheckedDuring.more
    {w : WorkerWorld} {acts : List WorkerAct} {p : PacketBuf}
    {source : HandSource} (checked : CheckedDuring C w acts p source)
    (act : WorkerAct) : CheckedDuring C w (acts ++ [act]) p source := by
  obtain ⟨before, after, original, i, v, v', parts, rest⟩ := checked
  refine ⟨before, after ++ [act], original, i, v, v', ?_, rest⟩
  rw [parts, List.append_assoc]
  rfl

theorem WorkerInv.run
    {w : WorkerWorld} (acts : List WorkerAct)
    (start : WorkerInv (CheckedDuring C w []) w) :
    WorkerInv (CheckedDuring C w acts) (w.run C acts) := by
  induction acts using List.reverseRecOn with
  | nil =>
      exact start
  | append_singleton acts act inductionHypothesis =>
      have before :
          WorkerInv (CheckedDuring C w (acts ++ [act])) (w.run C acts) :=
        inductionHypothesis.mono fun _ _ checked => checked.more C act
      have last : w.run C (acts ++ [act]) = (w.run C acts).step C act := by
        rw [WorkerWorld.run, List.foldl_append]
        rfl
      rw [last]
      cases act with
      | engine act =>
          by_cases work : act = .cryptoWork
          · rw [work]
            rw [work] at before
            exact before
          · rw [WorkerWorld.step_engine C _ work]
            exact before.engine work
      | pop => exact before.pop
      | push => exact before.push
      | check =>
          refine before.check fun job view view' took parsed encrypted
            checked => ?_
          exact ⟨acts, [], job.p, job.sess, view, view', rfl, took, rfl,
            parsed, encrypted, checked, rfl⟩

/-- However the steps of the worker thread and those of the engine are mixed,
as long as the buffers stay apart: every job that was queued is in one place,
handed on, on its way there or given back, the packets are handed on in the
order in which their jobs were queued, and each of them is what
`session_enc_check` left of a queued packet under a state that its session had
during the run. -/
theorem worker_thread_keeps_order
    (config : EngineConfig) (audio video : Bool) (acts : List WorkerAct) :
    let first : WorkerWorld :=
      { engine := transportEngineInit config audio video }
    first.BuffersApart C acts →
      let w := first.run C acts
      List.Sublist w.places w.queued ∧
        (w.places ++ w.returned).Perm w.queued ∧
          ∀ h ∈ w.engine.handed,
            (h.source = .direct ∧ ¬ Flagged h.pkt) ∨
              CheckedDuring C first acts h.pkt h.source := by
  intro first _ w
  have start : WorkerInv (CheckedDuring C first []) first :=
    { order := List.nil_sublist _
      custody := List.Perm.refl _
      held := fun _ _ none => nomatch none
      results := fun _ none => nomatch none
      handed := fun _ none => nomatch none }
  have inv := start.run C acts
  exact ⟨inv.order, inv.custody, inv.handed⟩

end

/-- The sample engine locks, a sealed chat message arrives, and a poll comes
between two steps of the thread. -/
def workedActs : List WorkerAct :=
  let locked :=
    (transportEngineInit sampleConfig false false).run sampleSuite lockingActs
  lockingActs.map WorkerAct.engine ++
    [.engine (.receive 0 (sealedChat (locked.pool 0))),
      .engine (.poll samplePoll), .pop, .check, .engine (.poll samplePoll),
      .push, .engine (.poll samplePoll)]

theorem worker_thread_keeps_order_sample :
    let first : WorkerWorld :=
      { engine := transportEngineInit sampleConfig false false }
    let w := first.run sampleSuite workedActs
    (w.queued.length = 1 ∧ w.engine.handedJobs.length = 1) ∧
      List.Sublist w.places w.queued ∧
        (w.places ++ w.returned).Perm w.queued ∧
          ∀ h ∈ w.engine.handed,
            (h.source = .direct ∧ ¬ Flagged h.pkt) ∨
              CheckedDuring sampleSuite first workedActs h.pkt h.source := by
  refine ⟨by decide +kernel, ?_⟩
  apply worker_thread_keeps_order sampleSuite sampleConfig false false
  decide +kernel

end PqComm
