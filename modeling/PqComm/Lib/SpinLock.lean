import Mathlib.Data.List.Induction
import Mathlib.Logic.Function.Basic

/-!
# Sections under a test-and-set lock

Threads run sections of small steps on shared data, one section after the
other.  A thread that wants to run a section sets a flag, again and again
until it was clear, takes the steps of the section one at a time, and clears
the flag.  Between any two steps every other thread may run.

Whatever the schedule, the sections take effect one after the other in the
order in which they were finished (`LockWorld.Serial.run`): every thread has
got from its sections what they give when each runs on its own, and whenever
the flag is clear the data is what they leave.
-/

namespace PqComm.Lib

universe u v w

/-- A section: what the thread starts with and the steps, each on the shared
data and on what the thread has gathered. -/
structure LockSection (Data : Type u) (Local : Type v) where
  start : Local
  steps : List (Data × Local → Data × Local)

/-- Where a thread is. -/
inductive LockPhase (Data : Type u) (Local : Type v) where
  | outside
  | waiting (body : LockSection Data Local)
  | inside (body : LockSection Data Local) (gathered : Local)
      (rest : List (Data × Local → Data × Local))

structure LockThread (Data : Type u) (Local : Type v) where
  todo : List (LockSection Data Local)
  phase : LockPhase Data Local := .outside
  results : List Local := []

structure LockWorld (Tid : Type w) (Data : Type u) (Local : Type v) where
  data : Data
  flag : Bool := false
  threads : Tid → LockThread Data Local

section

variable {Tid : Type w} {Data : Type u} {Local : Type v}

/-- The steps of a section without an interruption. -/
def runSteps (steps : List (Data × Local → Data × Local))
    (state : Data × Local) : Data × Local :=
  steps.foldl (fun state step => step state) state

theorem runSteps_append
    (first second : List (Data × Local → Data × Local))
    (state : Data × Local) :
    runSteps (first ++ second) state = runSteps second (runSteps first state) :=
  List.foldl_append

/-- A section on its own. -/
def LockSection.alone (body : LockSection Data Local) (data : Data) :
    Data × Local :=
  runSteps body.steps (data, body.start)

section

variable [DecidableEq Tid]

/-- One step of a thread. -/
def LockWorld.step (w : LockWorld Tid Data Local) (t : Tid) :
    LockWorld Tid Data Local :=
  let thread := w.threads t
  match thread.phase with
  | .outside =>
      match thread.todo with
      | [] => w
      | body :: todo =>
          { w with
            threads :=
              Function.update w.threads t
                { thread with todo := todo, phase := .waiting body } }
  | .waiting body =>
      -- The flag is set in any case; who found it clear has the lock.
      { w with
        flag := true
        threads :=
          if w.flag then
            w.threads
          else
            Function.update w.threads t
              { thread with phase := .inside body body.start body.steps } }
  | .inside body gathered (step :: rest) =>
      let next := step (w.data, gathered)
      { w with
        data := next.1
        threads :=
          Function.update w.threads t
            { thread with phase := .inside body next.2 rest } }
  | .inside _ gathered [] =>
      { w with
        flag := false
        threads :=
          Function.update w.threads t
            { thread with
              phase := .outside
              results := thread.results ++ [gathered] } }

/-- The threads take steps in the order of the schedule. -/
def LockWorld.run (w : LockWorld Tid Data Local) (schedule : List Tid) :
    LockWorld Tid Data Local :=
  schedule.foldl LockWorld.step w

end

/-! ## One section after the other -/

/-- The data that sections leave, each run on its own. -/
def serialData (data : Data) (order : List (Tid × LockSection Data Local)) :
    Data :=
  order.foldl (fun data entry => (entry.2.alone data).1) data

/-- What each of them gives its thread. -/
def serialResults (data : Data) :
    List (Tid × LockSection Data Local) → List (Tid × Local)
  | [] => []
  | entry :: order =>
      (entry.1, (entry.2.alone data).2) ::
        serialResults (entry.2.alone data).1 order

theorem serialData_concat
    (data : Data) (order : List (Tid × LockSection Data Local))
    (entry : Tid × LockSection Data Local) :
    serialData data (order ++ [entry]) =
      (entry.2.alone (serialData data order)).1 := by
  rw [serialData, List.foldl_append]
  rfl

theorem serialResults_concat
    (data : Data) (order : List (Tid × LockSection Data Local))
    (entry : Tid × LockSection Data Local) :
    serialResults data (order ++ [entry]) =
      serialResults data order ++
        [(entry.1, (entry.2.alone (serialData data order)).2)] := by
  induction order generalizing data with
  | nil =>
      rfl
  | cons first order inductionHypothesis =>
      rw [List.cons_append, serialResults, serialResults,
        inductionHypothesis, List.cons_append]
      rfl

/-! ## The invariant -/

/-- The sections that a thread has not finished. -/
def LockThread.pending (thread : LockThread Data Local) :
    List (LockSection Data Local) :=
  match thread.phase with
  | .outside => thread.todo
  | .waiting body => body :: thread.todo
  | .inside body _ _ => body :: thread.todo

/-- The thread is in a section. -/
def LockThread.isInside (thread : LockThread Data Local) : Bool :=
  match thread.phase with
  | .inside _ _ _ => true
  | _ => false

variable [DecidableEq Tid]

/-- What belongs to one thread. -/
def ofThread {α : Type*} (t : Tid) (entries : List (Tid × α)) : List α :=
  (entries.filter fun entry => decide (entry.1 = t)).map Prod.snd

theorem ofThread_concat_self {α : Type*} (t : Tid)
    (entries : List (Tid × α)) (item : α) :
    ofThread t (entries ++ [(t, item)]) = ofThread t entries ++ [item] := by
  simp [ofThread]

theorem ofThread_concat_other {α : Type*} {t other : Tid}
    (apart : other ≠ t) (entries : List (Tid × α)) (item : α) :
    ofThread t (entries ++ [(other, item)]) = ofThread t entries := by
  simp [ofThread, apart]

/-- The result of a section stands among those of its thread where the section
stands among the sections. -/
theorem ofThread_serialResults
    (data : Data) (before after : List (Tid × LockSection Data Local))
    (t : Tid) (body : LockSection Data Local) :
    (ofThread t (serialResults data (before ++ (t, body) :: after)))[
        (ofThread t before).length]? =
      some (body.alone (serialData data before)).2 := by
  induction before generalizing data with
  | nil =>
      simp [ofThread, serialResults, serialData]
  | cons first before inductionHypothesis =>
      have later := inductionHypothesis (first.2.alone data).1
      by_cases own : first.1 = t
      · simpa [ofThread, serialResults, serialData, own] using later
      · simpa [ofThread, serialResults, serialData, own] using later

/-- Each section of an order gives one result. -/
theorem length_ofThread_serialResults
    (data : Data) (order : List (Tid × LockSection Data Local)) (t : Tid) :
    (ofThread t (serialResults data order)).length =
      (ofThread t order).length := by
  induction order generalizing data with
  | nil =>
      rfl
  | cons first order inductionHypothesis =>
      have later := inductionHypothesis (first.2.alone data).1
      by_cases own : first.1 = t
      · simpa [ofThread, serialResults, own] using later
      · simpa [ofThread, serialResults, own] using later

/-- When the sections of the threads are made from jobs, so are those of an
order that the threads have followed. -/
theorem exists_jobs
    {Job : Type*} (f : Job → LockSection Data Local)
    {order : List (Tid × LockSection Data Local)}
    {jobs : Tid → List Job}
    {left : Tid → List (LockSection Data Local)}
    (made : ∀ t, (jobs t).map f = ofThread t order ++ left t) :
    ∃ taken : List (Tid × Job),
      order = taken.map (fun entry => (entry.1, f entry.2)) ∧
        ∀ t, ∃ rest, jobs t = ofThread t taken ++ rest := by
  induction order generalizing jobs with
  | nil =>
      exact ⟨[], rfl, fun t => ⟨jobs t, rfl⟩⟩
  | cons first order inductionHypothesis =>
      obtain ⟨t, body⟩ := first
      have head := made t
      rw [show ofThread t ((t, body) :: order) = body :: ofThread t order by
        simp [ofThread], List.cons_append] at head
      obtain ⟨job, rest, split, same, tail⟩ := List.map_eq_cons_iff.mp head
      have others : ∀ other,
          (Function.update jobs t rest other).map f =
            ofThread other order ++ left other := by
        intro other
        by_cases own : other = t
        · subst own
          rw [Function.update_self, tail]
        · rw [Function.update_of_ne own, made other]
          simp [ofThread, Ne.symm own]
      obtain ⟨taken, order', follows⟩ := inductionHypothesis others
      refine ⟨(t, job) :: taken, ?_, fun other => ?_⟩
      · rw [List.map_cons, same, order']
      · obtain ⟨remaining, later⟩ := follows other
        by_cases own : other = t
        · subst own
          rw [Function.update_self] at later
          exact ⟨remaining, by rw [split, later]; simp [ofThread]⟩
        · rw [Function.update_of_ne own] at later
          exact ⟨remaining, by
            rw [later]
            simp [ofThread, Ne.symm own]⟩

/-- The threads before their first step. -/
def LockWorld.start (data : Data)
    (programs : Tid → List (LockSection Data Local)) :
    LockWorld Tid Data Local where
  data := data
  threads t := { todo := programs t }

/-- `w` has finished the sections of `order`, one after the other; the thread
that holds the lock is somewhere in the next one. -/
structure LockWorld.Serial (data : Data)
    (programs : Tid → List (LockSection Data Local))
    (w : LockWorld Tid Data Local)
    (order : List (Tid × LockSection Data Local)) : Prop where
  results : ∀ t,
    (w.threads t).results = ofThread t (serialResults data order)
  program : ∀ t, programs t = ofThread t order ++ (w.threads t).pending
  free : w.flag = false →
    w.data = serialData data order ∧ ∀ t, (w.threads t).isInside = false
  held : w.flag = true →
    ∃ t body gathered taken rest,
      (w.threads t).phase = .inside body gathered rest ∧
        body.steps = taken ++ rest ∧
        (w.data, gathered) =
          runSteps taken (serialData data order, body.start) ∧
        ∀ other, other ≠ t → (w.threads other).isInside = false

variable {data : Data} {programs : Tid → List (LockSection Data Local)}
  {w : LockWorld Tid Data Local} {order : List (Tid × LockSection Data Local)}

theorem LockWorld.serial_start
    (d : Data) (p : Tid → List (LockSection Data Local)) :
    (LockWorld.start d p).Serial d p [] where
  results _ := rfl
  program _ := rfl
  free _ := ⟨rfl, fun _ => rfl⟩
  held := nofun

/-- What a change of one thread leaves of the others. -/
theorem update_thread
    (threads : Tid → LockThread Data Local) {t : Tid}
    {thread : LockThread Data Local} {P : Tid → LockThread Data Local → Prop}
    (own : P t thread) (others : ∀ other, other ≠ t → P other (threads other))
    (any : Tid) : P any (Function.update threads t thread any) := by
  by_cases same : any = t
  · subst same
    rw [Function.update_self]
    exact own
  · rw [Function.update_of_ne same]
    exact others any same

/-- A thread that is inside holds the lock, and nobody else is inside. -/
theorem LockWorld.Serial.holder
    (serial : w.Serial data programs order) {t : Tid}
    {body : LockSection Data Local} {gathered : Local}
    {rest : List (Data × Local → Data × Local)}
    (inside : (w.threads t).phase = .inside body gathered rest) :
    w.flag = true ∧
      (∀ other, other ≠ t → (w.threads other).isInside = false) ∧
      ∃ taken, body.steps = taken ++ rest ∧
        (w.data, gathered) =
          runSteps taken (serialData data order, body.start) := by
  have here : (w.threads t).isInside = true := by
    rw [LockThread.isInside, inside]
  cases flag : w.flag with
  | false =>
      rw [(serial.free flag).2 t] at here
      cases here
  | true =>
      obtain ⟨holder, body', gathered', taken, rest', phase, split, ran,
        alone⟩ := serial.held flag
      have same : t = holder := by
        by_contra apart
        rw [alone t apart] at here
        cases here
      subst same
      rw [inside] at phase
      cases phase
      exact ⟨rfl, alone, taken, split, ran⟩

/-- A thread that has finished no section meanwhile. -/
theorem LockWorld.Serial.update
    (serial : w.Serial data programs order) {t : Tid}
    (thread : LockThread Data Local)
    (results : thread.results = (w.threads t).results)
    (pending : thread.pending = (w.threads t).pending) (any : Tid) :
    (Function.update w.threads t thread any).results =
        ofThread any (serialResults data order) ∧
      programs any =
        ofThread any order ++
          (Function.update w.threads t thread any).pending := by
  refine update_thread w.threads (P := fun any thread =>
    thread.results = ofThread any (serialResults data order) ∧
      programs any = ofThread any order ++ thread.pending) ?_
    (fun other _ => ⟨serial.results other, serial.program other⟩) any
  rw [results, pending]
  exact ⟨serial.results t, serial.program t⟩

/-- A thread turns to its next section. -/
theorem LockWorld.Serial.begins
    (serial : w.Serial data programs order) {t : Tid}
    {body : LockSection Data Local} {rest : List (LockSection Data Local)}
    (phase : (w.threads t).phase = .outside)
    (todo : (w.threads t).todo = body :: rest) :
    (w.step t).Serial data programs order := by
  have kept := serial.update (t := t)
    { w.threads t with todo := rest, phase := .waiting body } rfl
    (by rw [LockThread.pending, LockThread.pending, phase, todo])
  simp only [LockWorld.step, phase, todo]
  refine ⟨fun any => (kept any).1, fun any => (kept any).2, fun flag => ?_,
    fun flag => ?_⟩
  · obtain ⟨left, nobody⟩ := serial.free flag
    exact ⟨left, update_thread w.threads
      (P := fun _ thread => thread.isInside = false) rfl
      fun other _ => nobody other⟩
  · obtain ⟨holder, body', gathered, taken, rest', inside, split, ran,
      alone⟩ := serial.held flag
    have apart : holder ≠ t := by
      rintro rfl
      rw [phase] at inside
      cases inside
    refine ⟨holder, body', gathered, taken, rest', ?_, split, ran, ?_⟩
    · dsimp only
      rw [Function.update_of_ne apart]
      exact inside
    · exact update_thread w.threads (P := fun other thread =>
        other ≠ holder → thread.isInside = false) (fun _ => rfl)
        fun other _ => alone other

/-- A thread finds the flag clear. -/
theorem LockWorld.Serial.acquires
    (serial : w.Serial data programs order) {t : Tid}
    {body : LockSection Data Local}
    (phase : (w.threads t).phase = .waiting body) (clear : w.flag = false) :
    (w.step t).Serial data programs order := by
  obtain ⟨left, nobody⟩ := serial.free clear
  have kept := serial.update (t := t)
    { w.threads t with phase := .inside body body.start body.steps } rfl
    (by rw [LockThread.pending, LockThread.pending, phase])
  simp only [LockWorld.step, phase, clear, Bool.false_eq_true, if_false]
  refine ⟨fun any => (kept any).1, fun any => (kept any).2, nofun,
    fun _ => ?_⟩
  refine ⟨t, body, body.start, [], body.steps, ?_, rfl, ?_, ?_⟩
  · dsimp only
    rw [Function.update_self]
  · rw [left]
    rfl
  · exact update_thread w.threads (P := fun other thread =>
      other ≠ t → thread.isInside = false)
      (fun apart => absurd rfl apart) fun other _ _ => nobody other

/-- The holder takes a step of its section. -/
theorem LockWorld.Serial.works
    (serial : w.Serial data programs order) {t : Tid}
    {body : LockSection Data Local} {gathered : Local}
    {step : Data × Local → Data × Local}
    {rest : List (Data × Local → Data × Local)}
    (phase : (w.threads t).phase = .inside body gathered (step :: rest)) :
    (w.step t).Serial data programs order := by
  obtain ⟨flag, alone, taken, split, ran⟩ := serial.holder phase
  have kept := serial.update (t := t)
    { w.threads t with
      phase := .inside body (step (w.data, gathered)).2 rest } rfl
    (by rw [LockThread.pending, LockThread.pending, phase])
  simp only [LockWorld.step, phase]
  refine ⟨fun any => (kept any).1, fun any => (kept any).2,
    fun clear => ?_, fun _ => ?_⟩
  · exact absurd (flag.symm.trans clear) (by decide)
  · refine ⟨t, body, (step (w.data, gathered)).2, taken ++ [step], rest, ?_,
      ?_, ?_, ?_⟩
    · dsimp only
      rw [Function.update_self]
    · rw [split, List.append_assoc]
      rfl
    · rw [runSteps_append, ← ran]
      rfl
    · exact update_thread w.threads (P := fun other thread =>
        other ≠ t → thread.isInside = false)
        (fun apart => absurd rfl apart) fun other _ => alone other

/-- The holder has finished its section and gives the lock up. -/
theorem LockWorld.Serial.releases
    (serial : w.Serial data programs order) {t : Tid}
    {body : LockSection Data Local} {gathered : Local}
    (phase : (w.threads t).phase = .inside body gathered []) :
    (w.step t).Serial data programs (order ++ [(t, body)]) := by
  obtain ⟨flag, alone, taken, split, ran⟩ := serial.holder phase
  rw [List.append_nil] at split
  rw [← split] at ran
  have finished : body.alone (serialData data order) = (w.data, gathered) :=
    ran.symm
  have out : (w.threads t).pending = body :: (w.threads t).todo := by
    rw [LockThread.pending, phase]
  simp only [LockWorld.step, phase]
  refine ⟨?_, ?_, fun _ => ⟨?_, ?_⟩, nofun⟩
  · refine update_thread w.threads (P := fun t' thread =>
      thread.results =
        ofThread t' (serialResults data (order ++ [(t, body)]))) ?_
      fun other apart => ?_
    · rw [serialResults_concat, ofThread_concat_self, serial.results t,
        finished]
    · rw [serialResults_concat, ofThread_concat_other (Ne.symm apart),
        serial.results other]
  · refine update_thread w.threads (P := fun t' thread =>
      programs t' =
        ofThread t' (order ++ [(t, body)]) ++ thread.pending) ?_
      fun other apart => ?_
    · rw [ofThread_concat_self, List.append_assoc, serial.program t, out]
      rfl
    · rw [ofThread_concat_other (Ne.symm apart), serial.program other]
  · rw [serialData_concat, finished]
  · exact update_thread w.threads
      (P := fun _ thread => thread.isInside = false) rfl
      fun other apart => alone other apart

/-- A step leaves the order as it is or puts the section that it finishes at
the end. -/
theorem LockWorld.Serial.step
    (serial : w.Serial data programs order) (t : Tid) :
    ∃ order', order <+: order' ∧ (w.step t).Serial data programs order' := by
  cases phase : (w.threads t).phase with
  | outside =>
      cases todo : (w.threads t).todo with
      | nil =>
          have idle : w.step t = w := by
            simp only [LockWorld.step, phase, todo]
          rw [idle]
          exact ⟨order, List.prefix_rfl, serial⟩
      | cons body rest =>
          exact ⟨order, List.prefix_rfl, serial.begins phase todo⟩
  | waiting body =>
      cases flag : w.flag with
      | true =>
          have idle : w.step t = w := by
            simp only [LockWorld.step, phase, flag, if_true]
            rw [← flag]
          rw [idle]
          exact ⟨order, List.prefix_rfl, serial⟩
      | false =>
          exact ⟨order, List.prefix_rfl, serial.acquires phase flag⟩
  | inside body gathered rest =>
      cases rest with
      | cons step rest =>
          exact ⟨order, List.prefix_rfl, serial.works phase⟩
      | nil =>
          exact ⟨order ++ [(t, body)], List.prefix_append _ _,
            serial.releases phase⟩

theorem LockWorld.run_concat (schedule : List Tid) (t : Tid) :
    w.run (schedule ++ [t]) = (w.run schedule).step t := by
  unfold LockWorld.run
  rw [List.foldl_append]
  rfl

/-- In every run, the finished sections have taken effect one after the
other, those that were finished at an earlier moment in front. -/
theorem LockWorld.Serial.run
    (serial : w.Serial data programs order) (schedule : List Tid) :
    ∃ order', (w.run schedule).Serial data programs order' ∧
      ∀ earlier later, schedule = earlier ++ later →
        ∃ before, before <+: order' ∧
          (w.run earlier).Serial data programs before := by
  induction schedule using List.reverseRecOn with
  | nil =>
      refine ⟨order, serial, fun earlier later split => ?_⟩
      rw [(List.append_eq_nil_iff.mp split.symm).1]
      exact ⟨order, List.prefix_rfl, serial⟩
  | append_singleton schedule t inductionHypothesis =>
      obtain ⟨middle, reached, moments⟩ := inductionHypothesis
      obtain ⟨order', front, next⟩ := reached.step t
      rw [← LockWorld.run_concat] at next
      refine ⟨order', next, fun earlier later split => ?_⟩
      rcases List.eq_nil_or_concat later with last | ⟨rest, u, last⟩
      · rw [last, List.append_nil] at split
        rw [← split]
        exact ⟨order', List.prefix_rfl, next⟩
      · rw [last, List.concat_eq_append, ← List.append_assoc] at split
        obtain ⟨before, inFront, done⟩ :=
          moments earlier rest (List.append_inj_left' split rfl)
        exact ⟨before, inFront.trans front, done⟩

end

end PqComm.Lib
