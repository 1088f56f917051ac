import PqComm.Engine.PathStates

/-!
# The spacing of reconnect requests

`reconnect_tick` starts a timer and sends a request, and the request stops the
timer again.  The next tick finds no timer running and acts at once, so that
the requests are as far apart as the ticks.
-/

namespace PqComm

open Lib

/-- Some path of the session is down. -/
def Session.AnyDown (s : Session) : Prop :=
  ∃ i, i < s.resilience.pathCount ∧ (s.resilience.paths i).state = .down

namespace PathSide

/-- One call of `reconnect_tick`. -/
def reconnect (w : PathSide) (tick : UInt64 × Option PacketBuf) : CtlOut :=
  reconnectTick w.sess tick.2 w.seq tick.1

def reconnected (w : PathSide) (tick : UInt64 × Option PacketBuf) :
    PathSide where
  sess := (w.reconnect tick).sess
  seq := (w.reconnect tick).seq

def reconnectRun (w : PathSide) (ticks : List (UInt64 × Option PacketBuf)) :
    PathSide :=
  ticks.foldl reconnected w

/-- The times of the calls that end in a certain way. -/
def tickTimes (ends : CtlOut → Bool) (w : PathSide)
    (ticks : List (UInt64 × Option PacketBuf)) : List UInt64 :=
  emitted reconnected
    (fun w tick => if ends (w.reconnect tick) then [tick.1] else []) w ticks

/-- The times at which requests are sent. -/
def requestTimes (w : PathSide) :
    List (UInt64 × Option PacketBuf) → List UInt64 :=
  w.tickTimes fun result => result.out.isSome

/-- The times at which the session is dropped. -/
def dropTimes (w : PathSide) :
    List (UInt64 × Option PacketBuf) → List UInt64 :=
  w.tickTimes fun result => result.ret == -1

/-- The tick has something to do and finds no timer running. -/
def Rushes (w : PathSide) (tick : UInt64 × Option PacketBuf) : Prop :=
  w.sess.state = .locked ∧ w.sess.reconnectStartMs = 0 ∧
    (tick.2.isSome = true ∨
      w.sess.reconnectAttempts ≥ w.sess.resilience.maxReconnectAttempts)

/-- The second time is at least the retry time after the first. -/
def Apart (earlier later : UInt64) : Prop :=
  earlier.toNat + reconnectRetryMs.toNat ≤ later.toNat

instance (earlier later : UInt64) : Decidable (Apart earlier later) :=
  inferInstanceAs (Decidable (_ ≤ _))

/-! ## One tick -/

section

variable {w : PathSide}

theorem reconnect_unlocked
    (unlocked : w.sess.state ≠ .locked)
    (tick : UInt64 × Option PacketBuf) :
    w.reconnect tick = { ret := 0, sess := w.sess, seq := w.seq } :=
  if_pos unlocked

/-- What is left of `reconnect_tick` for a locked session with a path that is
down. -/
theorem reconnect_down
    (locked : w.sess.state = .locked) (down : w.sess.AnyDown)
    (tick : UInt64 × Option PacketBuf) :
    w.reconnect tick =
      if w.sess.reconnectAttempts ≥
          w.sess.resilience.maxReconnectAttempts then
        { ret := -1
          sess := { sessionZeroSecrets w.sess with state := .idle }
          seq := w.seq }
      else if w.sess.reconnectStartMs = 0 then
        { reconnectSendRequest { w.sess with reconnectStartMs := tick.1 }
            tick.2 w.seq with ret := 1 }
      else if tick.1 - w.sess.reconnectStartMs ≥ reconnectRetryMs then
        { reconnectSendRequest w.sess tick.2 w.seq with ret := 1 }
      else
        { ret := 0, sess := w.sess, seq := w.seq } := by
  have found :
      ((List.range w.sess.resilience.pathCount).all fun i =>
        (w.sess.resilience.paths i).state != .down) = false := by
    obtain ⟨i, inside, is⟩ := down
    rw [List.all_eq_false]
    exact ⟨i, List.mem_range.mpr inside, by simp [is]⟩
  unfold reconnect reconnectTick
  rw [if_neg (not_not.mpr locked), found]
  rfl

/-- What one tick does to a locked session with a path that is down. -/
inductive Reconnects (w : PathSide) (tick : UInt64 × Option PacketBuf) : Prop
  | drops
      (spent : w.sess.reconnectAttempts ≥
        w.sess.resilience.maxReconnectAttempts)
      (out : (w.reconnect tick).out = none)
      (ret : (w.reconnect tick).ret = -1)
      (gone : (w.reconnected tick).sess.state ≠ .locked)
  | requests
      (left : ¬ w.sess.reconnectAttempts ≥
        w.sess.resilience.maxReconnectAttempts)
      (buffer : tick.2.isSome = true)
      (due : w.sess.reconnectStartMs = 0 ∨
        tick.1 - w.sess.reconnectStartMs ≥ reconnectRetryMs)
      (out : (w.reconnect tick).out.isSome = true)
      (ret : (w.reconnect tick).ret = 1)
      (sess : (w.reconnected tick).sess =
        { w.sess with
          reconnectAttempts := w.sess.reconnectAttempts + 1
          reconnectStartMs := 0 })
  | begins
      (left : ¬ w.sess.reconnectAttempts ≥
        w.sess.resilience.maxReconnectAttempts)
      (buffer : tick.2.isSome = false) (stopped : w.sess.reconnectStartMs = 0)
      (out : (w.reconnect tick).out = none)
      (ret : (w.reconnect tick).ret = 1)
      (sess : (w.reconnected tick).sess =
        { w.sess with reconnectStartMs := tick.1 })
  | waits
      (left : ¬ w.sess.reconnectAttempts ≥
        w.sess.resilience.maxReconnectAttempts)
      (running : w.sess.reconnectStartMs ≠ 0)
      (out : (w.reconnect tick).out = none)
      (ret : (w.reconnect tick).ret ≠ -1)
      (sess : (w.reconnected tick).sess = w.sess)

theorem reconnects
    (locked : w.sess.state = .locked) (down : w.sess.AnyDown)
    (tick : UInt64 × Option PacketBuf) : Reconnects w tick := by
  have result := reconnect_down locked down tick
  obtain ⟨now, buf⟩ := tick
  by_cases spent :
      w.sess.reconnectAttempts ≥ w.sess.resilience.maxReconnectAttempts
  · rw [if_pos spent] at result
    refine .drops spent (by rw [result]) (by rw [result]) ?_
    rw [reconnected, result]
    exact nofun
  · rw [if_neg spent] at result
    by_cases stopped : w.sess.reconnectStartMs = 0
    · rw [if_pos stopped] at result
      cases buf with
      | none =>
          refine .begins spent rfl stopped (by rw [result]; rfl)
            (by rw [result]) ?_
          rw [reconnected, result]
          rfl
      | some buf =>
          refine .requests spent rfl (Or.inl stopped) (by rw [result]; rfl)
            (by rw [result]) ?_
          rw [reconnected, result]
          rfl
    · rw [if_neg stopped] at result
      by_cases late : now - w.sess.reconnectStartMs ≥ reconnectRetryMs
      · rw [if_pos late] at result
        cases buf with
        | none =>
            refine .waits spent stopped (by rw [result]; rfl) ?_ ?_
            · rw [result]
              exact (by decide : (1 : Int) ≠ -1)
            · rw [reconnected, result]
              rfl
        | some buf =>
            refine .requests spent rfl (Or.inr late) (by rw [result]; rfl)
              (by rw [result]) ?_
            rw [reconnected, result]
            rfl
      · rw [if_neg late] at result
        refine .waits spent stopped (by rw [result]) ?_ ?_
        · rw [result]
          exact (by decide : (0 : Int) ≠ -1)
        · rw [reconnected, result]

theorem reconnected_unlocked
    (unlocked : w.sess.state ≠ .locked)
    (tick : UInt64 × Option PacketBuf) : w.reconnected tick = w := by
  rw [reconnected, reconnect_unlocked unlocked]

end

/-! ## A sequence of ticks -/

section

variable {w : PathSide}

theorem requestTimes_cons (w : PathSide)
    (tick : UInt64 × Option PacketBuf)
    (rest : List (UInt64 × Option PacketBuf)) :
    w.requestTimes (tick :: rest) =
      (if (w.reconnect tick).out.isSome then [tick.1] else []) ++
        (w.reconnected tick).requestTimes rest :=
  rfl

theorem dropTimes_cons (w : PathSide)
    (tick : UInt64 × Option PacketBuf)
    (rest : List (UInt64 × Option PacketBuf)) :
    w.dropTimes (tick :: rest) =
      (if (w.reconnect tick).ret = -1 then [tick.1] else []) ++
        (w.reconnected tick).dropTimes rest := by
  change
    (if (w.reconnect tick).ret == -1 then [tick.1] else []) ++
      (w.reconnected tick).dropTimes rest = _
  simp only [beq_iff_eq]

/-- A session that is not locked does nothing. -/
theorem reconnect_quiet
    (unlocked : w.sess.state ≠ .locked)
    (ticks : List (UInt64 × Option PacketBuf)) :
    w.requestTimes ticks = [] ∧ w.dropTimes ticks = [] ∧
      w.reconnectRun ticks = w := by
  induction ticks with
  | nil =>
      exact ⟨rfl, rfl, rfl⟩
  | cons tick rest inductionHypothesis =>
      obtain ⟨requests, drops, state⟩ := inductionHypothesis
      have idle := reconnect_unlocked unlocked tick
      have same := reconnected_unlocked unlocked tick
      refine ⟨?_, ?_, ?_⟩
      · rw [requestTimes_cons, same, idle, requests]
        rfl
      · rw [dropTimes_cons, same, idle, drops]
        rfl
      · change (w.reconnected tick).reconnectRun rest = w
        rw [same, state]

/-- What holds between two ticks of a session with a path that is down, when
`prev` is the time of the last tick and `last` that of the last request.
Without a timer the last tick has sent the request.  With one, it runs since a
tick after the request. -/
structure Between (w : PathSide) (prev last : Option UInt64) : Prop where
  locked : w.sess.state = .locked
  down : w.sess.AnyDown
  stopped : w.sess.reconnectStartMs = 0 → last = prev
  running :
    w.sess.reconnectStartMs ≠ 0 → ∀ time ∈ last,
      time ≤ w.sess.reconnectStartMs ∧
        (∃ before ∈ prev, w.sess.reconnectStartMs ≤ before) ∧
        ¬ w.sess.reconnectAttempts ≥ w.sess.resilience.maxReconnectAttempts

/-- The times of the requests and of the drop. -/
def actionTimes (w : PathSide) (ticks : List (UInt64 × Option PacketBuf)) :
    List UInt64 :=
  w.requestTimes ticks ++ w.dropTimes ticks

/-- After a tick that sends nothing the actions are those of the rest. -/
theorem actionTimes_cons_none
    {tick : UInt64 × Option PacketBuf}
    (out : (w.reconnect tick).out = none) (ret : (w.reconnect tick).ret ≠ -1)
    (rest : List (UInt64 × Option PacketBuf)) :
    w.actionTimes (tick :: rest) = (w.reconnected tick).actionTimes rest := by
  simp [actionTimes, requestTimes_cons, dropTimes_cons, out, ret]

theorem actionTimes_cons_request
    {tick : UInt64 × Option PacketBuf}
    (out : (w.reconnect tick).out.isSome = true)
    (ret : (w.reconnect tick).ret = 1)
    (rest : List (UInt64 × Option PacketBuf)) :
    w.actionTimes (tick :: rest) =
      tick.1 :: (w.reconnected tick).actionTimes rest := by
  simp [actionTimes, requestTimes_cons, dropTimes_cons, out, ret]

theorem actionTimes_cons_drop
    {tick : UInt64 × Option PacketBuf}
    (out : (w.reconnect tick).out = none) (ret : (w.reconnect tick).ret = -1)
    (gone : (w.reconnected tick).sess.state ≠ .locked)
    (rest : List (UInt64 × Option PacketBuf)) :
    w.actionTimes (tick :: rest) = [tick.1] := by
  obtain ⟨requests, drops, -⟩ := reconnect_quiet gone rest
  simp [actionTimes, requestTimes_cons, dropTimes_cons, out, ret, requests, drops]

section

variable {tick : UInt64 × Option PacketBuf} {prev last : Option UInt64}

/-- Without a timer, the tick rushes if it has a buffer or nothing is left. -/
theorem Between.rushes_iff (between : Between w prev last) :
    w.Rushes tick ↔
      w.sess.reconnectStartMs = 0 ∧
        (tick.2.isSome = true ∨
          w.sess.reconnectAttempts ≥
            w.sess.resilience.maxReconnectAttempts) := by
  simp [Rushes, between.locked]

/-- A tick that does not rush is apart from the last request, if it sends one
or drops the session. -/
theorem Between.apart_of_running
    (between : Between w prev last)
    (running : w.sess.reconnectStartMs ≠ 0)
    (later : ∀ time ∈ prev, time ≤ tick.1)
    (due :
      w.sess.reconnectAttempts ≥ w.sess.resilience.maxReconnectAttempts ∨
        tick.1 - w.sess.reconnectStartMs ≥ reconnectRetryMs) :
    ∀ time ∈ last, Apart time tick.1 := by
  intro time member
  obtain ⟨since, ⟨before, tested, bounded⟩, left⟩ :=
    between.running running time member
  have order : w.sess.reconnectStartMs ≤ tick.1 :=
    UInt64.le_trans bounded (later before tested)
  rcases due with spent | late
  · exact absurd spent left
  · rw [ge_iff_le, UInt64.le_iff_toNat_le,
      UInt64.toNat_sub_of_le _ _ order] at late
    rw [UInt64.le_iff_toNat_le] at since order
    unfold Apart
    omega

/-- A tick that sends a request or drops the session. -/
theorem Between.apart_iff
    (between : Between w prev last)
    (later : ∀ time ∈ prev, time ≤ tick.1)
    (acts :
      w.sess.reconnectAttempts ≥ w.sess.resilience.maxReconnectAttempts ∨
        tick.2.isSome = true ∧
          (w.sess.reconnectStartMs = 0 ∨
            tick.1 - w.sess.reconnectStartMs ≥ reconnectRetryMs)) :
    (∀ time ∈ last, Apart time tick.1) ↔
      (w.Rushes tick → ∀ time ∈ prev, Apart time tick.1) := by
  by_cases stopped : w.sess.reconnectStartMs = 0
  · have rushes : w.Rushes tick :=
      between.rushes_iff.mpr
        ⟨stopped, acts.elim Or.inr fun both => Or.inl both.1⟩
    rw [between.stopped stopped]
    exact ⟨fun apart _ => apart, fun apart => apart rushes⟩
  · refine iff_of_true ?_ fun rushes => ?_
    · refine between.apart_of_running stopped later (acts.imp_right ?_)
      rintro ⟨-, zero | late⟩
      · exact absurd zero stopped
      · exact late
    · exact absurd (between.rushes_iff.mp rushes).1 stopped

theorem Between.requests
    (between : Between w prev last)
    (sess : (w.reconnected tick).sess =
      { w.sess with
        reconnectAttempts := w.sess.reconnectAttempts + 1
        reconnectStartMs := 0 }) :
    Between (w.reconnected tick) (some tick.1) (some tick.1) := by
  refine ⟨by rw [sess]; exact between.locked,
    by rw [sess]; exact between.down, fun _ => rfl, fun running => ?_⟩
  rw [sess] at running
  exact absurd rfl running

theorem Between.begins
    (between : Between w prev last)
    (later : ∀ time ∈ prev, time ≤ tick.1)
    (stopped : w.sess.reconnectStartMs = 0) (nonzero : tick.1 ≠ 0)
    (left : ¬ w.sess.reconnectAttempts ≥
      w.sess.resilience.maxReconnectAttempts)
    (sess : (w.reconnected tick).sess =
      { w.sess with reconnectStartMs := tick.1 }) :
    Between (w.reconnected tick) (some tick.1) last := by
  refine ⟨by rw [sess]; exact between.locked,
    by rw [sess]; exact between.down, fun zero => ?_,
    fun _ time member => ?_⟩
  · rw [sess] at zero
    exact absurd zero nonzero
  · rw [between.stopped stopped] at member
    rw [sess]
    exact ⟨later time member, ⟨tick.1, rfl, UInt64.le_refl _⟩, left⟩

theorem Between.waits
    (between : Between w prev last)
    (later : ∀ time ∈ prev, time ≤ tick.1)
    (running : w.sess.reconnectStartMs ≠ 0)
    (sess : (w.reconnected tick).sess = w.sess) :
    Between (w.reconnected tick) (some tick.1) last := by
  refine ⟨by rw [sess]; exact between.locked,
    by rw [sess]; exact between.down, fun zero => ?_,
    fun _ time member => ?_⟩
  · rw [sess] at zero
    exact absurd zero running
  · obtain ⟨since, ⟨before, tested, bounded⟩, left⟩ :=
      between.running running time member
    rw [sess]
    exact ⟨since,
      ⟨tick.1, rfl, UInt64.le_trans bounded (later before tested)⟩, left⟩

end

theorem isChain_toList_append {last : Option UInt64} {time : UInt64}
    {times : List UInt64} :
    (last.toList ++ time :: times).IsChain Apart ↔
      (∀ before ∈ last, Apart before time) ∧
        (time :: times).IsChain Apart := by
  cases last with
  | none => simp
  | some before => simp [List.isChain_cons_cons]

/-- The actions of a sequence of ticks are apart exactly when every tick that
rushes is apart from the tick before it. -/
theorem Between.chain_iff
    {prev last : Option UInt64} (between : Between w prev last)
    {ticks : List (UInt64 × Option PacketBuf)}
    (nonzero : ∀ tick ∈ ticks, tick.1 ≠ 0)
    (order : (prev.toList ++ ticks.map Prod.fst).Pairwise (· ≤ ·)) :
    (last.toList ++ w.actionTimes ticks).IsChain Apart ↔
      ∀ before tick after, ticks = before ++ tick :: after →
        (w.reconnectRun before).Rushes tick →
          ∀ time ∈ (prev.toList ++ before.map Prod.fst).getLast?,
            Apart time tick.1 := by
  induction ticks generalizing w prev last with
  | nil =>
      refine iff_of_true ?_ ?_
      · cases last with
        | none => exact List.isChain_nil
        | some time => exact List.isChain_singleton time
      · exact forall_split_nil
  | cons tick rest inductionHypothesis =>
      rw [List.forall_mem_cons] at nonzero
      rw [List.map_cons, List.pairwise_append] at order
      have later : ∀ time ∈ prev, time ≤ tick.1 := fun time member =>
        order.2.2 time (Option.mem_toList.mpr member) tick.1
          List.mem_cons_self
      have lasting (before : List UInt64) :
          (prev.toList ++ tick.1 :: before).getLast? =
            ((some tick.1).toList ++ before).getLast? := by
        rw [List.getLast?_append_of_ne_nil _ (List.cons_ne_nil _ _)]
        rfl
      have first : (prev.toList ++ ([] : List UInt64)).getLast? = prev := by
        cases prev <;> rfl
      rw [forall_split_cons, List.map_nil, first]
      simp only [List.map_cons, lasting]
      have quiet :
          (w.reconnected tick).sess.state ≠ .locked →
            ∀ before other after, rest = before ++ other :: after →
              (w.reconnectRun (tick :: before)).Rushes other →
                ∀ time ∈ ((some tick.1).toList ++
                    before.map Prod.fst).getLast?,
                  Apart time other.1 := by
        intro gone before other after _ rushes
        change ((w.reconnected tick).reconnectRun before).Rushes other
          at rushes
        rw [(reconnect_quiet gone before).2.2] at rushes
        exact absurd rushes.1 gone
      cases reconnects between.locked between.down tick with
      | drops spent out ret gone =>
          rw [actionTimes_cons_drop out ret gone, isChain_toList_append,
            between.apart_iff later (Or.inl spent)]
          exact and_congr_right fun _ =>
            iff_of_true (List.isChain_singleton _) (quiet gone)
      | requests left buffer due out ret sess =>
          rw [actionTimes_cons_request out ret, isChain_toList_append,
            between.apart_iff later (Or.inr ⟨buffer, due⟩)]
          exact and_congr_right fun _ =>
            inductionHypothesis (between.requests sess) nonzero.2 order.2.1
      | begins left buffer stopped out ret sess =>
          have patient : ¬ w.Rushes tick := by
            rw [between.rushes_iff, buffer]
            simp [left]
          have next := between.begins later stopped nonzero.1 left sess
          rw [actionTimes_cons_none out (by rw [ret]; decide),
            inductionHypothesis next nonzero.2 order.2.1]
          exact (and_iff_right fun rushes => absurd rushes patient).symm
      | waits left running out ret sess =>
          have patient : ¬ w.Rushes tick := fun rushes =>
            running (between.rushes_iff.mp rushes).1
          have next := between.waits later running sess
          rw [actionTimes_cons_none out ret,
            inductionHypothesis next nonzero.2 order.2.1]
          exact (and_iff_right fun rushes => absurd rushes patient).symm

theorem toNat_add_one_of_lt {count bound : UInt32} (below : count < bound) :
    (count + 1).toNat = count.toNat + 1 := by
  have small := UInt32.lt_iff_toNat_lt.mp below
  have bounded := bound.toNat_lt
  rw [UInt32.toNat_add, UInt32.toNat_one]
  exact Nat.mod_eq_of_lt (by omega)

/-- The session goes on after the tick, and a request of the tick is counted as
an attempt. -/
structure Stays (w : PathSide) (tick : UInt64 × Option PacketBuf) : Prop where
  ret : (w.reconnect tick).ret ≠ -1
  locked : (w.reconnected tick).sess.state = .locked
  down : (w.reconnected tick).sess.AnyDown
  resilience : (w.reconnected tick).sess.resilience = w.sess.resilience
  attempts :
    (w.reconnected tick).sess.reconnectAttempts.toNat =
      w.sess.reconnectAttempts.toNat +
        (if (w.reconnect tick).out.isSome then [tick.1] else []).length

/-- The session is gone after the tick, with all attempts spent, or stays. -/
theorem dropped_or_stays
    (locked : w.sess.state = .locked) (down : w.sess.AnyDown)
    (tick : UInt64 × Option PacketBuf) :
    w.sess.reconnectAttempts ≥ w.sess.resilience.maxReconnectAttempts ∧
        (w.reconnected tick).sess.state ≠ .locked ∨
      w.Stays tick := by
  cases reconnects locked down tick with
  | drops spent out ret gone =>
      exact Or.inl ⟨spent, gone⟩
  | requests left buffer due out ret sess =>
      refine Or.inr ⟨by rw [ret]; decide, ?_, ?_, by rw [sess], ?_⟩
      · rw [sess]
        exact locked
      · rw [sess]
        exact down
      · rw [sess, if_pos out]
        exact toNat_add_one_of_lt (UInt32.not_le.mp left)
  | begins left buffer stopped out ret sess =>
      refine Or.inr ⟨by rw [ret]; decide, ?_, ?_, by rw [sess], ?_⟩
      · rw [sess]
        exact locked
      · rw [sess]
        exact down
      · rw [sess, out]
        rfl
  | waits left running out ret sess =>
      refine Or.inr ⟨ret, ?_, ?_, by rw [sess], ?_⟩
      · rw [sess]
        exact locked
      · rw [sess]
        exact down
      · rw [sess, out]
        rfl

/-- The session is dropped only when as many requests as there may be have
been sent. -/
theorem drop_spends
    (locked : w.sess.state = .locked) (down : w.sess.AnyDown)
    (ticks : List (UInt64 × Option PacketBuf)) :
    ∀ time ∈ w.dropTimes ticks,
      w.sess.resilience.maxReconnectAttempts.toNat ≤
        w.sess.reconnectAttempts.toNat + (w.requestTimes ticks).length := by
  induction ticks generalizing w with
  | nil =>
      exact List.forall_mem_nil _
  | cons tick rest inductionHypothesis =>
      intro time member
      rcases dropped_or_stays locked down tick with ⟨spent, -⟩ | stays
      · exact Nat.le_add_right_of_le (UInt32.le_iff_toNat_le.mp spent)
      · rw [dropTimes_cons, if_neg stays.ret, List.nil_append] at member
        have later := inductionHypothesis stays.locked stays.down time member
        rw [stays.resilience, stays.attempts] at later
        rw [requestTimes_cons, List.length_append, ← Nat.add_assoc]
        exact later

theorem length_dropTimes_le
    (locked : w.sess.state = .locked) (down : w.sess.AnyDown)
    (ticks : List (UInt64 × Option PacketBuf)) :
    (w.dropTimes ticks).length ≤ 1 := by
  induction ticks generalizing w with
  | nil =>
      exact Nat.zero_le 1
  | cons tick rest inductionHypothesis =>
      rw [dropTimes_cons]
      rcases dropped_or_stays locked down tick with ⟨-, gone⟩ | stays
      · rw [(reconnect_quiet gone rest).2.1, List.append_nil]
        split
        · exact Nat.le_refl 1
        · exact Nat.zero_le 1
      · rw [if_neg stays.ret, List.nil_append]
        exact inductionHypothesis stays.locked stays.down

/-- The requests are apart from each other, and the session is dropped only
when all attempts are spent and the last request went without an answer for the
retry time. -/
structure SpacedRequests (w : PathSide)
    (ticks : List (UInt64 × Option PacketBuf)) : Prop where
  requests : (w.requestTimes ticks).IsChain Apart
  spent :
    ∀ time ∈ w.dropTimes ticks,
      w.sess.resilience.maxReconnectAttempts.toNat ≤
        w.sess.reconnectAttempts.toNat + (w.requestTimes ticks).length
  unanswered :
    ∀ time ∈ w.dropTimes ticks,
      ∀ last ∈ (w.requestTimes ticks).getLast?, Apart last time

theorem spacedRequests_iff_chain
    (locked : w.sess.state = .locked) (down : w.sess.AnyDown)
    (ticks : List (UInt64 × Option PacketBuf)) :
    SpacedRequests w ticks ↔ (w.actionTimes ticks).IsChain Apart := by
  have single := length_dropTimes_le locked down ticks
  have spent := drop_spends locked down ticks
  rw [actionTimes, List.isChain_append]
  cases drops : w.dropTimes ticks with
  | nil =>
      constructor
      · intro spaced
        exact ⟨spaced.requests, List.isChain_nil, fun _ _ _ => nofun⟩
      · rintro ⟨requests, -, -⟩
        refine ⟨requests, spent, ?_⟩
        rw [drops]
        exact List.forall_mem_nil _
  | cons time later =>
      obtain rfl : later = [] := by
        rw [drops, List.length_cons] at single
        exact List.length_eq_zero_iff.mp (by omega)
      constructor
      · intro spaced
        refine ⟨spaced.requests, List.isChain_singleton time, ?_⟩
        rintro last member other ⟨⟩
        refine spaced.unanswered time ?_ last member
        rw [drops]
        exact List.mem_singleton_self time
      · rintro ⟨requests, -, apart⟩
        refine ⟨requests, spent, ?_⟩
        rw [drops, List.forall_mem_singleton]
        exact fun last member => apart last member time rfl

/-- The requests of a sequence of ticks are spaced exactly when every tick that
finds no timer running and has something to do comes the retry time after the
tick before it. -/
theorem spacedRequests_iff
    (locked : w.sess.state = .locked) (down : w.sess.AnyDown)
    {ticks : List (UInt64 × Option PacketBuf)}
    (nonzero : ∀ tick ∈ ticks, tick.1 ≠ 0)
    (order : (ticks.map Prod.fst).Pairwise (· ≤ ·)) :
    SpacedRequests w ticks ↔
      ∀ before tick after, ticks = before ++ tick :: after →
        (w.reconnectRun before).Rushes tick →
          ∀ time ∈ (before.map Prod.fst).getLast?, Apart time tick.1 := by
  have begun : Between w none none :=
    ⟨locked, down, fun _ => rfl, fun _ => nofun⟩
  rw [spacedRequests_iff_chain locked down]
  exact begun.chain_iff nonzero order

end

/-- A locked session whose only path is down. -/
def sampleLost : PathSide where
  sess :=
    { sessionInit with
      state := .locked
      resilience :=
        { resilienceInit with paths := fun _ => { state := .down } } }
  seq := 0

theorem anyDown_sampleLost : sampleLost.sess.AnyDown :=
  ⟨0, by decide, rfl⟩

theorem spacedRequests_iff_sample :
    SpacedRequests sampleLost [(1000, some default), (4000, none)] := by
  refine (spacedRequests_iff rfl anyDown_sampleLost (by decide)
    (by decide)).mpr ?_
  refine forall_split_cons.mpr ⟨?_,
    forall_split_cons.mpr ⟨?_, forall_split_nil⟩⟩
  · exact fun _ => nofun
  · rintro - time ⟨⟩
    exact (by decide : Apart 1000 4000)

/-- A tick every millisecond: three requests within two milliseconds, and the
session is dropped in the third. -/
theorem reconnect_requests_rush :
    sampleLost.requestTimes
        [(1000, some default), (1001, some default), (1002, some default),
          (1003, some default)] = [1000, 1001, 1002] ∧
      sampleLost.dropTimes
          [(1000, some default), (1001, some default), (1002, some default),
            (1003, some default)] = [1003] ∧
      ¬ SpacedRequests sampleLost
        [(1000, some default), (1001, some default), (1002, some default),
          (1003, some default)] := by
  have requests :
      sampleLost.requestTimes
        [(1000, some default), (1001, some default), (1002, some default),
          (1003, some default)] = [1000, 1001, 1002] := by
    decide +kernel
  refine ⟨requests, by decide +kernel, fun spaced => ?_⟩
  have chain := spaced.requests
  rw [requests, List.isChain_cons_cons] at chain
  exact absurd chain.1 (by decide)

end PathSide

end PqComm
