import Mathlib.Logic.Function.Basic
import PqComm.Engine.Hearing
import PqComm.Lib.Watchdog

/-!
# A link that is kept alive

Each engine ticks `heartbeat_tick` and `reconnect_tick`.  As long as both do
so in time and the network does not lose too many heartbeats in a row, neither
side takes a path down, asks for a reconnect or drops the session, whatever
other packets arrive.
-/

namespace PqComm

open Lib

/-! ## One side -/

/-- What one round of ticks leaves: the side, the heartbeat and the RECONNECT
that were sent. -/
structure Ticked where
  side : PathSide
  beat : Option PacketBuf
  request : Option PacketBuf

namespace PathSide

variable (w : PathSide)

/-- `heartbeat_tick` and `reconnect_tick`, as `transport_engine_poll` calls
them. -/
def tick (now : UInt64) (beatBuf requestBuf : Option PacketBuf) : Ticked :=
  let beat := PqComm.heartbeatTick w.sess beatBuf w.seq now
  let retry := reconnectTick beat.sess requestBuf beat.seq now
  { side := { sess := retry.sess, seq := retry.seq }
    beat := beat.out
    request := retry.out }

/-- `handshake_run_as_initiator` or `handshake_run_as_responder`. -/
def handshake (C : CryptoSuite) (initiator : Bool) (env : HandlerEnv)
    (p : PacketBuf) : PathSide :=
  let r :=
    if initiator then
      handshakeRunAsInitiator C env.hs w.sess p w.seq
    else
      handshakeRunAsResponder C env.hs w.sess p w.seq
  { sess := r.sess, seq := r.seq }

/-- A control packet in `engine_control_handler` or
`engine_responder_handler`.  What no handler of a locked session consumes goes
on to the handshake. -/
def control (C : CryptoSuite) (initiator : Bool) (env : HandlerEnv)
    (p : PacketBuf) : PathSide :=
  if w.sess.state = .locked then
    let r := lockedControl C env p w.sess w.seq
    let next : PathSide := { sess := r.sess, seq := r.seq }
    if r.consumed then
      next
    else
      next.handshake C initiator env p
  else
    w.handshake C initiator env p

/-- A packet that `transport_engine_poll` takes from a socket, in front of the
cipher. -/
def gates (filters : Filters) (env : InboundEnv) (p : PacketBuf) :
    PathSide :=
  { w with
    sess :=
      (pipelineInboundPreCrypto env filters (some w.sess) p).sess.getD
        w.sess }

/-- A packet that goes through the whole pipeline. -/
def receive (C : CryptoSuite) (filters : Filters) (call : InboundCall) :
    PathSide :=
  { w with
    sess :=
      (pipelineInboundProcess C call.env filters w.sess call.rxq
        call.packet).2.2.sess }

def interval : Nat := w.sess.resilience.heartbeatIntervalMs.toNat

/-- When the side has sent its last heartbeat. -/
def beaten : Nat := w.sess.resilience.lastHeartbeatMs.toNat

def heard (i : Nat) : Nat := (w.path i).lastActivityMs.toNat

/-- The path is one that `heartbeat_tick` and `reconnect_tick` look at. -/
def Uses (i : Nat) : Prop := i < w.sess.resilience.pathCount

/-- Locked, with no path that silence has got at. -/
structure Well : Prop where
  locked : w.sess.state = .locked
  fine : ∀ i, w.Uses i → (w.path i).state.Fine

end PathSide

/-! ### In the engine -/

/-- A slot of the pool with the counter of the engine. -/
def Engine.side (e : Engine) (i : Nat) : PathSide where
  sess := e.pool i
  seq := e.seqCounter

section

variable {C : CryptoSuite} {e : Engine}

theorem Engine.commit_side
    (origin : Origin) (i : Nat) (s : Session) (seq : UInt32)
    (out : Option PacketBuf) :
    (e.commit origin i s seq out).side i = { sess := s, seq := seq } := by
  have pool := Engine.commit_pool e origin i s seq out
  unfold Engine.side
  rw [pool, Function.update_self]
  cases out with
  | none =>
      rfl
  | some p =>
      rfl

theorem Engine.afterLocked_side (i : Nat) (r : LockedOut) :
    (e.afterLocked i r).side i = { sess := r.sess, seq := r.seq } := by
  have next := @Engine.commit_side e .control i r.sess r.seq r.out
  unfold Engine.afterLocked
  cases r.event with
  | none =>
      exact next
  | some event =>
      exact next

theorem Engine.handleHandshake_side
    (initiator : Bool) (env : HandlerEnv) (i : Nat) (p : PacketBuf) :
    (e.handleHandshake C initiator env i p).side i =
      (e.side i).handshake C initiator env p := by
  unfold Engine.handleHandshake PathSide.handshake Engine.side
  dsimp only
  generalize
    (if initiator then
      handshakeRunAsInitiator C env.hs (e.pool i) p e.seqCounter
    else
      handshakeRunAsResponder C env.hs (e.pool i) p e.seqCounter) = r
  have next :=
    @Engine.commit_side e .handshake i r.sess r.seq
      (r.out.map (·.sendTo e.peerAddr))
  split
  · -- The event and the route of a new lock are elsewhere.
    exact next
  · exact next

/-- `PathSide.control` is what the two handlers of the engine make of its
session and its counter. -/
theorem Engine.handle_side
    (initiator : Bool) (env : HandlerEnv) {i : Nat} {p : PacketBuf}
    {v : PacketView} (session : e.session = some i)
    (parsed : packetParse p = some v) (control : v.channelId = chControl) :
    (e.handle C initiator env p).side i =
      (e.side i).control C initiator env p := by
  have handled :
      e.handle C initiator env p = e.handleControl C initiator env i p := by
    unfold Engine.handle
    rw [session, parsed]
    exact if_neg (not_not.mpr control)
  rw [handled]
  unfold Engine.handleControl PathSide.control
  by_cases locked : (e.pool i).state = .locked
  · have after :=
      @Engine.afterLocked_side e i
        (lockedControl C env p (e.pool i) e.seqCounter)
    rw [if_pos locked, if_pos (c := (e.side i).sess.state = .locked) locked]
    dsimp only
    by_cases consumed :
        (lockedControl C env p (e.pool i) e.seqCounter).consumed = true
    · rw [if_pos consumed, after]
      exact (if_pos consumed).symm
    · rw [if_neg consumed, Engine.handleHandshake_side, after]
      exact (if_neg consumed).symm
  · rw [if_neg locked, if_neg (c := (e.side i).sess.state = .locked) locked]
    exact Engine.handleHandshake_side initiator env i p

end

/-! ### Heartbeats and ticks -/

theorem isHeartbeat_controlPacket
    (buf : PacketBuf) (clear : Bool) (sessionId : UInt64) (seq : UInt32)
    (addr : Bytes) (addrLen : Nat) {rest : Bytes} (long : 16 ≤ rest.length) :
    ((controlPacket buf clear sessionId seq
      (ctrlHeartbeat :: rest)).setAddr addr addrLen).IsHeartbeat := by
  have opcode :
      (controlPacket buf clear sessionId seq
        (ctrlHeartbeat :: rest)).opcode = ctrlHeartbeat := by
    rw [PacketBuf.opcode, controlPacket, headerSize,
      buildPacket_at _ _ _ _ _ _ _ (by rw [List.length_cons]; omega),
      List.getD_append_right _ _ _ _ (by simp)]
    simp
  have length :
      (controlPacket buf clear sessionId seq
        (ctrlHeartbeat :: rest)).len = 25 + rest.length := by
    rw [controlPacket, buildPacket_len, List.length_cons]
    omega
  constructor
  · change ¬ (controlPacket buf clear sessionId seq _).len < 25
    rw [length]
    omega
  · refine Or.inl ⟨opcode, ?_⟩
    change ¬ (controlPacket buf clear sessionId seq _).len < 41
    rw [length]
    omega

section

variable {w : PathSide} {now : UInt64}

theorem PathMetrics.age_quiet
    {p : PathMetrics} {interval timeout : UInt32} (fine : p.state.Fine)
    (recent : ¬ now - p.lastActivityMs > (interval * 3).toUInt64) :
    (p.age now interval timeout).state = p.state := by
  have notDegraded : ¬ p.state = .degraded := by
    rcases fine with active | unknown
    · rw [active]
      decide
    · rw [unknown]
      decide
  rw [PathMetrics.age_state, if_neg fun both => recent both.2,
    if_neg fun both => notDegraded both.1]

/-- No path is down, so there is nobody to reconnect to. -/
theorem reconnectTick_well
    (well : w.Well) (buf : Option PacketBuf) (now : UInt64) :
    reconnectTick w.sess buf w.seq now =
      { ret := 0, sess := w.sess, seq := w.seq } := by
  have up : ((List.range w.sess.resilience.pathCount).all fun i =>
      (w.sess.resilience.paths i).state != .down) = true := by
    rw [List.all_eq_true]
    intro i member
    have fine : (w.sess.resilience.paths i).state.Fine :=
      well.fine i (List.mem_range.mp member)
    rcases fine with active | unknown
    · rw [active]
      decide
    · rw [unknown]
      decide
  unfold reconnectTick
  rw [if_neg (not_not.mpr well.locked), if_pos up]

theorem PathSide.tick_well
    {r : CtlOut} {beatBuf : Option PacketBuf}
    (beat : PqComm.heartbeatTick w.sess beatBuf w.seq now = r)
    (well : (PathSide.mk r.sess r.seq).Well)
    (requestBuf : Option PacketBuf) :
    w.tick now beatBuf requestBuf =
      { side := { sess := r.sess, seq := r.seq }
        beat := r.out
        request := none } := by
  have quiet := reconnectTick_well well requestBuf now
  unfold PathSide.tick
  rw [beat]
  dsimp only at quiet ⊢
  rw [quiet]

/-- A round of ticks of a side that has heard of the other in time. -/
structure QuietTick (w : PathSide) (now : UInt64) (t : Ticked) : Prop where
  well : t.side.Well
  timing : SameTiming w.sess.resilience t.side.sess.resilience
  heard : ∀ i, t.side.heard i = w.heard i
  request : t.request = none
  beat :
    (t.side.beaten = now.toNat ∧ ∃ p, t.beat = some p ∧ p.IsHeartbeat) ∨
      (t.side.beaten = w.beaten ∧ t.beat = none ∧
        now - w.sess.resilience.lastHeartbeatMs <
          w.sess.resilience.heartbeatIntervalMs.toUInt64)

theorem quietTick_due
    (well : w.Well) (buf : PacketBuf) (requestBuf : Option PacketBuf)
    (due :
      now - w.sess.resilience.lastHeartbeatMs ≥
        w.sess.resilience.heartbeatIntervalMs.toUInt64) :
    QuietTick w now (w.tick now (some buf) requestBuf) := by
  have beat : PqComm.heartbeatTick w.sess (some buf) w.seq now =
      { heartbeatSend w.sess (some buf) w.seq now with ret := 1 } := by
    unfold PqComm.heartbeatTick
    rw [if_neg (not_not.mpr well.locked), if_pos due]
  have sent : heartbeatSend w.sess (some buf) w.seq now = _ :=
    if_neg (not_not.mpr well.locked)
  rw [sent] at beat
  rw [PathSide.tick_well beat ⟨well.locked, well.fine⟩]
  refine ⟨⟨well.locked, well.fine⟩, ⟨rfl, rfl, rfl⟩, fun _ => rfl, rfl,
    Or.inl ⟨rfl, _, rfl, ?_⟩⟩
  apply isHeartbeat_controlPacket
  rw [List.length_append, sessionIdBytes, length_leBytes, length_leBytes]

theorem quietTick_soon
    (well : w.Well) (beatBuf requestBuf : Option PacketBuf)
    (soon :
      now - w.sess.resilience.lastHeartbeatMs <
        w.sess.resilience.heartbeatIntervalMs.toUInt64)
    (recent : ∀ i, w.Uses i →
      ¬ now - (w.path i).lastActivityMs >
        (w.sess.resilience.heartbeatIntervalMs * 3).toUInt64) :
    QuietTick w now (w.tick now beatBuf requestBuf) := by
  have beat : PqComm.heartbeatTick w.sess beatBuf w.seq now =
      { ret := 0
        sess :=
          { w.sess with
            resilience := PqComm.resilienceTick w.sess.resilience now }
        seq := w.seq } := by
    unfold PqComm.heartbeatTick
    rw [if_neg (not_not.mpr well.locked), if_neg (UInt64.not_le.mpr soon)]
  have fine (i : Nat) (uses : w.Uses i) :
      ((PqComm.resilienceTick w.sess.resilience now).paths i).state.Fine := by
    have inside : i < w.sess.resilience.pathCount := uses
    have aged : ((w.path i).age now w.sess.resilience.heartbeatIntervalMs
        w.sess.resilience.reconnectTimeoutMs).state.Fine := by
      rw [PathMetrics.age_quiet (well.fine i uses) (recent i uses)]
      exact well.fine i uses
    change (if i < w.sess.resilience.pathCount then _ else _ :
      PathMetrics).state.Fine
    rw [if_pos inside]
    exact aged
  rw [PathSide.tick_well beat ⟨well.locked, fine⟩]
  refine ⟨⟨well.locked, fine⟩, ⟨rfl, rfl, rfl⟩, fun i => ?_, rfl,
    Or.inr ⟨rfl, rfl, soon⟩⟩
  change (if i < w.sess.resilience.pathCount then _ else _ :
    PathMetrics).lastActivityMs.toNat = _
  split
  · rw [PathMetrics.age_lastActivityMs]
    rfl
  · rfl

theorem quietTick
    (well : w.Well) {beatBuf : Option PacketBuf}
    (pool : beatBuf.isSome = true) (requestBuf : Option PacketBuf)
    (recent : ∀ i, w.Uses i →
      ¬ now - (w.path i).lastActivityMs >
        (w.sess.resilience.heartbeatIntervalMs * 3).toUInt64) :
    QuietTick w now (w.tick now beatBuf requestBuf) := by
  by_cases due :
      now - w.sess.resilience.lastHeartbeatMs ≥
        w.sess.resilience.heartbeatIntervalMs.toUInt64
  · obtain ⟨buf, rfl⟩ := Option.isSome_iff_exists.mp pool
    exact quietTick_due well buf requestBuf due
  · exact quietTick_soon well beatBuf requestBuf (UInt64.not_le.mp due) recent

end

/-! ## Two sides -/

/-- Two engines with a locked session: the role of each, when it has ticked
last, how many heartbeats to it were lost since one came, the heartbeats on
their way to it with the times they were sent at, and the RECONNECTs of both
so far. -/
structure Link where
  side : Side → PathSide
  roleInitiator : Side → Bool
  ticked : Side → UInt64
  lost : Side → Nat := fun _ => 0
  flight : Side → List (UInt64 × PacketBuf) := fun _ => []
  requests : List PacketBuf := []
  clock : UInt64

/-- Heartbeats come in any order.  All other packets, answers and duplicates
among them, may come at any time and from anybody. -/
inductive LinkEvent where
  | tick (side : Side) (beatBuf requestBuf : Option PacketBuf)
  | beat (side : Side) (i : Nat) (env : HandlerEnv)
  | loss (side : Side) (i : Nat)
  | control (side : Side) (env : HandlerEnv) (p : PacketBuf)
  | gates (side : Side) (filters : Filters) (env : InboundEnv)
      (p : PacketBuf)
  | packet (side : Side) (filters : Filters) (call : InboundCall)

/-- What is asked of the engines and the network: ticks no further apart than
`gap`, heartbeats no longer on their way than `delay`, and no more than
`losses` of them lost in a row. -/
structure LinkBounds where
  gap : Nat
  delay : Nat
  losses : Nat

namespace Link

variable (C : CryptoSuite) (bounds : LinkBounds)

def step (w : Link) (now : UInt64) : LinkEvent → Link
  | .tick side beatBuf requestBuf =>
      let t := (w.side side).tick now beatBuf requestBuf
      { w with
        side := Function.update w.side side t.side
        ticked := Function.update w.ticked side now
        flight :=
          Function.update w.flight side.other
            (w.flight side.other ++ t.beat.toList.map fun p => (now, p))
        requests := w.requests ++ t.request.toList
        clock := now }
  | .beat side i env =>
      match (w.flight side)[i]? with
      | none => { w with clock := now }
      | some (_, p) =>
          { w with
            side :=
              Function.update w.side side
                ((w.side side).control C (w.roleInitiator side)
                  { env with now := now } p)
            lost := Function.update w.lost side 0
            flight :=
              Function.update w.flight side ((w.flight side).eraseIdx i)
            clock := now }
  | .loss side i =>
      { w with
        lost := Function.update w.lost side (w.lost side + 1)
        flight := Function.update w.flight side ((w.flight side).eraseIdx i)
        clock := now }
  | .control side env p =>
      { w with
        side :=
          Function.update w.side side
            ((w.side side).control C (w.roleInitiator side)
              { env with now := now } p)
        clock := now }
  | .gates side filters env p =>
      { w with
        side :=
          Function.update w.side side ((w.side side).gates filters env p)
        clock := now }
  | .packet side filters call =>
      { w with
        side :=
          Function.update w.side side
            ((w.side side).receive C filters call)
        clock := now }

def run (w : Link) (events : List (UInt64 × LinkEvent)) : Link :=
  events.foldl (fun w event => w.step C event.1 event.2) w

/-- Nothing that was due by `now` has been left out. -/
structure InTime (w : Link) (now : UInt64) : Prop where
  clock : w.clock ≤ now
  ticks : ∀ side, now.toNat ≤ (w.ticked side).toNat + bounds.gap
  beats :
    ∀ side, ∀ beat ∈ w.flight side, now.toNat ≤ beat.1.toNat + bounds.delay

/-- The pool has a buffer for the heartbeat and for its answer, the network
does not lose too many, and a control packet is one with an opcode that the
handlers of a locked session consume, but no announcement of a hop. -/
def Admits (w : Link) : LinkEvent → Prop
  | .tick _ beatBuf _ => beatBuf.isSome = true
  | .beat _ _ env => env.heartbeatBuf.isSome = true
  | .loss side _ => w.lost side < bounds.losses
  | .control side env p =>
      25 ≤ p.len ∧ Consumed C env (w.side side).sess p ∧
        p.opcode ≠ ctrlPortHop
  | .gates _ _ _ _ => True
  | .packet _ _ _ => True

/-- A run in which the engines and the network keep to the bounds. -/
def Healthy : Link → List (UInt64 × LinkEvent) → Prop
  | _, [] => True
  | w, (now, event) :: rest =>
      w.InTime bounds now ∧ w.Admits C bounds event ∧
        Healthy (w.step C now event) rest

/-- Between two heartbeats a path stays silent for three intervals at
most. -/
def Spaced (w : Link) : Prop :=
  ∀ side,
    (bounds.losses + 1) * ((w.side side.other).interval + bounds.gap) +
        bounds.delay ≤ 3 * (w.side side).interval ∧
      3 * (w.side side).interval < 2 ^ 32

/-- What a side knows of the other on one of its paths. -/
def watch (w : Link) (side : Side) (i : Nat) : Watch where
  sent := (w.side side.other).beaten
  heard := (w.side side).heard i
  lost := w.lost side
  flight := (w.flight side).map fun beat => beat.1.toNat

/-- How far apart the heartbeats to a side can be. -/
def period (w : Link) (side : Side) : Nat :=
  (w.side side.other).interval + bounds.gap

/-- The invariant of the link. -/
structure Attended (w : Link) : Prop where
  well : ∀ side, (w.side side).Well
  beats : ∀ side, ∀ beat ∈ w.flight side, beat.2.IsHeartbeat
  ticked :
    ∀ side,
      (w.ticked side).toNat ≤ (w.side side).beaten + (w.side side).interval
  beaten : ∀ side, (w.side side).beaten ≤ w.clock.toNat
  heard :
    ∀ side i, (w.side side).Uses i →
      (w.side side).heard i ≤ w.clock.toNat
  few : ∀ side, w.lost side ≤ bounds.losses
  covered :
    ∀ side i, (w.side side).Uses i →
      (w.watch side i).Covered (w.period bounds side)

/-- Both sides are locked, have ticked within an interval of their last
heartbeat, and have heard it from each other. -/
structure Greeted (w : Link) : Prop where
  well : ∀ side, (w.side side).Well
  ticked :
    ∀ side,
      (w.ticked side).toNat ≤ (w.side side).beaten + (w.side side).interval
  met :
    ∀ side i, (w.side side).Uses i →
      (w.side side.other).beaten ≤ (w.side side).heard i ∧
        (w.side side).heard i ≤ w.clock.toNat
  beaten : ∀ side, (w.side side).beaten ≤ w.clock.toNat
  calm : ∀ side, w.lost side = 0 ∧ w.flight side = []

end Link

section

variable {C : CryptoSuite} {bounds : LinkBounds} {w w' : Link}
  {now : UInt64}

theorem Link.Greeted.attended (greeted : w.Greeted) :
    w.Attended bounds where
  well := greeted.well
  beats side beat member := by
    rw [(greeted.calm side).2] at member
    cases member
  ticked := greeted.ticked
  beaten := greeted.beaten
  heard side i uses := (greeted.met side i uses).2
  few side := by
    rw [(greeted.calm side).1]
    exact Nat.zero_le _
  covered side i uses :=
    Watch.Covered.of_heard (greeted.met side i uses).1

/-- No path has been silent for more than three intervals. -/
theorem Link.Attended.recent
    (attended : w.Attended bounds) (spaced : w.Spaced bounds)
    (inTime : w.InTime bounds now) (side : Side) {i : Nat}
    (uses : (w.side side).Uses i) :
    ¬ now - ((w.side side).path i).lastActivityMs >
      ((w.side side).sess.resilience.heartbeatIntervalMs * 3).toUInt64 := by
  obtain ⟨enough, small⟩ := spaced side
  have due : now.toNat ≤ (w.watch side i).sent + w.period bounds side := by
    have last := inTime.ticks side.other
    have ticked := attended.ticked side.other
    dsimp only [Link.watch, Link.period]
    omega
  have timely : ∀ time ∈ (w.watch side i).flight,
      now.toNat ≤ time + bounds.delay := by
    intro time member
    rcases List.mem_map.mp member with ⟨beat, beaten, rfl⟩
    exact inTime.beats side beat beaten
  have silence :=
    (attended.covered side i uses).silence (attended.few side) due timely
  have past : ((w.side side).path i).lastActivityMs ≤ now :=
    UInt64.le_trans
      (UInt64.le_iff_toNat_le.mpr (attended.heard side i uses)) inTime.clock
  have three :
      ((w.side side).sess.resilience.heartbeatIntervalMs *
        3).toUInt64.toNat = 3 * (w.side side).interval := by
    rw [UInt32.toNat_toUInt64, UInt32.toNat_mul]
    change (w.side side).interval * 3 % 2 ^ 32 = _
    rw [Nat.mod_eq_of_lt (by omega), Nat.mul_comm]
  rw [gt_iff_lt, UInt64.not_lt, UInt64.le_iff_toNat_le, three,
    UInt64.toNat_sub_of_le _ _ past]
  dsimp only [Link.watch, Link.period, PathSide.heard] at silence
  omega

/-! ## Packets and losses -/

theorem HearsAt.beaten_eq
    {x y : PathSide} (hears : HearsAt now x.sess y.sess) :
    y.beaten = x.beaten := by
  unfold PathSide.beaten
  rw [hears.beaten]

theorem SameTiming.interval_eq
    {x y : PathSide} (same : SameTiming x.sess.resilience y.sess.resilience) :
    y.interval = x.interval := by
  unfold PathSide.interval
  rw [same.interval]

theorem SameTiming.uses_iff
    {x y : PathSide} (same : SameTiming x.sess.resilience y.sess.resilience)
    {i : Nat} : y.Uses i ↔ x.Uses i := by
  unfold PathSide.Uses
  rw [same.pathCount]

theorem HearsAt.well
    {x y : PathSide} (hears : HearsAt now x.sess y.sess) (well : x.Well) :
    y.Well where
  locked := hears.state.trans well.locked
  fine i uses := hears.fine i (well.fine i (hears.timing.uses_iff.mp uses))

variable (bounds w w' now) in
/-- What becomes of the heartbeats to one side. -/
inductive Link.Passes (side : Side) : Prop
  | still
      (lost : w'.lost side = w.lost side)
      (flight : w'.flight side = w.flight side)
  | drops (i : Nat)
      (few : w.lost side < bounds.losses)
      (lost : w'.lost side = w.lost side + 1)
      (flight : w'.flight side = (w.flight side).eraseIdx i)
  | arrives (i : Nat)
      (lost : w'.lost side = 0)
      (flight : w'.flight side = (w.flight side).eraseIdx i)
      (heard : ∀ path, (w.side side).Uses path →
        ((w'.side side).path path).lastActivityMs = now)

variable (bounds w w' now) in
/-- A step that is no tick. -/
structure Link.Moves : Prop where
  clock : w'.clock = now
  ticked : w'.ticked = w.ticked
  requests : w'.requests = w.requests
  hears : ∀ side, HearsAt now (w.side side).sess (w'.side side).sess
  passes : ∀ side, w.Passes bounds w' now side

theorem Link.Passes.mem
    {side : Side} (passes : w.Passes bounds w' now side)
    {beat : UInt64 × PacketBuf} (member : beat ∈ w'.flight side) :
    beat ∈ w.flight side := by
  cases passes with
  | still lost flight =>
      rwa [flight] at member
  | drops i few lost flight =>
      rw [flight] at member
      exact List.mem_of_mem_eraseIdx member
  | arrives i lost flight heard =>
      rw [flight] at member
      exact List.mem_of_mem_eraseIdx member

theorem Link.Attended.covered_moves
    (attended : w.Attended bounds) (clock : w.clock ≤ now)
    (moves : w.Moves bounds w' now) {side : Side} {i : Nat}
    (uses : (w.side side).Uses i) :
    (w'.watch side i).Covered (w.period bounds side) := by
  have covered := attended.covered side i uses
  have sent : (w'.watch side i).sent = (w.watch side i).sent :=
    (moves.hears side.other).beaten_eq
  have past : (w'.watch side i).sent ≤ now.toNat := by
    rw [sent]
    exact Nat.le_trans (attended.beaten side.other)
      (UInt64.le_iff_toNat_le.mp clock)
  have fresh (heard : (w'.watch side i).heard = now.toNat) :
      (w'.watch side i).Covered (w.period bounds side) :=
    Watch.Covered.of_heard (heard ▸ past)
  rcases (moves.hears side).heard i with kept | heard
  · have same : (w'.watch side i).heard = (w.watch side i).heard :=
      congrArg UInt64.toNat kept
    cases moves.passes side with
    | still lost flight =>
        have equal : w'.watch side i = w.watch side i := by
          unfold Link.watch at sent same ⊢
          dsimp only at sent same
          rw [sent, same, lost, flight]
        rw [equal]
        exact covered
    | drops j few lost flight =>
        have equal : w'.watch side i =
            { w.watch side i with
              lost := (w.watch side i).lost + 1
              flight := (w.watch side i).flight.eraseIdx j } := by
          unfold Link.watch at sent same ⊢
          dsimp only at sent same ⊢
          rw [sent, same, lost, flight, List.eraseIdx_map]
        rw [equal]
        exact covered.lose j
    | arrives j lost flight heard =>
        exact fresh (congrArg UInt64.toNat (heard i uses))
  · exact fresh (congrArg UInt64.toNat heard)

theorem Link.Attended.moves
    (attended : w.Attended bounds) (clock : w.clock ≤ now)
    (moves : w.Moves bounds w' now) : w'.Attended bounds where
  well side := (moves.hears side).well (attended.well side)
  beats side beat member :=
    attended.beats side beat ((moves.passes side).mem member)
  ticked side := by
    rw [moves.ticked, (moves.hears side).beaten_eq,
      (moves.hears side).timing.interval_eq]
    exact attended.ticked side
  beaten side := by
    rw [moves.clock, (moves.hears side).beaten_eq]
    exact Nat.le_trans (attended.beaten side)
      (UInt64.le_iff_toNat_le.mp clock)
  heard side i uses := by
    rw [(moves.hears side).timing.uses_iff] at uses
    rw [moves.clock]
    rcases (moves.hears side).heard i with kept | heard
    · have same : (w'.side side).heard i = (w.side side).heard i :=
        congrArg UInt64.toNat kept
      rw [same]
      exact Nat.le_trans (attended.heard side i uses)
        (UInt64.le_iff_toNat_le.mp clock)
    · exact Nat.le_of_eq (congrArg UInt64.toNat heard)
  few side := by
    cases moves.passes side with
    | still lost flight =>
        rw [lost]
        exact attended.few side
    | drops i few lost flight =>
        rw [lost]
        exact few
    | arrives i lost flight heard =>
        rw [lost]
        exact Nat.zero_le _
  covered side i uses := by
    rw [(moves.hears side).timing.uses_iff] at uses
    have period : w'.period bounds side = w.period bounds side := by
      unfold Link.period
      rw [(moves.hears side.other).timing.interval_eq]
    rw [period]
    exact attended.covered_moves clock moves uses

/-! ## Ticks -/

section

variable {side : Side} {beatBuf requestBuf : Option PacketBuf}

theorem Link.tick_side :
    (w.step C now (.tick side beatBuf requestBuf)).side side =
      ((w.side side).tick now beatBuf requestBuf).side :=
  Function.update_self _ _ _

theorem Link.tick_side_other :
    (w.step C now (.tick side beatBuf requestBuf)).side side.other =
      w.side side.other :=
  Function.update_of_ne (Side.other_ne side) _ _

theorem Link.tick_flight :
    (w.step C now (.tick side beatBuf requestBuf)).flight side =
      w.flight side :=
  Function.update_of_ne (Side.other_ne side).symm _ _

theorem Link.tick_flight_other :
    (w.step C now (.tick side beatBuf requestBuf)).flight side.other =
      w.flight side.other ++
        ((w.side side).tick now beatBuf requestBuf).beat.toList.map
          fun p => (now, p) :=
  Function.update_self _ _ _

theorem Link.tick_ticked :
    (w.step C now (.tick side beatBuf requestBuf)).ticked side = now :=
  Function.update_self _ _ _

theorem Link.tick_ticked_other :
    (w.step C now (.tick side beatBuf requestBuf)).ticked side.other =
      w.ticked side.other :=
  Function.update_of_ne (Side.other_ne side) _ _

end

/-- What a side knows of itself and what is on its way to it, after ticks of
the other. -/
theorem Link.watch_tick_self
    {side : Side} {beatBuf requestBuf : Option PacketBuf}
    (quiet : QuietTick (w.side side) now
      ((w.side side).tick now beatBuf requestBuf)) (i : Nat) :
    (w.step C now (.tick side beatBuf requestBuf)).watch side i =
      w.watch side i := by
  have apart : side ≠ side.other := (Side.other_ne side).symm
  have heard := quiet.heard i
  unfold Link.watch Link.step
  dsimp only
  rw [Function.update_self, Function.update_of_ne (Side.other_ne side),
    Function.update_of_ne apart, heard]

/-- The heartbeat, when there was one, is on its way to the other side. -/
theorem Link.covered_tick_other
    {side : Side} {beatBuf requestBuf : Option PacketBuf}
    (quiet : QuietTick (w.side side) now
      ((w.side side).tick now beatBuf requestBuf))
    (due : now.toNat ≤ (w.side side).beaten + w.period bounds side.other)
    {i : Nat}
    (covered :
      (w.watch side.other i).Covered (w.period bounds side.other)) :
    ((w.step C now (.tick side beatBuf requestBuf)).watch side.other
      i).Covered (w.period bounds side.other) := by
  have sent : (w.watch side.other i).sent = (w.side side).beaten := by
    unfold Link.watch
    rw [Side.other_other]
  rcases quiet.beat with ⟨beaten, p, beat, -⟩ | ⟨beaten, beat, -⟩
  · have equal :
        (w.step C now (.tick side beatBuf requestBuf)).watch side.other i =
          { w.watch side.other i with
            sent := now.toNat
            flight := (w.watch side.other i).flight ++ [now.toNat] } := by
      unfold Link.watch Link.step
      dsimp only
      rw [Side.other_other, Function.update_self, Function.update_self,
        Function.update_of_ne (Side.other_ne side), beaten, beat,
        List.map_append]
      rfl
    rw [equal]
    exact covered.send (sent ▸ due)
  · have equal :
        (w.step C now (.tick side beatBuf requestBuf)).watch side.other i =
          w.watch side.other i := by
      unfold Link.watch Link.step
      dsimp only
      rw [Side.other_other, Function.update_self, Function.update_self,
        Function.update_of_ne (Side.other_ne side), beaten, beat]
      simp
    rw [equal]
    exact covered

theorem Link.Attended.tick_beats
    (attended : w.Attended bounds) {side : Side}
    {beatBuf requestBuf : Option PacketBuf}
    (quiet : QuietTick (w.side side) now
      ((w.side side).tick now beatBuf requestBuf))
    (one : Side) {beat : UInt64 × PacketBuf}
    (member :
      beat ∈ (w.step C now (.tick side beatBuf requestBuf)).flight one) :
    beat.2.IsHeartbeat := by
  rcases side.eq_or_other one with rfl | rfl
  · rw [Link.tick_flight] at member
    exact attended.beats one beat member
  · rw [Link.tick_flight_other] at member
    rcases List.mem_append.mp member with old | new
    · exact attended.beats side.other beat old
    · rcases List.mem_map.mp new with ⟨p, sent, rfl⟩
      rcases quiet.beat with ⟨-, q, is, heartbeat⟩ | ⟨-, none, -⟩
      · rw [is, Option.mem_toList] at sent
        cases sent
        exact heartbeat
      · rw [none] at sent
        cases sent

/-- A side that sends nothing has sent its last heartbeat within the
interval. -/
theorem Link.Attended.tick_ticked
    (attended : w.Attended bounds) (past : w.clock.toNat ≤ now.toNat)
    {side : Side} {beatBuf requestBuf : Option PacketBuf}
    (quiet : QuietTick (w.side side) now
      ((w.side side).tick now beatBuf requestBuf))
    (one : Side) :
    ((w.step C now (.tick side beatBuf requestBuf)).ticked one).toNat ≤
      ((w.step C now (.tick side beatBuf requestBuf)).side one).beaten +
        ((w.step C now (.tick side beatBuf requestBuf)).side
          one).interval := by
  rcases side.eq_or_other one with rfl | rfl
  · rw [Link.tick_side, Link.tick_ticked, quiet.timing.interval_eq]
    rcases quiet.beat with ⟨beaten, -⟩ | ⟨beaten, -, soon⟩
    · rw [beaten]
      exact Nat.le_add_right _ _
    · have before : (w.side one).sess.resilience.lastHeartbeatMs ≤ now :=
        UInt64.le_iff_toNat_le.mpr
          (Nat.le_trans (attended.beaten one) past)
      rw [UInt64.lt_iff_toNat_lt, UInt64.toNat_sub_of_le _ _ before,
        UInt32.toNat_toUInt64] at soon
      rw [beaten]
      unfold PathSide.beaten PathSide.interval
      omega
  · rw [Link.tick_side_other, Link.tick_ticked_other]
    exact attended.ticked side.other

theorem Link.Attended.tick_covered
    (attended : w.Attended bounds) {side : Side}
    {beatBuf requestBuf : Option PacketBuf}
    (quiet : QuietTick (w.side side) now
      ((w.side side).tick now beatBuf requestBuf))
    (due : now.toNat ≤ (w.side side).beaten + w.period bounds side.other)
    (one : Side) (i : Nat)
    (uses : ((w.step C now (.tick side beatBuf requestBuf)).side one).Uses
      i) :
    ((w.step C now (.tick side beatBuf requestBuf)).watch one i).Covered
      ((w.step C now (.tick side beatBuf requestBuf)).period bounds
        one) := by
  rcases side.eq_or_other one with rfl | rfl
  · rw [Link.tick_side, quiet.timing.uses_iff] at uses
    have period :
        (w.step C now (.tick one beatBuf requestBuf)).period bounds one =
          w.period bounds one := by
      unfold Link.period
      rw [Link.tick_side_other]
    rw [period, Link.watch_tick_self quiet i]
    exact attended.covered one i uses
  · rw [Link.tick_side_other] at uses
    have period :
        (w.step C now (.tick side beatBuf requestBuf)).period bounds
            side.other =
          w.period bounds side.other := by
      unfold Link.period
      rw [Side.other_other, Link.tick_side, quiet.timing.interval_eq]
    rw [period]
    exact Link.covered_tick_other quiet due
      (attended.covered side.other i uses)

theorem Link.Attended.tick
    (attended : w.Attended bounds) (spaced : w.Spaced bounds)
    (inTime : w.InTime bounds now) (side : Side)
    {beatBuf : Option PacketBuf} (pool : beatBuf.isSome = true)
    (requestBuf : Option PacketBuf) :
    (w.step C now (.tick side beatBuf requestBuf)).Attended bounds ∧
      (w.step C now (.tick side beatBuf requestBuf)).requests =
        w.requests := by
  have quiet := quietTick (attended.well side) pool requestBuf
    fun i uses => attended.recent spaced inTime side uses
  have past : w.clock.toNat ≤ now.toNat :=
    UInt64.le_iff_toNat_le.mp inTime.clock
  have recently : now.toNat ≤ (w.side side).beaten +
      w.period bounds side.other := by
    have last := inTime.ticks side
    have ticked := attended.ticked side
    unfold Link.period
    rw [Side.other_other]
    omega
  refine ⟨
    { well := ?_
      beats := fun one _ member => attended.tick_beats quiet one member
      ticked := attended.tick_ticked past quiet
      beaten := ?_
      heard := ?_
      few := attended.few
      covered := attended.tick_covered quiet recently }, ?_⟩
  · intro one
    rcases side.eq_or_other one with rfl | rfl
    · rw [Link.tick_side]
      exact quiet.well
    · rw [Link.tick_side_other]
      exact attended.well side.other
  · intro one
    change _ ≤ now.toNat
    rcases side.eq_or_other one with rfl | rfl
    · rw [Link.tick_side]
      rcases quiet.beat with ⟨beaten, -⟩ | ⟨beaten, -⟩
      · exact Nat.le_of_eq beaten
      · rw [beaten]
        exact Nat.le_trans (attended.beaten one) past
    · rw [Link.tick_side_other]
      exact Nat.le_trans (attended.beaten side.other) past
  · intro one i uses
    change _ ≤ now.toNat
    rcases side.eq_or_other one with rfl | rfl
    · rw [Link.tick_side] at uses ⊢
      rw [quiet.timing.uses_iff] at uses
      rw [quiet.heard i]
      exact Nat.le_trans (attended.heard one i uses) past
    · rw [Link.tick_side_other] at uses ⊢
      exact Nat.le_trans (attended.heard side.other i uses) past
  · have none : w.requests ++
        ((w.side side).tick now beatBuf requestBuf).request.toList =
          w.requests := by
      rw [quiet.request]
      exact List.append_nil w.requests
    exact none

/-! ## Runs -/

theorem PacketBuf.IsHeartbeat.consumed
    {p : PacketBuf} (beat : p.IsHeartbeat) {env : HandlerEnv}
    (pool : env.heartbeatBuf.isSome = true) (s : Session) :
    Consumed C env s p := by
  rcases beat.2 with ⟨request, long⟩ | ack
  · exact Or.inl ⟨request, Nat.not_lt.mp long, pool⟩
  · exact Or.inr (Or.inl ack)

/-- A packet that is consumed does not reach the handshake. -/
theorem PathSide.control_consumed
    {x : PathSide} (locked : x.sess.state = .locked) {p : PacketBuf}
    (long : 25 ≤ p.len) {env : HandlerEnv}
    (consumed : Consumed C env x.sess p) (initiator : Bool) :
    (x.control C initiator env p).sess =
      (lockedControl C env p x.sess x.seq).sess := by
  have kept : (lockedControl C env p x.sess x.seq).consumed = true :=
    (lockedControl_consumed_iff x.seq locked long).mpr consumed
  unfold PathSide.control
  rw [if_pos locked]
  dsimp only
  rw [if_pos kept]

theorem PathSide.hearsAt_control
    {x : PathSide} (locked : x.sess.state = .locked) {p : PacketBuf}
    (long : 25 ≤ p.len) {env : HandlerEnv}
    (consumed : Consumed C env x.sess p) (other : p.opcode ≠ ctrlPortHop)
    (initiator : Bool) :
    HearsAt env.now x.sess (x.control C initiator env p).sess := by
  rw [PathSide.control_consumed locked long consumed]
  exact hearsAt_lockedControl C other env x.seq

theorem PathSide.hearsAt_gates
    {x : PathSide} (filters : Filters) (env : InboundEnv) (p : PacketBuf) :
    HearsAt now x.sess (x.gates filters env p).sess := by
  have every :
      ∀ s' ∈ (pipelineInboundPreCrypto env filters (some x.sess) p).sess,
        HearsAt now x.sess s' :=
    hearsAt_pipelineInboundPreCrypto env filters
  unfold PathSide.gates
  dsimp only
  cases is : (pipelineInboundPreCrypto env filters (some x.sess) p).sess with
  | none =>
      exact HearsAt.refl x.sess
  | some s' =>
      exact every s' is

/-- All sides but one have kept everything. -/
theorem Link.Moves.of_update
    {side : Side} {x : PathSide}
    (hears : HearsAt now (w.side side).sess x.sess)
    (sides : w'.side = Function.update w.side side x)
    (passes : w.Passes bounds w' now side)
    (others : ∀ one, one ≠ side →
      w'.lost one = w.lost one ∧ w'.flight one = w.flight one)
    (clock : w'.clock = now) (ticked : w'.ticked = w.ticked)
    (requests : w'.requests = w.requests) : w.Moves bounds w' now where
  clock := clock
  ticked := ticked
  requests := requests
  hears one := by
    rw [sides]
    by_cases here : one = side
    · rw [here, Function.update_self]
      exact hears
    · rw [Function.update_of_ne here]
      exact HearsAt.refl _
  passes one := by
    by_cases here : one = side
    · rw [here]
      exact passes
    · exact Link.Passes.still (others one here).1 (others one here).2

theorem Link.Attended.beat
    (attended : w.Attended bounds) (side : Side) (i : Nat)
    {env : HandlerEnv} (pool : env.heartbeatBuf.isSome = true) :
    w.Moves bounds (w.step C now (.beat side i env)) now := by
  unfold Link.step
  dsimp only
  split
  · exact
      { clock := rfl
        ticked := rfl
        requests := rfl
        hears := fun one => HearsAt.refl _
        passes := fun one => Link.Passes.still rfl rfl }
  · rename_i time p found
    have beat : p.IsHeartbeat :=
      attended.beats side _ (List.mem_of_getElem? found)
    have locked := (attended.well side).locked
    have long := Nat.not_lt.mp beat.1
    have consumed :
        Consumed C { env with now := now } (w.side side).sess p :=
      beat.consumed pool (w.side side).sess
    have hears :=
      PathSide.hearsAt_control locked long consumed beat.not_hop
        (w.roleInitiator side)
    apply Link.Moves.of_update hears rfl
    · apply Link.Passes.arrives i
      · exact Function.update_self _ _ _
      · exact Function.update_self _ _ _
      · intro path uses
        dsimp only
        rw [Function.update_self]
        unfold PathSide.path
        rw [PathSide.control_consumed locked long consumed]
        exact heard_lockedControl C beat { env with now := now } _ uses
    · exact fun one apart =>
        ⟨Function.update_of_ne apart _ _, Function.update_of_ne apart _ _⟩
    · rfl
    · rfl
    · rfl

theorem Link.Attended.step
    (attended : w.Attended bounds) (spaced : w.Spaced bounds)
    (inTime : w.InTime bounds now) {event : LinkEvent}
    (admits : w.Admits C bounds event) :
    (w.step C now event).Attended bounds ∧
      (w.step C now event).requests = w.requests ∧
        (w.step C now event).Spaced bounds := by
  have moves (moved : w.Moves bounds (w.step C now event) now) :
      (w.step C now event).Attended bounds ∧
        (w.step C now event).requests = w.requests ∧
          (w.step C now event).Spaced bounds := by
    refine ⟨attended.moves inTime.clock moved, moved.requests,
      fun side => ?_⟩
    rw [(moved.hears side).timing.interval_eq,
      (moved.hears side.other).timing.interval_eq]
    exact spaced side
  cases event with
  | tick side beatBuf requestBuf =>
      obtain ⟨next, none⟩ :=
        attended.tick (C := C) spaced inTime side admits requestBuf
      refine ⟨next, none, fun one => ?_⟩
      have quiet := quietTick (attended.well side) admits requestBuf
        fun i uses => attended.recent spaced inTime side uses
      have same (one : Side) :
          ((w.step C now (.tick side beatBuf requestBuf)).side
            one).interval = (w.side one).interval := by
        unfold Link.step
        dsimp only
        by_cases here : one = side
        · rw [here, Function.update_self]
          exact quiet.timing.interval_eq
        · rw [Function.update_of_ne here]
      rw [same one, same one.other]
      exact spaced one
  | beat side i env =>
      exact moves (attended.beat side i admits)
  | loss side i =>
      apply moves
      refine ⟨rfl, rfl, rfl, fun one => HearsAt.refl _, fun one => ?_⟩
      by_cases here : one = side
      · subst here
        exact Link.Passes.drops i admits (Function.update_self _ _ _)
          (Function.update_self _ _ _)
      · exact Link.Passes.still (Function.update_of_ne here _ _)
          (Function.update_of_ne here _ _)
  | control side env p =>
      apply moves
      obtain ⟨long, consumed, other⟩ := admits
      have consumed :
          Consumed C { env with now := now } (w.side side).sess p :=
        consumed
      exact Link.Moves.of_update
        (PathSide.hearsAt_control (attended.well side).locked long consumed
          other (w.roleInitiator side))
        rfl (Link.Passes.still rfl rfl) (fun _ _ => ⟨rfl, rfl⟩) rfl rfl rfl
  | gates side filters env p =>
      apply moves
      exact Link.Moves.of_update (PathSide.hearsAt_gates filters env p) rfl
        (Link.Passes.still rfl rfl) (fun _ _ => ⟨rfl, rfl⟩) rfl rfl rfl
  | packet side filters call =>
      apply moves
      exact Link.Moves.of_update
        (hearsAt_pipelineInboundProcess C call.env filters call.rxq) rfl
        (Link.Passes.still rfl rfl) (fun _ _ => ⟨rfl, rfl⟩) rfl rfl rfl

theorem Link.Attended.run
    (attended : w.Attended bounds) (spaced : w.Spaced bounds)
    {events : List (UInt64 × LinkEvent)}
    (healthy : w.Healthy C bounds events) :
    (w.run C events).Attended bounds ∧
      (w.run C events).requests = w.requests := by
  induction events generalizing w with
  | nil =>
      exact ⟨attended, rfl⟩
  | cons event rest inductionHypothesis =>
      obtain ⟨inTime, admits, later⟩ := healthy
      obtain ⟨next, none, spaced⟩ :=
        attended.step (C := C) spaced inTime admits
      obtain ⟨final, still⟩ := inductionHypothesis next spaced later
      exact ⟨final, still.trans none⟩

end

/-! ## A heartbeat that is lost -/

instance {P : Side → Prop} [DecidablePred P] :
    Decidable (∀ side, P side) :=
  decidable_of_iff (P .left ∧ P .right)
    ⟨fun both side => by
      cases side
      · exact both.1
      · exact both.2,
    fun all => ⟨all .left, all .right⟩⟩

instance (bounds : LinkBounds) (w : Link) (now : UInt64) :
    Decidable (w.InTime bounds now) :=
  decidable_of_iff
    (w.clock ≤ now ∧
      (∀ side, now.toNat ≤ (w.ticked side).toNat + bounds.gap) ∧
        ∀ side, ∀ beat ∈ w.flight side,
          now.toNat ≤ beat.1.toNat + bounds.delay)
    ⟨fun parts => ⟨parts.1, parts.2.1, parts.2.2⟩,
      fun inTime => ⟨inTime.clock, inTime.ticks, inTime.beats⟩⟩

instance (C : CryptoSuite) (env : HandlerEnv) (s : Session)
    (p : PacketBuf) : Decidable (CompletesRekey C env s p) :=
  inferInstanceAs (Decidable (_ ∨ _))

instance (C : CryptoSuite) (env : HandlerEnv) (s : Session)
    (p : PacketBuf) : Decidable (Consumed C env s p) :=
  inferInstanceAs (Decidable (_ ∨ _))

instance (C : CryptoSuite) (bounds : LinkBounds) (w : Link) :
    (event : LinkEvent) → Decidable (w.Admits C bounds event)
  | .tick _ beatBuf _ => inferInstanceAs (Decidable (beatBuf.isSome = true))
  | .beat _ _ env =>
      inferInstanceAs (Decidable (env.heartbeatBuf.isSome = true))
  | .loss side _ => inferInstanceAs (Decidable (w.lost side < bounds.losses))
  | .control _ _ _ => inferInstanceAs (Decidable (_ ∧ _))
  | .gates _ _ _ _ => isTrue trivial
  | .packet _ _ _ => isTrue trivial

instance Link.decidableHealthy (C : CryptoSuite) (bounds : LinkBounds) :
    (w : Link) → (events : List (UInt64 × LinkEvent)) →
      Decidable (w.Healthy C bounds events)
  | _, [] => isTrue trivial
  | w, (now, event) :: rest =>
      have := Link.decidableHealthy C bounds (w.step C now event) rest
      inferInstanceAs (Decidable (_ ∧ _ ∧ _))

end PqComm
