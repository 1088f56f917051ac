import PqComm.Core.Ring
import PqComm.Core.Session

/-!
# The session gate, the replay window and the receive queues

`session_check` of `session_gate.c`, `seq_check` of `seq_check.c` and
`rx_demux_push` of `rx_demux.c`.
-/

namespace PqComm

open Lib

/-- The control opcodes a session that is not locked lets through. -/
def controlExpected (s : Session) (opcode : UInt8) : Bool :=
  match s.role, s.state with
  | .responder, .idle => opcode == ctrlHello || opcode == ctrlPqKemInit
  | .responder, .handshakeStart =>
      opcode == ctrlHello || opcode == ctrlPqKemInit
  | .responder, .pqKemResponseSent => opcode == ctrlIdentityProof
  | .responder, .identityProofSent => opcode == ctrlSessionLocked
  | .initiator, .handshakeStart => opcode == ctrlAccept
  | .initiator, .pqKemInitSent => opcode == ctrlPqKemResponse
  | .initiator, .pqKemResponseSent => opcode == ctrlIdentityProof
  | .initiator, .identityProofSent => opcode == ctrlSessionLocked
  | _, _ => false

/-- The first registered path whose port is the source port. -/
def matchPath (s : Session) (port : Bytes) : Option Nat :=
  (List.range s.resilience.pathCount).find? fun i =>
    s.peerAddrLens i != 0 && sinPort (s.peerAddrs i) == port

/-- `session_check`: the view with its path index, or `none` for -1. -/
def sessionCheck (s : Session) (v : PacketView) : Option PacketView :=
  if v.channelId = chControl then
    if s.state = .locked then
      some v
    else if controlExpected s (v.payloadAt 0) then
      some v
    else
      none
  else if s.state ≠ .locked then
    none
  else if s.addrLen = 0 then
    none
  else if s.sessionId ≠ 0 ∧ v.sessionId ≠ s.sessionId then
    none
  else if v.buf.addrLen ≠ s.addrLen then
    none
  else if sinFamily v.buf.addr ≠ sinFamily s.addr then
    none
  else if sin6Addr v.buf.addr ≠ sin6Addr s.addr then
    none
  else if s.resilience.multipathEnabled then
    (matchPath s (sinPort v.buf.addr)).map fun i => { v with pathIdx := i }
  else if sinPort v.buf.addr ≠ sinPort s.addr then
    none
  else
    some { v with pathIdx := 0 }

/-! ## The replay window -/

def replayWindowSize : Nat := 64

/-- `seq_check_bitmap`: whether the number is fresh, and the window.  A refused
call may still have set a zero bitmap to one. -/
def seqCheckBitmap (seq lastSeq : UInt32) (bitmap : UInt64) :
    Bool × UInt32 × UInt64 :=
  if seq = 0 then
    (false, lastSeq, bitmap)
  else if lastSeq = 0 then
    (true, seq, 1)
  else if seq > lastSeq then
    let diff := seq - lastSeq
    let bitmap :=
      if diff.toNat ≥ replayWindowSize then 0 else bitmap <<< diff.toUInt64
    (true, seq, bitmap ||| 1)
  else
    let offset := lastSeq - seq
    if offset.toNat ≥ replayWindowSize then
      (false, lastSeq, bitmap)
    else
      let bitmap := if bitmap = 0 then 1 else bitmap
      let mask := (1 : UInt64) <<< offset.toUInt64
      if bitmap &&& mask ≠ 0 then
        (false, lastSeq, bitmap)
      else
        (true, lastSeq, bitmap ||| mask)

/-- `seq_check`: the session with its new window and the verdict. -/
def seqCheck (s : Session) (v : PacketView) : Session × Bool :=
  if v.seq = 0 then
    (s, false)
  else if s.resilience.multipathEnabled ∧
      v.pathIdx < s.resilience.pathCount then
    let path := s.resilience.paths v.pathIdx
    let window := seqCheckBitmap v.seq path.lastSeq path.recvBitmap
    ({ s with
        resilience :=
          s.resilience.setPath v.pathIdx fun p =>
            { p with lastSeq := window.2.1, recvBitmap := window.2.2 } },
      window.1)
  else
    let window := seqCheckBitmap v.seq s.lastSeq s.recvBitmap
    ({ s with lastSeq := window.2.1, recvBitmap := window.2.2 }, window.1)

/-! ## Rings and receive queues -/

/-- A ring holds at most `RING_SIZE - 1` items. -/
def ringFull {α : Type} (ring : List α) : Bool :=
  decide (ring.length ≥ ringSize - 1)

/-- `ring_push`: whether the item was taken, and the ring. -/
def ringPush {α : Type} (ring : List α) (item : α) : Bool × List α :=
  if ringFull ring then (false, ring) else (true, ring ++ [item])

/-- What is on the ring of `ring.h`. -/
def SpscRing.contents {α : Type} (r : SpscRing α) : List α :=
  r.pushed.drop r.popped.length

/-- A push that nobody interrupts is `ringPush` on the contents. -/
theorem ringPush_refines
    {α : Type} {r : SpscRing α} (inv : RingInv r) (idle : r.producer = .idle)
    (item : α) :
    (r.run
        [.push item, .producer, .producer, .producer, .producer]).contents =
      (ringPush r.contents item).2 := by
  have size : r.contents.length = r.held := by
    rw [SpscRing.contents, List.length_drop]
    rfl
  have below := inv.popped_le
  unfold ringPush ringFull
  rw [size]
  simp only [SpscRing.run, List.foldl_cons, List.foldl_nil, SpscRing.act,
    idle, SpscRing.pushStep]
  by_cases full : ringNext r.writeIdx = r.readIdx
  · have held := inv.full_iff.mp full
    simp only [full, if_true, held, Nat.le_refl, decide_true]
    rfl
  · have free : ¬ r.held ≥ ringSize - 1 := by
      intro most
      exact full (inv.full_iff.mpr (Nat.le_antisymm inv.bound most))
    simp only [full, if_false, free, decide_false, Bool.false_eq_true]
    exact List.drop_append_of_le_length below

/-- `rx_queues_t`, one ring for each channel. -/
structure RxQueues where
  control : List PacketBuf := []
  audio : List PacketBuf := []
  chat : List PacketBuf := []
  file : List PacketBuf := []
  video : List PacketBuf := []
  route : List PacketBuf := []

/-- The ring of a channel. -/
def RxQueues.ring (q : RxQueues) (channel : UInt8) : List PacketBuf :=
  if channel = chControl then q.control
  else if channel = chAudio then q.audio
  else if channel = chChat then q.chat
  else if channel = chFile then q.file
  else if channel = chVideo then q.video
  else q.route

/-- Replace the ring of a channel. -/
def RxQueues.setRing (q : RxQueues) (channel : UInt8)
    (ring : List PacketBuf) : RxQueues :=
  if channel = chControl then { q with control := ring }
  else if channel = chAudio then { q with audio := ring }
  else if channel = chChat then { q with chat := ring }
  else if channel = chFile then { q with file := ring }
  else if channel = chVideo then { q with video := ring }
  else { q with route := ring }

/-- `rx_demux_push`; `false` stands for -1. -/
def rxDemuxPush (q : RxQueues) (p : PacketBuf) (channel : UInt8) :
    Bool × RxQueues :=
  if channel < chControl ∨ channel > chVideo then
    (false, q)
  else
    let pushed := ringPush (q.ring channel) p
    (pushed.1, q.setRing channel pushed.2)

end PqComm
