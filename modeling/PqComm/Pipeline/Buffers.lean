import PqComm.Layers.Ledger
import PqComm.Pipeline.Inbound

/-!
# Buffers on the receive side

`process_ring_for_engine` of `transport_engine.c` and the functions below it
with buffers as pointers into the pool: `try_rebuild` takes a buffer,
`resilience_check` and `pipeline_inbound_post_crypto` return some, and
`rx_demux_push` keeps one.  The functions of `PqComm.Pipeline.Inbound` work
on the contents of the buffers instead; `RxSide.contents` relates the two.

A run mixes calls of `process_ring_for_engine` with what the other threads do
to the pool.
-/

namespace PqComm

open Lib

/-- The pool and the receive side of one session.  The pointer
`sess->fec_recovered` is in the ledger. -/
structure RxSide where
  ledger : Ledger
  mem : Nat → PacketBuf
  sess : Session

/-- A function of the type of `control_handler`: what it does to the session,
and the packets it builds before and after it returns its buffer, each with
the answer of the ring it is pushed on.  A packet that no ring takes is
returned. -/
structure ControlHandler where
  session : Session → PacketBuf → Session
  replies : Session → PacketBuf → List (PacketBuf × Bool)
  followUps : Session → PacketBuf → List (PacketBuf × Bool)

namespace RxSide

def write (w : RxSide) (h : Nat) (p : PacketBuf) : RxSide :=
  { w with mem := Function.update w.mem h p }

def setSess (w : RxSide) (sess : Session) : RxSide :=
  { w with sess := sess }

def setResilience (w : RxSide) (resilience : Resilience) : RxSide :=
  w.setSess { w.sess with resilience := resilience }

def setLedger (w : RxSide) (ledger : Ledger) : RxSide :=
  { w with ledger := ledger }

def setRxRing (w : RxSide) (rxRing : List Nat) : RxSide :=
  w.setLedger { w.ledger with rxRing := rxRing }

def poolReturn (w : RxSide) (h : Nat) : RxSide :=
  w.setLedger (w.ledger.poolReturn h)

/-! ## Forward error correction -/

/-- `try_rebuild`. -/
def tryRebuild (w : RxSide) : RxSide :=
  match fecRxRebuild w.sess.resilience with
  | (resilience, none) => w.setResilience resilience
  | (resilience, some (payload, seq)) =>
      let w := w.setResilience resilience
      match w.ledger.poolGet with
      | none => w
      | some (rec, ledger) =>
          (w.write rec
            (rebuiltPacket (w.mem rec) w.sess resilience.fecRxChannelId
              payload seq)).setLedger
            { ledger with fecRecovered := some rec }

/-- The data packets that `resilience_check` tracks. -/
def tracks (w : RxSide) (view : PacketView) : Bool :=
  w.sess.resilience.fecEnabled && view.encrypted &&
    view.channelId != chControl

/-- The data part of `resilience_check`. -/
def trackData (w : RxSide) (h : Nat) (view : PacketView) : RxSide :=
  if w.tracks view then
    (w.setResilience
      (fecRxTrack w.sess.resilience view.seq (w.mem h).body)).tryRebuild
  else
    w

/-- The parity part of `resilience_check`. -/
def trackParity (w : RxSide) (h : Nat) : RxSide :=
  if (w.mem h).body.length ≥ 6 then
    (w.setResilience
      (fecRxStoreParity w.sess.resilience (w.mem h).body)).tryRebuild
  else
    w

/-- `resilience_check`, which returns the buffer of a parity packet. -/
def resilienceCheck (w : RxSide) (h : Nat) (view : PacketView) :
    RxSide × Bool :=
  if w.sess.state ≠ .locked then
    (w, true)
  else
    let w := w.setResilience (resilienceRecordRx w.sess.resilience 0 0)
    let w := w.trackData h view
    if view.flags &&& packetFlagFecParity ≠ 0 then
      ((w.trackParity h).poolReturn h, false)
    else
      (w, true)

/-! ## The pipeline -/

/-- Where `pipeline_inbound_pre_crypto` leaves off. -/
structure Admission where
  result : PipelineResult
  filters : Filters
  side : RxSide
  view : Option PacketView := none

/-- `pipeline_inbound_pre_crypto`. -/
def pipelineInboundPreCrypto
    (w : RxSide) (filters : Filters) (now : UInt64) (h : Nat) : Admission :=
  match packetParse (w.mem h) with
  | none =>
      { result := .dropParse, filters := filters, side := w }
  | some view =>
      let offensive := offensiveCheck filters.offensive view now
      let anti := antiAnalysisCheck filters.anti view now
      let filters := { filters with offensive := offensive.1 }
      if !offensive.2 then
        { result := .dropOffensive, filters := filters, side := w }
      else
        let filters := { filters with anti := anti.1 }
        if !anti.2 then
          { result := .dropAnti, filters := filters, side := w }
        else if !staticCheck view then
          { result := .dropStatic, filters := filters, side := w }
        else if !kernelFilterCheck filters.kernel view then
          { result := .dropKernel, filters := filters, side := w }
        else
          match sessionCheck w.sess view with
          | none =>
              { result := .dropSession, filters := filters, side := w }
          | some view =>
              let checked := w.resilienceCheck h view
              if !checked.2 then
                { result := .dropResilience, filters := filters
                  side := checked.1 }
              else
                { result := .ok, filters := filters, side := checked.1
                  view := some view }

section

variable (C : CryptoSuite)

/-- `session_enc_check`, which decrypts in place. -/
def sessionEncCheck (w : RxSide) (h : Nat) (view : PacketView) :
    RxSide × Option PacketView :=
  let checked := PqComm.sessionEncCheck C view w.sess
  match checked.2 with
  | none => (w.setSess checked.1, none)
  | some view => ((w.setSess checked.1).write h view.buf, some view)

/-- `process_fec_recovered`. -/
def processFecRecovered (w : RxSide) (rec : Nat) : RxSide × Bool :=
  match packetParse (w.mem rec) with
  | none => (w, false)
  | some view =>
      if !view.encrypted then
        (w, false)
      else
        let checked := w.sessionEncCheck C rec view
        match checked.2 with
        | none => (checked.1, false)
        | some view =>
            let gated := seqCheck checked.1.sess view
            (checked.1.setSess gated.1, gated.2)

/-- The pending packet of a rebuild, with `ctx->recovered`. -/
def drainRecovered (w : RxSide) : RxSide × Option Nat :=
  match w.ledger.fecRecovered with
  | none => (w, none)
  | some rec =>
      let w := w.setLedger { w.ledger with fecRecovered := none }
      let done := w.processFecRecovered C rec
      if done.2 then
        (done.1, some rec)
      else
        (done.1.poolReturn rec, none)

/-- The decryption step of `pipeline_inbound_post_crypto`. -/
def cipherStage (w : RxSide) (h : Nat) (view : PacketView) :
    RxSide × Option PacketView :=
  if view.encrypted then w.sessionEncCheck C h view else (w, some view)

/-- `pipeline_inbound_post_crypto`, with `ctx->recovered`. -/
def pipelineInboundPostCrypto (w : RxSide) (h : Nat) (view : PacketView) :
    PipelineResult × RxSide × Option Nat :=
  let drained := w.drainRecovered C
  let checked := drained.1.cipherStage C h view
  match checked.2 with
  | none => (.dropSessionEnc, checked.1, drained.2)
  | some view =>
      let gated := seqCheck checked.1.sess view
      let w := checked.1.setSess gated.1
      if !gated.2 then
        (.dropSeq, w, drained.2)
      else
        let pushed := w.ledger.rxDemuxPush h view.channelId
        (if pushed.1 then .ok else .dropDemux, w.setLedger pushed.2,
          drained.2)

/-! ## The caller -/

/-- A packet is built in a new buffer and pushed on a ring. -/
def send (w : RxSide) (packet : PacketBuf × Bool) : RxSide :=
  match w.ledger.poolGet with
  | none => w
  | some (h, ledger) =>
      let w := (w.write h packet.1).setLedger ledger
      if packet.2 then
        w.setLedger { w.ledger with others := h :: w.ledger.others }
      else
        w.poolReturn h

/-- A call of the control handler. -/
def control (H : ControlHandler) (w : RxSide) (h : Nat) : RxSide :=
  let p := w.mem h
  let sess := w.sess
  let w := w.setSess (H.session sess p)
  let w := (H.replies sess p).foldl send w
  let w := w.poolReturn h
  (H.followUps sess p).foldl send w

/-- `udp_rx_once`; `none` stands for a failed `recv`. -/
def udpRxOnce (w : RxSide) (datagram : Option PacketBuf) : RxSide :=
  match w.ledger.poolGet with
  | none => w
  | some (h, ledger) =>
      let w := w.setLedger ledger
      match datagram with
      | none => w.poolReturn h
      | some p =>
          let w := w.write h p
          let pushed := ringPush w.ledger.rxRing h
          if pushed.1 then
            w.setLedger { w.ledger with rxRing := pushed.2 }
          else
            w.poolReturn h

/-- Another part of the program returns a buffer that it holds. -/
def sent (w : RxSide) (h : Nat) : RxSide :=
  if h ∈ w.ledger.others then
    (w.setLedger
      { w.ledger with others := w.ledger.others.erase h }).poolReturn h
  else
    w

/-- The user of a receive queue takes the first buffer. -/
def dequeue (w : RxSide) (channel : UInt8) : RxSide :=
  match w.ledger.rxq channel with
  | [] => w
  | h :: rest =>
      if channel ∈ Ledger.rxChannels then
        let ledger := w.ledger.setQueue channel rest
        w.setLedger { ledger with others := h :: ledger.others }
      else
        w

end

end RxSide

/-- The receive side with the tables of the filters. -/
structure RxWorld where
  filters : Filters
  side : RxSide

inductive RxAct where
  | udpRxOnce (datagram : Option PacketBuf)
  | processRing (now : UInt64)
  | send (packet : PacketBuf × Bool)
  | sent (h : Nat)
  | dequeue (channel : UInt8)

namespace RxWorld

/-- `pool_init` and empty queues. -/
def start (mem : Nat → PacketBuf) (sess : Session) : RxWorld where
  filters := {}
  side :=
    { ledger := Ledger.init
      mem := mem
      sess := sess }

variable (C : CryptoSuite) (H : ControlHandler)

/-- `pipeline_inbound_process`, with `ctx->recovered`. -/
def pipelineInboundProcess (w : RxWorld) (now : UInt64) (h : Nat) :
    PipelineResult × RxWorld × Option Nat :=
  let pre := w.side.pipelineInboundPreCrypto w.filters now h
  match pre.view with
  | none => (pre.result, ⟨pre.filters, pre.side⟩, none)
  | some view =>
      let post := pre.side.pipelineInboundPostCrypto C h view
      (post.1, ⟨pre.filters, post.2.1⟩, post.2.2)

/-- What `process_ring_for_engine` does with the packet that it has taken
from the ring. -/
def processPacket (w : RxWorld) (now : UInt64) (h : Nat) : RxWorld :=
  let processed := w.pipelineInboundProcess C now h
  let side := processed.2.1.side
  let side :=
    if processed.1 = .ok then side.control H h else side.poolReturn h
  { processed.2.1 with
    side :=
      match processed.2.2 with
      | none => side
      | some rec => side.control H rec }

/-- `process_ring_for_engine`. -/
def processRingForEngine (w : RxWorld) (now : UInt64) : RxWorld :=
  match w.side.ledger.rxRing with
  | [] => w
  | h :: rest =>
      { w with side := w.side.setRxRing rest }.processPacket C H now h

def act (w : RxWorld) : RxAct → RxWorld
  | .udpRxOnce datagram => { w with side := w.side.udpRxOnce datagram }
  | .processRing now => w.processRingForEngine C H now
  | .send packet => { w with side := w.side.send packet }
  | .sent h => { w with side := w.side.sent h }
  | .dequeue channel => { w with side := w.side.dequeue channel }

def run (w : RxWorld) (acts : List RxAct) : RxWorld :=
  acts.foldl (act C H) w

end RxWorld

end PqComm
