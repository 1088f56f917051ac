import PqComm.Layers.Filters
import PqComm.Layers.Gate
import PqComm.Layers.SessionEnc

/-!
# The inbound pipeline

`resilience_check` of `resilience.c` and the three functions of
`pipeline_inbound.c`.

Buffers taken from the pool are inputs: `none` is an exhausted pool, and a
buffer comes with whatever bytes it held.
-/

namespace PqComm

open Lib

inductive PipelineResult where
  | ok
  | dropParse
  | dropOffensive
  | dropAnti
  | dropStatic
  | dropKernel
  | dropSession
  | dropResilience
  | dropSessionEnc
  | dropSeq
  | dropDemux
  deriving DecidableEq, Repr

/-! ## Forward error correction -/

/-- The packet `try_rebuild` writes around a reconstructed payload. -/
def rebuiltPacket (buf : PacketBuf) (sess : Session) (channel : UInt8)
    (payload : Bytes) (seq : UInt32) : PacketBuf :=
  (buildPacket buf true packetFlagEncrypted sess.sessionId channel seq
    payload).setAddr sess.addr sess.addrLen

/-- `try_rebuild`. -/
def tryRebuild (sess : Session) (buf : Option PacketBuf) : Session :=
  match fecRxRebuild sess.resilience with
  | (resilience, none) =>
      { sess with resilience := resilience }
  | (resilience, some (payload, seq)) =>
      let sess := { sess with resilience := resilience }
      match buf with
      | none => sess
      | some buf =>
          { sess with
            fecRecovered :=
              some
                (rebuiltPacket buf sess resilience.fecRxChannelId payload
                  seq) }

/-- The bytes behind the header, whatever the length field says. -/
def PacketBuf.body (p : PacketBuf) : Bytes :=
  memSlice p.data headerSize (p.len - headerSize)

/-- The data part of `resilience_check`. -/
def trackData (v : PacketView) (sess : Session) (buf : Option PacketBuf) :
    Session :=
  if sess.resilience.fecEnabled && v.encrypted &&
      v.channelId != chControl then
    tryRebuild
      { sess with
        resilience := fecRxTrack sess.resilience v.seq v.buf.body } buf
  else
    sess

/-- The parity part of `resilience_check`. -/
def trackParity (v : PacketView) (sess : Session) (buf : Option PacketBuf) :
    Session :=
  if v.buf.body.length ≥ 6 then
    tryRebuild
      { sess with
        resilience := fecRxStoreParity sess.resilience v.buf.body } buf
  else
    sess

/-- `resilience_check`; `false` stands for -1. -/
def resilienceCheck
    (v : PacketView) (sess : Session) (dataBuf parityBuf : Option PacketBuf) :
    Session × Bool :=
  if sess.state ≠ .locked then
    (sess, true)
  else
    let sess :=
      { sess with resilience := resilienceRecordRx sess.resilience 0 0 }
    let sess := trackData v sess dataBuf
    if v.flags &&& packetFlagFecParity ≠ 0 then
      (trackParity v sess parityBuf, false)
    else
      (sess, true)

/-! ## The pipeline -/

/-- What one inbound packet meets besides the session: the clock and the pool
buffers of the two rebuild attempts. -/
structure InboundEnv where
  now : UInt64
  dataBuf : Option PacketBuf
  parityBuf : Option PacketBuf

/-- Where `pipeline_inbound_pre_crypto` leaves off. -/
structure PreCrypto where
  result : PipelineResult
  filters : Filters
  sess : Option Session
  view : Option PacketView := none

/-- `pipeline_inbound_pre_crypto`. -/
def pipelineInboundPreCrypto
    (env : InboundEnv) (filters : Filters) (sess : Option Session)
    (p : PacketBuf) : PreCrypto :=
  match packetParse p with
  | none =>
      { result := .dropParse, filters := filters, sess := sess }
  | some view =>
      let offensive := offensiveCheck filters.offensive view env.now
      let anti := antiAnalysisCheck filters.anti view env.now
      let filters := { filters with offensive := offensive.1 }
      if !offensive.2 then
        { result := .dropOffensive, filters := filters, sess := sess }
      else
        let filters := { filters with anti := anti.1 }
        if !anti.2 then
          { result := .dropAnti, filters := filters, sess := sess }
        else if !staticCheck view then
          { result := .dropStatic, filters := filters, sess := sess }
        else if !kernelFilterCheck filters.kernel view then
          { result := .dropKernel, filters := filters, sess := sess }
        else
          match sess with
          | none =>
              { result := .dropSession, filters := filters, sess := none }
          | some s =>
              match sessionCheck s view with
              | none =>
                  { result := .dropSession, filters := filters, sess := sess }
              | some view =>
                  let checked :=
                    resilienceCheck view s env.dataBuf env.parityBuf
                  if !checked.2 then
                    { result := .dropResilience, filters := filters
                      sess := some checked.1 }
                  else
                    { result := .ok, filters := filters
                      sess := some checked.1, view := some view }

section

variable (C : CryptoSuite)

/-- `process_fec_recovered`: the recovered packet, decrypted in place. -/
def processFecRecovered (sess : Session) (rec : PacketBuf) :
    Session × Option PacketBuf :=
  match packetParse rec with
  | none => (sess, none)
  | some view =>
      if !view.encrypted then
        (sess, none)
      else
        let checked := sessionEncCheck C view sess
        match checked.2 with
        | none => (checked.1, none)
        | some view =>
            let gated := seqCheck checked.1 view
            (gated.1, if gated.2 then some view.buf else none)

/-- The pending packet of an earlier rebuild is taken first. -/
def drainRecovered (sess : Session) : Session × Option PacketBuf :=
  match sess.fecRecovered with
  | none => (sess, none)
  | some rec =>
      processFecRecovered C { sess with fecRecovered := none } rec

/-- Where `pipeline_inbound_post_crypto` leaves off. -/
structure PostCrypto where
  result : PipelineResult
  sess : Session
  rxq : RxQueues
  recovered : Option PacketBuf

/-- `pipeline_inbound_post_crypto`. -/
def pipelineInboundPostCrypto
    (sess : Session) (rxq : RxQueues) (view : PacketView) : PostCrypto :=
  let drained := drainRecovered C sess
  let checked :=
    if view.encrypted then
      sessionEncCheck C view drained.1
    else
      (drained.1, some view)
  match checked.2 with
  | none =>
      { result := .dropSessionEnc, sess := checked.1, rxq := rxq
        recovered := drained.2 }
  | some view =>
      let gated := seqCheck checked.1 view
      if !gated.2 then
        { result := .dropSeq, sess := gated.1, rxq := rxq
          recovered := drained.2 }
      else
        let pushed := rxDemuxPush rxq view.buf view.channelId
        { result := if pushed.1 then .ok else .dropDemux
          sess := gated.1, rxq := pushed.2, recovered := drained.2 }

/-- `pipeline_inbound_process`: the verdict, the tables and the context. -/
def pipelineInboundProcess
    (env : InboundEnv) (filters : Filters) (sess : Session) (rxq : RxQueues)
    (p : PacketBuf) : PipelineResult × Filters × PostCrypto :=
  let pre := pipelineInboundPreCrypto env filters (some sess) p
  match pre.sess, pre.view with
  | some s, some view =>
      let post := pipelineInboundPostCrypto C s rxq view
      (post.result, pre.filters, post)
  | s, _ =>
      (pre.result, pre.filters,
        { result := pre.result, sess := s.getD sess, rxq := rxq
          recovered := none })

end

end PqComm
