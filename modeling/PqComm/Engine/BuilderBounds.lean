import PqComm.Engine.Outgoing
import PqComm.Pipeline.Outbound

/-!
# What the outbound builders write

`pipeline_outbound_process`, `transport_engine_send_chat`,
`relay_build_test_packet` and `video_worker_tick` copy a payload of any length
behind the header of a packet buffer and leave the size check to
`packet_parse`, which comes after the copy and knows nothing of the nonce and
the tag that `session_enc_apply` adds.

Here each of them is given by the writes it makes, in the order of the source.
The writes give the buffer that the functions of the other modules leave, and
they stay inside the buffer exactly when the payload leaves room for them.
Between the two packets of a chat `fec_tx_accumulate` writes into the slots of
the session and, when a group is complete, into an array on the stack, whose
room is smaller than that of a packet.
-/

namespace PqComm

open Lib

/-! ## Writes -/

/-- The header of a builder, field by field. -/
def headerWrites (clear : Bool) (flags : UInt8) (sessionId : UInt64)
    (channel : UInt8) (seq : UInt32) (length : Nat) : List Write :=
  (if clear then [⟨0, zeros headerSize⟩] else []) ++
    [⟨0, leBytes 4 protoMagic⟩, ⟨4, [protoVersion]⟩, ⟨5, [flags]⟩,
      ⟨6, leBytes 8 sessionId.toNat⟩, ⟨14, [channel]⟩,
      ⟨15, leBytes 4 seq.toNat⟩, ⟨19, leBytes 4 length⟩]

section

variable (C : CryptoSuite)

/-- `session_enc_apply`. -/
def sealWrites (p : PacketBuf) (v : PacketView) (sess : Session) :
    List Write :=
  if sess.state ≠ .locked then
    []
  else if v.channelId = chControl then
    []
  else
    let encLen := aeadNonceSize + v.length + aeadTagSize
    let d := memWrite p.data 19 (leBytes 4 encLen)
    let nonce := encNonce sess.sessionId v.channelId v.seq
    ⟨19, leBytes 4 encLen⟩ ::
      match
        aeadEncrypt C sess.keys.sessionKey nonce
          (buildAad sess.keys v.channelId d)
          (memSlice d v.payload v.length) with
      | none => []
      | some (cipher, tag) =>
          [⟨headerSize + aeadNonceSize, cipher⟩,
            ⟨5, [memWrite d (headerSize + aeadNonceSize) cipher 5 |||
              packetFlagEncrypted]⟩,
            ⟨headerSize, nonce⟩,
            ⟨headerSize + aeadNonceSize + v.length, tag⟩]

/-- What an operation does with a packet buffer: whether it goes on to use the
packet, the length it leaves and the writes it makes. -/
structure BufferUse where
  ok : Bool
  len : Nat
  writes : List Write

/-- All writes stay inside `data`, and so does the packet that is used. -/
def BufferUse.Inside (u : BufferUse) : Prop :=
  WritesBelow maxPacketSize u.writes ∧ (u.ok = true → u.len ≤ maxPacketSize)

/-- The common body of the builders: the header, the payload, `packet_parse`
and `session_enc_apply`.  `copies` are the writes of the payload. -/
def sealUse (buf : PacketBuf) (clear : Bool) (sess : Session)
    (channel : UInt8) (seq : UInt32) (payload : Bytes)
    (copies : List Write) : BufferUse :=
  let p := buildPacket buf clear 0 sess.sessionId channel seq payload
  let writes :=
    headerWrites clear 0 sess.sessionId channel seq payload.length ++ copies
  match packetParse p with
  | none => { ok := false, len := p.len, writes := writes }
  | some v =>
      let applied := sessionEncApply C p v sess
      { ok := applied.1
        len := applied.2.len
        writes := writes ++ sealWrites C p v sess }

/-! ## The builders -/

/-- What is copied of a string: its length with the terminator is kept in 32
bits. -/
def copiedText (text : Bytes) : Bytes :=
  (text ++ [0]).take ((text.length + 1) % 2 ^ 32)

/-- `pipeline_outbound_process`. -/
def pipelineOutboundUse (buf : PacketBuf) (sess : Session) (seq : UInt32)
    (channel : UInt8) (payload : Bytes) : BufferUse :=
  let copies : List Write := [⟨headerSize, payload⟩]
  if channel ≠ chControl then
    sealUse C buf true sess channel seq payload copies
  else
    { ok := true
      len := headerSize + payload.length
      writes :=
        headerWrites true 0 sess.sessionId channel seq payload.length ++
          copies }

/-- The parity packet of `fec_tx_after_encrypt`, when there is one. -/
def parityUse (s : Session) (channel : UInt8) (seq : UInt32) (body : Bytes)
    (buf : Option PacketBuf) : List BufferUse :=
  match (fecTxAccumulate s.resilience body seq channel).2, buf with
  | some parity, some _ =>
      [{ ok := true
         len := headerSize + parity.length
         writes :=
          headerWrites true packetFlagFecParity s.sessionId channel seq
            parity.length ++ [⟨headerSize, parity⟩] }]
  | _, _ => []

/-- What `fec_tx_accumulate` writes besides `fec_parity_buf`, of which it
writes `FEC_MAX_PAYLOAD` bytes at most: slots of the session, and `parity_buf`,
the array of `fec_tx_after_encrypt`. -/
structure AccumulateUse where
  slots : List Nat
  parityBuf : List Write

def AccumulateUse.Inside (u : AccumulateUse) : Prop :=
  (∀ i ∈ u.slots, i < resilienceFecGroup) ∧
    WritesBelow (fecMaxPayload + 8) u.parityBuf

/-- `fec_tx_accumulate`, called by `fec_tx_after_encrypt` before it asks for a
buffer. -/
def accumulateUse (r : Resilience) (body : Bytes) (seq : UInt32)
    (channel : UInt8) : AccumulateUse :=
  if !r.fecEnabled || r.fecGroupSize == 0 then
    { slots := [], parityBuf := [] }
  else
    let q := (r.fecOpenGroup seq channel).fecAbsorb body
    let opened :=
      if r.fecGroupPos = 0 then List.range r.fecGroupSize else []
    let written := opened ++ [r.fecGroupPos]
    if q.fecGroupPos ≥ q.fecGroupSize then
      { slots := written ++ List.range q.fecGroupSize
        parityBuf :=
          [⟨0, leBytes 4 q.fecGroupStartSeq.toNat⟩,
            ⟨4, [UInt8.ofNat q.fecGroupSize]⟩, ⟨5, [channel]⟩,
            ⟨6, memSlice q.fecParityBuf 0 q.fecParityLen⟩] }
    else
      { slots := written, parityBuf := [] }

/-- What `transport_engine_send_chat` does with its packets, and what it
writes while it accumulates. -/
structure ChatUse where
  packets : List BufferUse
  accumulated : List AccumulateUse

def ChatUse.Inside (u : ChatUse) : Prop :=
  (∀ packet ∈ u.packets, packet.Inside) ∧
    ∀ accumulated ∈ u.accumulated, accumulated.Inside

/-- `transport_engine_send_chat`. -/
def sendChatUse (text : Bytes) (buf parityBuf : Option PacketBuf)
    (e : Engine) : ChatUse :=
  match e.session, e.sessionIsLocked, buf with
  | some i, true, some buf =>
      let s :=
        { e.pool i with
          resilience :=
            resilienceRecordTx (e.pool i).resilience (e.chatPath (e.pool i)) }
      let payload := copiedText text
      let chat :=
        sealUse C buf false s chChat e.seqCounter payload
          [⟨headerSize, payload⟩]
      let p := buildPacket buf false 0 s.sessionId chChat e.seqCounter payload
      if chat.ok then
        let body := (encryptTxPacket C p s).2.body
        { packets := chat :: parityUse s chChat e.seqCounter body parityBuf
          accumulated :=
            [accumulateUse s.resilience body e.seqCounter chChat] }
      else
        { packets := [chat], accumulated := [] }
  | _, _, _ => { packets := [], accumulated := [] }

/-- The payload of `relay_build_test_packet`. -/
def routePayload (destNodeId : UInt64) (message : Bytes) : Bytes :=
  [ctrlRouteData] ++
    (leBytes 8 destNodeId.toNat ++ ([chChat] ++ copiedText message))

/-- `relay_build_test_packet`: the packet, when it returns 0. -/
def relayBuildTestPacket (sess : Session) (seq : UInt32)
    (destNodeId : UInt64) (message : Bytes) (buf : Option PacketBuf) :
    Option PacketBuf :=
  match buf with
  | none => none
  | some buf =>
      let p :=
        buildPacket buf true 0 sess.sessionId chRoute seq
          (routePayload destNodeId message)
      match packetParse p with
      | none => none
      | some view =>
          let applied := sessionEncApply C p view sess
          if applied.1 then some applied.2 else none

def relayBuildTestUse (sess : Session) (seq : UInt32)
    (destNodeId : UInt64) (message : Bytes) (buf : Option PacketBuf) :
    List BufferUse :=
  match buf with
  | none => []
  | some buf =>
      [sealUse C buf true sess chRoute seq (routePayload destNodeId message)
        [⟨24, [ctrlRouteData]⟩, ⟨25, leBytes 8 destNodeId.toNat⟩,
          ⟨33, [chChat]⟩, ⟨34, copiedText message⟩]]

/-- The sending half of `video_worker_tick`, which pushes the packet whatever
the parser and the cipher say. -/
def videoWorkerUse (w : MediaWorker) (sess : Session)
    (frame : Option Bytes) (buf : Option PacketBuf) (seq : UInt32) :
    List BufferUse :=
  if !w.running || !w.active then
    []
  else
    match frame, buf with
    | some frame, some buf =>
        if frame.length > 0 then
          [{ sealUse C buf false sess chVideo seq frame
              [⟨headerSize, frame⟩] with ok := true }]
        else
          []
    | _, _ => []

/-! ## The writes give the buffers -/

variable {C}

theorem applyWrites_headerWrites
    (mem : Mem) (clear : Bool) (flags : UInt8) (sessionId : UInt64)
    (channel : UInt8) (seq : UInt32) (length : Nat) :
    applyWrites mem (headerWrites clear flags sessionId channel seq length) =
      memWrite mem 0
        (packetHeader (if clear then 0 else mem 23) flags sessionId channel
          seq length) := by
  funext i
  by_cases inside : i < 24
  · rw [memWrite_inside (Nat.zero_le i) (by simpa using inside)]
    cases clear with
    | true => interval_cases i <;> rfl
    | false => interval_cases i <;> rfl
  · have untouched (m : Mem) (off : Nat) (bytes : Bytes)
        (short : off + bytes.length ≤ 24) : memWrite m off bytes i = m i :=
      memWrite_after (by omega)
    rw [untouched mem 0 _ (by simp)]
    cases clear with
    | true =>
        simp only [headerWrites, applyWrites, if_true, List.singleton_append,
          List.foldl_cons, List.foldl_nil]
        rw [untouched _ _ _ (by simp), untouched _ _ _ (by simp),
          untouched _ _ _ (by simp), untouched _ _ _ (by simp),
          untouched _ _ _ (by simp), untouched _ _ _ (by simp),
          untouched _ _ _ (by simp), untouched _ _ _ (by simp [headerSize])]
    | false =>
        simp only [headerWrites, applyWrites, Bool.false_eq_true, if_false,
          List.nil_append, List.foldl_cons, List.foldl_nil]
        rw [untouched _ _ _ (by simp), untouched _ _ _ (by simp),
          untouched _ _ _ (by simp), untouched _ _ _ (by simp),
          untouched _ _ _ (by simp), untouched _ _ _ (by simp),
          untouched _ _ _ (by simp)]

/-- The writes that copy a payload behind the header. -/
def Copies (copies : List Write) (payload : Bytes) : Prop :=
  ∀ mem, applyWrites mem copies = memWrite mem headerSize payload

theorem copies_single (payload : Bytes) :
    Copies [⟨headerSize, payload⟩] payload :=
  fun _ => rfl

theorem copies_route (destNodeId : UInt64) (message : Bytes) :
    Copies
      [⟨24, [ctrlRouteData]⟩, ⟨25, leBytes 8 destNodeId.toNat⟩,
        ⟨33, [chChat]⟩, ⟨34, copiedText message⟩]
      (routePayload destNodeId message) := by
  intro mem
  rw [routePayload, memWrite_append, memWrite_append, memWrite_append,
    length_leBytes]
  rfl

theorem applyWrites_build
    (buf : PacketBuf) (clear : Bool) (flags : UInt8) (sessionId : UInt64)
    (channel : UInt8) (seq : UInt32) {payload : Bytes} {copies : List Write}
    (copied : Copies copies payload) :
    applyWrites buf.data
        (headerWrites clear flags sessionId channel seq payload.length ++
          copies) =
      (buildPacket buf clear flags sessionId channel seq payload).data := by
  rw [applyWrites_append, applyWrites_headerWrites, copied, buildPacket,
    memWrite_append, length_packetHeader]
  rfl

theorem applyWrites_sealWrites
    (p : PacketBuf) (v : PacketView) (sess : Session) :
    applyWrites p.data (sealWrites C p v sess) =
      (sessionEncApply C p v sess).2.data := by
  unfold sealWrites sessionEncApply
  split
  · rfl
  · split
    · rfl
    · dsimp only
      generalize aeadEncrypt C _ _ _ _ = sealed
      cases sealed with
      | none => rfl
      | some result => rfl

/-- A use of a buffer leaves what a function of the model leaves. -/
structure BufferUse.Gives (u : BufferUse) (mem : Mem)
    (out : Bool × PacketBuf) : Prop where
  ok : u.ok = out.1
  len : u.len = out.2.len
  data : applyWrites mem u.writes = out.2.data

/-- `encrypt_tx_packet` checks the channel that `session_enc_apply` checks
again. -/
theorem encryptTxPacket_eq (p : PacketBuf) (s : Session) :
    encryptTxPacket C p s =
      match packetParse p with
      | none => (false, p)
      | some v => sessionEncApply C p v s := by
  unfold encryptTxPacket
  cases packetParse p with
  | none =>
      rfl
  | some v =>
      dsimp only
      split
      · rename_i control
        unfold sessionEncApply
        rw [if_pos control, ite_self]
      · rfl

theorem sealUse_gives
    (buf : PacketBuf) (clear : Bool) (sess : Session) (channel : UInt8)
    (seq : UInt32) {payload : Bytes} {copies : List Write}
    (copied : Copies copies payload) :
    (sealUse C buf clear sess channel seq payload copies).Gives buf.data
      (encryptTxPacket C
        (buildPacket buf clear 0 sess.sessionId channel seq payload)
        sess) := by
  have built :=
    applyWrites_build buf clear 0 sess.sessionId channel seq copied
  rw [encryptTxPacket_eq]
  unfold sealUse
  dsimp only
  split
  · exact ⟨rfl, rfl, built⟩
  · refine ⟨rfl, rfl, ?_⟩
    rw [applyWrites_append, built, applyWrites_sealWrites]

theorem pipelineOutboundUse_gives
    (buf : PacketBuf) (sess : Session) (seq : UInt32) (channel : UInt8)
    (payload : Bytes) :
    (pipelineOutboundUse C buf sess seq channel payload).Gives buf.data
      (pipelineOutboundProcess C buf sess seq channel payload) := by
  unfold pipelineOutboundUse pipelineOutboundProcess
  dsimp only
  split
  · have gives :=
      sealUse_gives (C := C) buf true sess channel seq (copies_single payload)
    rw [encryptTxPacket_eq] at gives
    exact gives
  · exact ⟨rfl, rfl,
      applyWrites_build buf true 0 sess.sessionId channel seq
        (copies_single payload)⟩

theorem copiedText_eq {text : Bytes} (short : text.length + 1 < 2 ^ 32) :
    copiedText text = text ++ [0] := by
  rw [copiedText, Nat.mod_eq_of_lt short]
  exact List.take_of_length_le (by simp)

theorem chatUse_gives
    (buf : PacketBuf) (s : Session) (seq : UInt32) {text : Bytes}
    (short : text.length + 1 < 2 ^ 32) :
    (sealUse C buf false s chChat seq (copiedText text)
        [⟨headerSize, copiedText text⟩]).Gives buf.data
      (encryptTxPacket C (buildChatPacket s buf seq text) s) := by
  rw [copiedText_eq short]
  exact sealUse_gives buf false s chChat seq (copies_single (text ++ [0]))

/-- The parity packet that `fec_tx_after_encrypt` pushes. -/
theorem parityUse_gives
    {p q : PacketBuf} {s : Session} {channel : UInt8} {seq : UInt32}
    {buf : PacketBuf} {peerAddr : Bytes}
    (pushed :
      (fecTxAfterEncrypt p s channel seq (some buf) peerAddr).2 = some q) :
    ∃ u,
      parityUse s channel seq p.body (some buf) = [u] ∧
        u.Gives buf.data (true, q) := by
  unfold fecTxAfterEncrypt at pushed
  split at pushed
  · cases pushed
  · unfold parityUse
    dsimp only at pushed
    cases completed :
        (fecTxAccumulate s.resilience p.body seq channel).2 with
    | none =>
        rw [completed] at pushed
        cases pushed
    | some parity =>
        rw [completed] at pushed
        cases pushed
        exact ⟨_, rfl, rfl, rfl,
          applyWrites_build buf true packetFlagFecParity s.sessionId channel
            seq (copies_single parity)⟩

theorem accumulateUse_on
    {r : Resilience} (on : r.fecOn) (body : Bytes) (seq : UInt32)
    (channel : UInt8) :
    let q := (r.fecOpenGroup seq channel).fecAbsorb body
    let written :=
      (if r.fecGroupPos = 0 then List.range r.fecGroupSize else []) ++
        [r.fecGroupPos]
    accumulateUse r body seq channel =
      if q.fecGroupPos ≥ q.fecGroupSize then
        { slots := written ++ List.range q.fecGroupSize
          parityBuf :=
            [⟨0, leBytes 4 q.fecGroupStartSeq.toNat⟩,
              ⟨4, [UInt8.ofNat q.fecGroupSize]⟩, ⟨5, [channel]⟩,
              ⟨6, memSlice q.fecParityBuf 0 q.fecParityLen⟩] }
      else
        { slots := written, parityBuf := [] } :=
  if_neg (mt Resilience.fecOn_guard.mp (not_not.mpr on))

theorem accumulateUse_off
    {r : Resilience} (off : ¬r.fecOn) (body : Bytes) (seq : UInt32)
    (channel : UInt8) :
    accumulateUse r body seq channel = { slots := [], parityBuf := [] } :=
  if_pos (Resilience.fecOn_guard.mpr off)

/-- The parity of a complete group is what has been written into the array. -/
theorem accumulateUse_gives
    {r : Resilience} {body parity : Bytes} {seq : UInt32} {channel : UInt8}
    (completed : (fecTxAccumulate r body seq channel).2 = some parity)
    (mem : Mem) :
    applyWrites mem (accumulateUse r body seq channel).parityBuf =
      memWrite mem 0 parity := by
  by_cases on : r.fecOn
  · have use := accumulateUse_on on body seq channel
    have emitted := fecTxAccumulate_on body seq channel on
    dsimp only at use emitted
    split at use
    · rename_i full
      rw [if_pos full] at emitted
      rw [emitted] at completed
      cases completed
      have header (size : UInt8) : [size, channel] = [size] ++ [channel] := rfl
      rw [use, Resilience.fecParityPayload, memWrite_append, memWrite_append,
        header, memWrite_append]
      simp only [applyWrites, List.foldl_cons, List.foldl_nil, length_leBytes,
        List.length_append, List.length_singleton]
    · rename_i growing
      rw [if_neg growing] at emitted
      rw [emitted] at completed
      cases completed
  · rw [fecTxAccumulate_off body seq channel on] at completed
    cases completed

/-- The slots that are not among those written keep what they hold. -/
theorem accumulateUse_frame
    (r : Resilience) (body : Bytes) (seq : UInt32) (channel : UInt8) {i : Nat}
    (apart : i ∉ (accumulateUse r body seq channel).slots) :
    (fecTxAccumulate r body seq channel).1.fecBufs i = r.fecBufs i := by
  by_cases on : r.fecOn
  · have use := accumulateUse_on on body seq channel
    have emitted := fecTxAccumulate_on body seq channel on
    dsimp only at use emitted
    have absorbed
        (other : i ≠ r.fecGroupPos)
        (unopened :
          i ∉ (if r.fecGroupPos = 0 then List.range r.fecGroupSize else [])) :
        ((r.fecOpenGroup seq channel).fecAbsorb body).fecBufs i =
          r.fecBufs i := by
      have opened :
          (r.fecOpenGroup seq channel).fecGroupPos = r.fecGroupPos ∧
            (r.fecOpenGroup seq channel).fecBufs i = r.fecBufs i := by
        unfold Resilience.fecOpenGroup
        split
        · rename_i first
          rw [if_pos first, List.mem_range] at unopened
          exact ⟨rfl, if_neg unopened⟩
        · exact ⟨rfl, rfl⟩
      rw [← opened.2]
      apply if_neg
      rw [opened.1]
      exact other
    split at use
    · rename_i full
      rw [if_pos full] at emitted
      rw [use, List.mem_append, not_or, List.mem_append, not_or,
        List.mem_singleton, List.mem_range] at apart
      rw [emitted]
      dsimp only
      rw [if_neg apart.2]
      exact absorbed apart.1.2 apart.1.1
    · rename_i growing
      rw [if_neg growing] at emitted
      rw [use, List.mem_append, not_or, List.mem_singleton] at apart
      rw [emitted]
      exact absorbed apart.2 apart.1
  · rw [fecTxAccumulate_off body seq channel on]

/-- The packet that `relay_build_test_packet` returns, if it returns one. -/
theorem relayBuildTestUse_gives
    (sess : Session) (seq : UInt32) (destNodeId : UInt64) (message : Bytes)
    (buf : PacketBuf) :
    ∃ u out,
      relayBuildTestUse C sess seq destNodeId message (some buf) = [u] ∧
        u.Gives buf.data out ∧
        relayBuildTestPacket C sess seq destNodeId message (some buf) =
          if out.1 then some out.2 else none := by
  refine ⟨_, _, rfl,
    sealUse_gives buf true sess chRoute seq (copies_route destNodeId message),
    ?_⟩
  rw [encryptTxPacket_eq]
  unfold relayBuildTestPacket
  dsimp only
  split
  · simp only [Bool.false_eq_true, if_false]
  · rfl

/-- The packet that `video_worker_tick` pushes. -/
theorem videoWorkerUse_gives
    {w : MediaWorker} (running : w.running = true) (active : w.active = true)
    (sess : Session) {frame : Bytes} (filled : frame.length > 0)
    (buf : PacketBuf) (seq : UInt32) (peerAddr : Bytes) :
    ∃ u p,
      videoWorkerUse C w sess (some frame) (some buf) seq = [u] ∧
        videoWorkerTick C w sess (some frame) (some buf) seq peerAddr =
          some (p, frame) ∧
        u.Gives buf.data (true, p) := by
  have gives :=
    sealUse_gives (C := C) buf false sess chVideo seq (copies_single frame)
  unfold videoWorkerUse videoWorkerTick mediaPacket
  rw [running, active]
  dsimp only
  rw [if_pos filled, if_pos filled]
  have same :=
    encryptTxPacket_snd (C := C)
      (buildPacket buf false 0 sess.sessionId chVideo seq frame) sess
  refine ⟨_, _, rfl, rfl, ⟨rfl, ?_, ?_⟩⟩
  · rw [← same]
    exact gives.len
  · rw [← same]
    exact gives.data

/-! ## Bounds -/

theorem headerWrites_below
    (clear : Bool) (flags : UInt8) (sessionId : UInt64) (channel : UInt8)
    (seq : UInt32) (length : Nat) :
    WritesBelow maxPacketSize
      (headerWrites clear flags sessionId channel seq length) := by
  have fields (limit : 24 ≤ maxPacketSize) :
      WritesBelow maxPacketSize
        (headerWrites false flags sessionId channel seq length) := by
    simp [headerWrites, writesBelow_cons, writesBelow_nil, maxPacketSize]
  cases clear with
  | true =>
      have cleared :
          headerWrites true flags sessionId channel seq length =
            ⟨0, zeros headerSize⟩ ::
              headerWrites false flags sessionId channel seq length :=
        rfl
      rw [cleared, writesBelow_cons]
      exact ⟨Or.inr (by decide), fields (by decide)⟩
  | false =>
      exact fields (by decide)

/-- A copy behind the header stays inside exactly when the packet does. -/
def CopiesBound (copies : List Write) (payload : Bytes) : Prop :=
  WritesBelow maxPacketSize copies ↔ payload.length ≤ 1476

theorem copiesBound_single (payload : Bytes) :
    CopiesBound [⟨headerSize, payload⟩] payload := by
  unfold CopiesBound
  rw [writesBelow_cons]
  constructor
  · rintro ⟨empty | fits, -⟩
    · rw [show payload = [] from empty]
      exact Nat.zero_le _
    · simp only [headerSize, maxPacketSize] at fits
      omega
  · intro small
    refine ⟨Or.inr ?_, writesBelow_nil _⟩
    simp only [headerSize, maxPacketSize]
    omega

theorem copiesBound_route (destNodeId : UInt64) (message : Bytes) :
    CopiesBound
      [⟨24, [ctrlRouteData]⟩, ⟨25, leBytes 8 destNodeId.toNat⟩,
        ⟨33, [chChat]⟩, ⟨34, copiedText message⟩]
      (routePayload destNodeId message) := by
  have length : (routePayload destNodeId message).length =
      (copiedText message).length + 10 := by
    simp [routePayload]
    omega
  unfold CopiesBound
  rw [length]
  simp only [writesBelow_cons, writesBelow_nil, List.length_cons,
    List.length_nil, length_leBytes, maxPacketSize, and_true]
  constructor
  · rintro ⟨-, -, -, empty | fits⟩
    · rw [empty]
      decide
    · omega
  · intro small
    exact ⟨Or.inr (by decide), Or.inr (by decide), Or.inr (by decide),
      Or.inr (by omega)⟩

section Sealing

variable (buf : PacketBuf) (clear : Bool) (sess : Session)
  {channel : UInt8} (seq : UInt32) {payload : Bytes} {copies : List Write}

/-- There is room for the payload and, when it is encrypted, for the nonce and
the tag. -/
def PayloadFits (sess : Session) (payload : Bytes) : Prop :=
  payload.length ≤ 1476 ∧ (sess.state = .locked → payload.length ≤ 1448)

instance (sess : Session) (payload : Bytes) :
    Decidable (PayloadFits sess payload) :=
  inferInstanceAs (Decidable (_ ∧ _))

theorem aeadEncrypt_of_room
    (key nonce aad : Bytes) {plain : Bytes}
    (room : plain.length + aeadTagSize ≤ maxPacketSize) :
    ∃ cipher tag,
      aeadEncrypt C key nonce aad plain = some (cipher, tag) ∧
        cipher.length = plain.length ∧ tag.length = 16 := by
  obtain ⟨cipher, tag⟩ := C.length_aeadSeal key nonce aad plain
  refine ⟨_, _, ?_, cipher, tag⟩
  rw [aeadEncrypt, if_neg (Nat.not_lt.mpr room)]

/-- The writes of `session_enc_apply` on a built packet stay inside exactly
when the tag does. -/
theorem sealWrites_below
    (data : channel ≠ chControl) (small : payload.length ≤ 1476) :
    WritesBelow maxPacketSize
        (sealWrites C
          (buildPacket buf clear 0 sess.sessionId channel seq payload)
          (builtView buf clear 0 sess.sessionId channel seq payload)
          sess) ↔
      (sess.state = .locked → payload.length ≤ 1448) := by
  unfold sealWrites
  by_cases locked : sess.state = .locked
  · have plain (mem : Mem) :
        (memSlice mem headerSize payload.length).length + aeadTagSize ≤
          maxPacketSize := by
      rw [length_memSlice]
      simp only [aeadTagSize, maxPacketSize]
      omega
    have view :
        (builtView buf clear 0 sess.sessionId channel seq
          payload).channelId ≠ chControl :=
      data
    rw [if_neg (not_not.mpr locked), if_neg view]
    dsimp only [builtView]
    obtain ⟨cipher, tag, sealed, cipherLength, tagLength⟩ :=
      aeadEncrypt_of_room (C := C) sess.keys.sessionKey
        (encNonce sess.sessionId channel seq)
        (buildAad sess.keys channel
          (memWrite
            (buildPacket buf clear 0 sess.sessionId channel seq payload).data
            19 (leBytes 4 (aeadNonceSize + payload.length + aeadTagSize))))
        (plain
          (memWrite
            (buildPacket buf clear 0 sess.sessionId channel seq payload).data
            19 (leBytes 4 (aeadNonceSize + payload.length + aeadTagSize))))
    rw [length_memSlice] at cipherLength
    rw [sealed]
    simp only [writesBelow_cons, writesBelow_nil, length_leBytes,
      cipherLength, tagLength, length_encNonce, headerSize, aeadNonceSize,
      maxPacketSize, List.length_singleton, and_true]
    constructor
    · rintro ⟨-, -, -, -, empty | fits⟩ -
      · rw [empty] at tagLength
        cases tagLength
      · omega
    · intro short
      have bound := short locked
      exact ⟨Or.inr (by decide), Or.inr (by omega), Or.inr (by decide),
        Or.inr (by decide), Or.inr (by omega)⟩
  · rw [if_pos locked]
    exact ⟨fun _ state => absurd state locked, fun _ => writesBelow_nil _⟩

/-- A packet that fits is sealed and stays inside the buffer. -/
theorem encryptTxPacket_sealed
    (data : channel ≠ chControl) (small : payload.length ≤ 1476) :
    let out :=
      encryptTxPacket C
        (buildPacket buf clear 0 sess.sessionId channel seq payload) sess
    out.1 = true ∧
      out.2.len =
        24 + payload.length + if sess.state = .locked then 28 else 0 := by
  intro out
  have parsed :=
    packetParse_buildPacket buf clear 0 sess.sessionId channel seq payload
      (by decide) small
  have applied : out =
      sessionEncApply C
        (buildPacket buf clear 0 sess.sessionId channel seq payload)
        (builtView buf clear 0 sess.sessionId channel seq payload) sess := by
    change encryptTxPacket C _ sess = _
    rw [encryptTxPacket_eq, parsed]
  rw [applied]
  by_cases locked : sess.state = .locked
  · rw [sessionEncApply_buildPacket C buf clear sess.sessionId channel seq
      payload sess locked data small, if_pos locked, buildPacket_len,
      length_encPayload]
    exact ⟨rfl, by omega⟩
  · rw [sessionEncApply, if_pos locked, if_neg locked, buildPacket_len]
    exact ⟨rfl, rfl⟩

/-- The writes of the common body stay inside the buffer exactly when the
payload leaves room. -/
theorem sealUse_writesBelow
    (bound : CopiesBound copies payload) (data : channel ≠ chControl) :
    WritesBelow maxPacketSize
        (sealUse C buf clear sess channel seq payload copies).writes ↔
      PayloadFits sess payload := by
  have header :=
    headerWrites_below clear 0 sess.sessionId channel seq payload.length
  unfold CopiesBound at bound
  by_cases small : payload.length ≤ 1476
  · have parsed :=
      packetParse_buildPacket buf clear 0 sess.sessionId channel seq payload
        (by decide) small
    rw [sealUse, parsed]
    dsimp only
    rw [writesBelow_append, writesBelow_append,
      sealWrites_below buf clear sess seq data small, bound]
    constructor
    · rintro ⟨-, room⟩
      exact ⟨small, room⟩
    · rintro ⟨-, room⟩
      exact ⟨⟨header, small⟩, room⟩
  · have refused :=
      packetParse_buildPacket_eq_none buf clear 0 sess.sessionId channel seq
        payload (Nat.not_le.mp small)
    rw [sealUse, refused]
    dsimp only
    rw [writesBelow_append, bound]
    exact ⟨fun below => absurd below.2 small, fun fits => absurd fits.1 small⟩

theorem sealUse_len
    (copied : Copies copies payload) (data : channel ≠ chControl)
    (fits : PayloadFits sess payload) :
    (sealUse C buf clear sess channel seq payload copies).len ≤
      maxPacketSize := by
  obtain ⟨small, room⟩ := fits
  have gives := sealUse_gives (C := C) buf clear sess channel seq copied
  obtain ⟨-, len⟩ :=
    encryptTxPacket_sealed (C := C) buf clear sess seq data small
  rw [gives.len, len, maxPacketSize]
  split
  · rename_i locked
    have sealedRoom := room locked
    omega
  · omega

theorem sealUse_inside
    (copied : Copies copies payload) (bound : CopiesBound copies payload)
    (data : channel ≠ chControl) :
    (sealUse C buf clear sess channel seq payload copies).Inside ↔
      PayloadFits sess payload := by
  have below :=
    sealUse_writesBelow (C := C) buf clear sess seq bound data
  constructor
  · intro inside
    exact below.mp inside.1
  · intro fits
    exact ⟨below.mpr fits,
      fun _ => sealUse_len buf clear sess seq copied data fits⟩

end Sealing

theorem pipelineOutboundUse_inside
    (buf : PacketBuf) (sess : Session) (seq : UInt32) (channel : UInt8)
    (payload : Bytes) :
    (pipelineOutboundUse C buf sess seq channel payload).Inside ↔
      payload.length ≤ 1476 ∧
        (channel ≠ chControl → sess.state = .locked →
          payload.length ≤ 1448) := by
  have bound := copiesBound_single payload
  unfold pipelineOutboundUse
  by_cases data : channel ≠ chControl
  · rw [if_pos data,
      sealUse_inside buf true sess seq (copies_single payload) bound data,
      PayloadFits]
    exact and_congr_right fun _ => ⟨fun room _ => room, fun room => room data⟩
  · rw [if_neg data]
    have header :=
      headerWrites_below true 0 sess.sessionId channel seq payload.length
    unfold CopiesBound at bound
    unfold BufferUse.Inside
    dsimp only
    rw [writesBelow_append, bound]
    constructor
    · rintro ⟨⟨-, small⟩, -⟩
      exact ⟨small, fun isData => absurd isData data⟩
    · rintro ⟨small, -⟩
      refine ⟨⟨header, small⟩, fun _ => ?_⟩
      simp only [headerSize, maxPacketSize]
      omega

/-! ## The parity packet of a chat -/

/-- The next packet completes the group of `fec_tx_accumulate`. -/
def Resilience.CompletesGroup (r : Resilience) : Prop :=
  r.fecOn ∧ (r.fecGroupPos + 1) % 256 ≥ r.fecGroupSize

/-- The longest payload of the open group. -/
def Resilience.openParityLen (r : Resilience) : Nat :=
  if r.fecGroupPos = 0 then 0 else r.fecParityLen

theorem fecTxAccumulate_completes
    {r : Resilience} (completes : r.CompletesGroup) (payload : Bytes)
    (seq : UInt32) (channel : UInt8) :
    ∃ parity,
      (fecTxAccumulate r payload seq channel).2 = some parity ∧
        parity.length = 6 + max r.openParityLen payload.length := by
  have opened :
      (r.fecOpenGroup seq channel).fecGroupPos = r.fecGroupPos ∧
        (r.fecOpenGroup seq channel).fecGroupSize = r.fecGroupSize ∧
        (r.fecOpenGroup seq channel).fecParityLen = r.openParityLen := by
    unfold Resilience.fecOpenGroup Resilience.openParityLen
    split
    · exact ⟨rfl, rfl, rfl⟩
    · exact ⟨rfl, rfl, rfl⟩
  have full :
      ((r.fecOpenGroup seq channel).fecAbsorb payload).fecGroupPos ≥
        ((r.fecOpenGroup seq channel).fecAbsorb payload).fecGroupSize := by
    change ((r.fecOpenGroup seq channel).fecGroupPos + 1) % 256 ≥
      (r.fecOpenGroup seq channel).fecGroupSize
    rw [opened.1, opened.2.1]
    exact completes.2
  have emitted := fecTxAccumulate_on payload seq channel completes.1
  dsimp only at emitted
  rw [if_pos full] at emitted
  refine ⟨_, congrArg Prod.snd emitted, ?_⟩
  rw [← opened.2.2]
  exact fecTxAccumulate_parity emitted

theorem fecTxAccumulate_open
    {r : Resilience} (growing : ¬ r.CompletesGroup) (payload : Bytes)
    (seq : UInt32) (channel : UInt8) :
    (fecTxAccumulate r payload seq channel).2 = none := by
  by_cases on : r.fecOn
  · have emitted := fecTxAccumulate_on payload seq channel on
    dsimp only at emitted
    have unfinished :
        ¬ ((r.fecOpenGroup seq channel).fecAbsorb payload).fecGroupPos ≥
          ((r.fecOpenGroup seq channel).fecAbsorb payload).fecGroupSize := by
      intro full
      apply growing
      refine ⟨on, ?_⟩
      change ((r.fecOpenGroup seq channel).fecGroupPos + 1) % 256 ≥
        (r.fecOpenGroup seq channel).fecGroupSize at full
      unfold Resilience.fecOpenGroup at full
      split at full
      · exact full
      · exact full
    rw [if_neg unfinished] at emitted
    exact congrArg Prod.snd emitted
  · rw [fecTxAccumulate_off payload seq channel on]

/-- What is accumulated stays inside the arrays: the position names a slot, a
group that is opened or completed has no more slots than there are, and the
longest body of a group that is completed leaves six bytes of `parity_buf`. -/
def AccumulateFits (r : Resilience) (n : Nat) : Prop :=
  r.fecOn →
    r.fecGroupPos < resilienceFecGroup ∧
      (r.fecGroupPos = 0 ∨ r.CompletesGroup →
        r.fecGroupSize ≤ resilienceFecGroup) ∧
      (r.CompletesGroup → max r.openParityLen n ≤ 1402)

theorem range_slots_iff (n : Nat) :
    (∀ i ∈ List.range n, i < resilienceFecGroup) ↔ n ≤ resilienceFecGroup := by
  constructor
  · intro all
    rcases Nat.eq_zero_or_pos n with none | some
    · rw [none]
      exact Nat.zero_le _
    · have last := all (n - 1) (List.mem_range.mpr (by omega))
      omega
  · intro small i inside
    exact Nat.lt_of_lt_of_le (List.mem_range.mp inside) small

/-- The four copies into `parity_buf`. -/
theorem parityBuf_below
    (start : UInt32) (size : Nat) (channel : UInt8) (parity : Bytes) :
    WritesBelow (fecMaxPayload + 8)
        [⟨0, leBytes 4 start.toNat⟩, ⟨4, [UInt8.ofNat size]⟩, ⟨5, [channel]⟩,
          ⟨6, parity⟩] ↔
      parity.length ≤ 1402 := by
  simp only [writesBelow_cons, writesBelow_nil, length_leBytes,
    List.length_singleton, fecMaxPayload, and_true]
  constructor
  · rintro ⟨-, -, -, empty | fits⟩
    · rw [empty]
      exact Nat.zero_le _
    · omega
  · intro small
    exact ⟨Or.inr (by decide), Or.inr (by decide), Or.inr (by decide),
      Or.inr (by omega)⟩

theorem fecAbsorb_opened
    (r : Resilience) (seq : UInt32) (channel : UInt8) (body : Bytes) :
    let q := (r.fecOpenGroup seq channel).fecAbsorb body
    q.fecGroupPos = (r.fecGroupPos + 1) % 256 ∧
      q.fecGroupSize = r.fecGroupSize ∧
      q.fecParityLen = max r.openParityLen body.length := by
  unfold Resilience.fecOpenGroup Resilience.openParityLen
  split
  · exact ⟨rfl, rfl, rfl⟩
  · exact ⟨rfl, rfl, rfl⟩

theorem accumulateUse_inside
    (r : Resilience) (body : Bytes) (seq : UInt32) (channel : UInt8) :
    (accumulateUse r body seq channel).Inside ↔
      AccumulateFits r body.length := by
  by_cases on : r.fecOn
  · have opened :
        (∀ i ∈ (if r.fecGroupPos = 0 then List.range r.fecGroupSize else []),
            i < resilienceFecGroup) ↔
          (r.fecGroupPos = 0 → r.fecGroupSize ≤ resilienceFecGroup) := by
      split
      · rename_i first
        rw [range_slots_iff]
        exact ⟨fun small _ => small, fun small => small first⟩
      · rename_i later
        exact ⟨fun _ first => absurd first later,
          fun _ => List.forall_mem_nil _⟩
    obtain ⟨position, size, length⟩ := fecAbsorb_opened r seq channel body
    have use := accumulateUse_on on body seq channel
    dsimp only at use position size length
    unfold AccumulateUse.Inside AccumulateFits
    rw [use, position, size]
    by_cases full : (r.fecGroupPos + 1) % 256 ≥ r.fecGroupSize
    · have completes : r.CompletesGroup := ⟨on, full⟩
      rw [if_pos full]
      dsimp only
      rw [List.forall_mem_append, List.forall_mem_append, opened,
        List.forall_mem_singleton, range_slots_iff, parityBuf_below,
        length_memSlice, length]
      constructor
      · rintro ⟨⟨⟨-, inside⟩, small⟩, short⟩ -
        exact ⟨inside, fun _ => small, fun _ => short⟩
      · intro fits
        obtain ⟨inside, small, short⟩ := fits on
        exact ⟨⟨⟨fun first => small (Or.inl first), inside⟩,
          small (Or.inr completes)⟩, short completes⟩
    · have growing : ¬r.CompletesGroup := fun completes => full completes.2
      rw [if_neg full]
      dsimp only
      rw [List.forall_mem_append, opened, List.forall_mem_singleton]
      constructor
      · rintro ⟨⟨small, inside⟩, -⟩ -
        refine ⟨inside, ?_, fun completes => absurd completes growing⟩
        rintro (first | completes)
        · exact small first
        · exact absurd completes growing
      · intro fits
        obtain ⟨inside, small, -⟩ := fits on
        exact ⟨⟨fun first => small (Or.inl first), inside⟩, writesBelow_nil _⟩
  · rw [accumulateUse_off on]
    exact ⟨fun _ enabled => absurd enabled on,
      fun _ => ⟨List.forall_mem_nil _, writesBelow_nil _⟩⟩

/-- A parity that fits the array on the stack fits the packet that it is then
copied into. -/
theorem parityUse_inside
    {s : Session} {body : Bytes} (fits : AccumulateFits s.resilience body.length)
    (channel : UInt8) (seq : UInt32) (buf : Option PacketBuf) :
    ∀ u ∈ parityUse s channel seq body buf, u.Inside := by
  unfold parityUse
  by_cases completes : s.resilience.CompletesGroup
  · obtain ⟨parity, emitted, length⟩ :=
      fecTxAccumulate_completes completes body seq channel
    have short := (fits completes.1).2.2 completes
    have header :=
      headerWrites_below true packetFlagFecParity s.sessionId channel seq
        parity.length
    have copied :=
      (copiesBound_single parity).mpr (by rw [length]; omega)
    rw [emitted]
    cases buf with
    | none =>
        exact List.forall_mem_nil _
    | some room =>
        dsimp only
        rw [List.forall_mem_singleton]
        refine ⟨writesBelow_append.mpr ⟨header, copied⟩, fun _ => ?_⟩
        simp only [headerSize, maxPacketSize, length]
        omega
  · rw [fecTxAccumulate_open completes body seq channel]
    exact List.forall_mem_nil _

theorem resilienceRecordTx_accumulateFits (r : Resilience) (idx n : Nat) :
    AccumulateFits (resilienceRecordTx r idx) n ↔ AccumulateFits r n := by
  unfold resilienceRecordTx
  split
  · exact Iff.rfl
  · exact Iff.rfl

/-- There is room for a text and for what is accumulated of its packet. -/
def ChatFits (s : Session) (text : Bytes) : Prop :=
  PayloadFits s (copiedText text) ∧
    AccumulateFits s.resilience
      ((copiedText text).length + if s.state = .locked then 28 else 0)

theorem chatUse_inside
    (buf : PacketBuf) (s : Session) (seq : UInt32) (payload : Bytes)
    (parityBuf : Option PacketBuf) :
    let chat :=
      sealUse C buf false s chChat seq payload [⟨headerSize, payload⟩]
    let body :=
      (encryptTxPacket C (buildPacket buf false 0 s.sessionId chChat seq payload)
        s).2.body
    let use : ChatUse :=
      if chat.ok then
        { packets := chat :: parityUse s chChat seq body parityBuf
          accumulated := [accumulateUse s.resilience body seq chChat] }
      else
        { packets := [chat], accumulated := [] }
    use.Inside ↔
      PayloadFits s payload ∧
        AccumulateFits s.resilience
          (payload.length + if s.state = .locked then 28 else 0) := by
  intro chat body use
  have data : chChat ≠ chControl := by
    decide
  have inside : chat.Inside ↔ PayloadFits s payload :=
    sealUse_inside buf false s seq (copies_single payload)
      (copiesBound_single payload) data
  by_cases fits : PayloadFits s payload
  · obtain ⟨sealed, len⟩ :=
      encryptTxPacket_sealed (C := C) buf false s seq data fits.1
    have gives :
        chat.Gives buf.data
          (encryptTxPacket C
            (buildPacket buf false 0 s.sessionId chChat seq payload) s) :=
      sealUse_gives buf false s chChat seq (copies_single payload)
    have length :
        body.length =
          payload.length + if s.state = .locked then 28 else 0 := by
      change (memSlice _ _ _).length = _
      rw [length_memSlice, len, headerSize]
      omega
    have accumulated :
        (accumulateUse s.resilience body seq chChat).Inside ↔
          AccumulateFits s.resilience
            (payload.length + if s.state = .locked then 28 else 0) := by
      rw [← length]
      exact accumulateUse_inside s.resilience body seq chChat
    have same : use =
        { packets := chat :: parityUse s chChat seq body parityBuf
          accumulated := [accumulateUse s.resilience body seq chChat] } :=
      if_pos (gives.ok.trans sealed)
    rw [same, ChatUse.Inside, List.forall_mem_cons, inside,
      List.forall_mem_singleton, accumulated]
    constructor
    · rintro ⟨⟨room, -⟩, spare⟩
      exact ⟨room, spare⟩
    · rintro ⟨room, spare⟩
      refine ⟨⟨room, ?_⟩, spare⟩
      rw [← length] at spare
      exact parityUse_inside spare chChat seq parityBuf
  · constructor
    · intro all
      refine absurd (inside.mp (all.1 chat ?_)) fits
      change chat ∈ (if chat.ok then _ else _ : ChatUse).packets
      split
      · exact List.mem_cons_self
      · exact List.mem_cons_self
    · rintro ⟨room, -⟩
      exact absurd room fits

theorem sendChatUse_inside
    (text : Bytes) (buf parityBuf : Option PacketBuf) (e : Engine) :
    (sendChatUse C text buf parityBuf e).Inside ↔
      ∀ i, e.session = some i → e.sessionIsLocked = true →
        buf.isSome = true → ChatFits (e.pool i) text := by
  have nothing :
      ChatUse.Inside { packets := [], accumulated := [] } :=
    ⟨List.forall_mem_nil _, List.forall_mem_nil _⟩
  unfold sendChatUse
  cases e.session with
  | none =>
      exact ⟨fun _ i present => (by cases present), fun _ => nothing⟩
  | some i =>
      cases e.sessionIsLocked with
      | false =>
          exact ⟨fun _ _ _ flagged => (by cases flagged), fun _ => nothing⟩
      | true =>
          cases buf with
          | none =>
              exact ⟨fun _ _ _ _ present => (by cases present),
                fun _ => nothing⟩
          | some buf =>
              have chat :=
                chatUse_inside (C := C) buf
                  { e.pool i with
                    resilience :=
                      resilienceRecordTx (e.pool i).resilience
                        (e.chatPath (e.pool i)) }
                  e.seqCounter (copiedText text) parityBuf
              rw [resilienceRecordTx_accumulateFits] at chat
              refine chat.trans ⟨fun fits j same _ _ => ?_, fun fits => ?_⟩
              · cases same
                exact fits
              · exact fits i rfl rfl rfl

theorem relayBuildTestUse_inside
    (sess : Session) (seq : UInt32) (destNodeId : UInt64) (message : Bytes)
    (buf : Option PacketBuf) :
    (∀ u ∈ relayBuildTestUse C sess seq destNodeId message buf, u.Inside) ↔
      (buf.isSome = true →
        PayloadFits sess (routePayload destNodeId message)) := by
  cases buf with
  | none =>
      exact ⟨fun _ present => (by cases present), fun _ => List.forall_mem_nil _⟩
  | some buf =>
      rw [relayBuildTestUse, List.forall_mem_singleton,
        sealUse_inside buf true sess seq (copies_route destNodeId message)
          (copiesBound_route destNodeId message) (by decide)]
      exact ⟨fun fits _ => fits, fun fits => fits rfl⟩

/-- The video worker uses the packet even when it was not sealed. -/
theorem videoUse_inside
    (buf : PacketBuf) (sess : Session) (seq : UInt32) (jpeg : Bytes) :
    BufferUse.Inside
        { sealUse C buf false sess chVideo seq jpeg [⟨headerSize, jpeg⟩] with
          ok := true } ↔
      PayloadFits sess jpeg := by
  have data : chVideo ≠ chControl := by
    decide
  have below :=
    sealUse_writesBelow (C := C) buf false sess seq
      (copiesBound_single jpeg) data
  constructor
  · intro inside
    exact below.mp inside.1
  · intro fits
    exact ⟨below.mpr fits,
      fun _ => sealUse_len buf false sess seq (copies_single jpeg) data fits⟩

theorem videoWorkerUse_inside
    (w : MediaWorker) (sess : Session) (frame : Option Bytes)
    (buf : Option PacketBuf) (seq : UInt32) :
    (∀ u ∈ videoWorkerUse C w sess frame buf seq, u.Inside) ↔
      (w.running = true → w.active = true → buf.isSome = true →
        ∀ jpeg ∈ frame, PayloadFits sess jpeg) := by
  unfold videoWorkerUse
  split
  · rename_i idle
    refine ⟨fun _ running active => ?_, fun _ => List.forall_mem_nil _⟩
    simp [running, active] at idle
  · rename_i busy
    have works : w.running = true ∧ w.active = true := by
      simpa using busy
    cases frame with
    | none =>
        exact ⟨fun _ _ _ _ => nofun, fun _ => List.forall_mem_nil _⟩
    | some jpeg =>
        cases buf with
        | none =>
            exact ⟨fun _ _ _ present => (by cases present), fun _ => List.forall_mem_nil _⟩
        | some buf =>
            have pushed :=
              videoUse_inside (C := C) buf sess seq jpeg
            dsimp only
            split
            · rw [List.forall_mem_singleton, pushed]
              constructor
              · rintro fits - - - _ ⟨⟩
                exact fits
              · intro fits
                exact fits works.1 works.2 rfl jpeg rfl
            · rename_i empty
              refine ⟨fun _ _ _ _ => ?_, fun _ => List.forall_mem_nil _⟩
              rintro _ ⟨⟩
              exact ⟨by omega, fun _ => by omega⟩

/-- The property of every builder, on every input. -/
theorem outboundBuilders_inside_iff :
    (∀ buf sess seq channel payload,
      (pipelineOutboundUse C buf sess seq channel payload).Inside ↔
        payload.length ≤ 1476 ∧
          (channel ≠ chControl → sess.state = .locked →
            payload.length ≤ 1448)) ∧
      (∀ e text buf parityBuf,
        (sendChatUse C text buf parityBuf e).Inside ↔
          ∀ i, e.session = some i → e.sessionIsLocked = true →
            buf.isSome = true → ChatFits (e.pool i) text) ∧
      (∀ sess seq destNodeId message buf,
        (∀ u ∈ relayBuildTestUse C sess seq destNodeId message buf,
            u.Inside) ↔
          (buf.isSome = true →
            PayloadFits sess (routePayload destNodeId message))) ∧
      ∀ w sess frame buf seq,
        (∀ u ∈ videoWorkerUse C w sess frame buf seq, u.Inside) ↔
          (w.running = true → w.active = true → buf.isSome = true →
            ∀ jpeg ∈ frame, PayloadFits sess jpeg) := by
  refine ⟨?_, ?_, ?_, ?_⟩
  · intro buf sess seq channel payload
    exact pipelineOutboundUse_inside buf sess seq channel payload
  · intro e text buf parityBuf
    exact sendChatUse_inside text buf parityBuf e
  · intro sess seq destNodeId message buf
    exact relayBuildTestUse_inside sess seq destNodeId message buf
  · intro w sess frame buf seq
    exact videoWorkerUse_inside w sess frame buf seq

/-- Next to the limit the packet is sealed and used although it ends behind
the buffer. -/
theorem pipelineOutboundUse_beyond
    (buf : PacketBuf) {sess : Session} (locked : sess.state = .locked)
    (seq : UInt32) {channel : UInt8} (data : channel ≠ chControl)
    {payload : Bytes} (lower : 1448 < payload.length)
    (upper : payload.length ≤ 1476) :
    let use := pipelineOutboundUse C buf sess seq channel payload
    use.ok = true ∧ use.len = payload.length + 52 ∧
      ¬ WritesBelow maxPacketSize use.writes := by
  intro use
  have same : use =
      sealUse C buf true sess channel seq payload [⟨headerSize, payload⟩] :=
    if_pos data
  have gives :=
    sealUse_gives (C := C) buf true sess channel seq (copies_single payload)
  have below :=
    sealUse_writesBelow (C := C) buf true sess seq
      (copiesBound_single payload) data
  obtain ⟨sealed, len⟩ :=
    encryptTxPacket_sealed (C := C) buf true sess seq data upper
  rw [same, gives.ok, gives.len, len, if_pos locked, below]
  refine ⟨sealed, by omega, fun fits => ?_⟩
  have room := fits.2 locked
  omega

end

/-- A chat payload of 1449 bytes: the tag ends one byte behind the buffer. -/
theorem pipelineOutbound_tagBeyond :
    let use :=
      pipelineOutboundUse sampleSuite default sampleEnd 1 chChat (zeros 1449)
    use.ok = true ∧ use.len = 1501 ∧
      ¬ WritesBelow maxPacketSize use.writes ∧ ¬ use.Inside := by
  have length : (zeros 1449).length = 1449 :=
    length_zeros 1449
  have beyond :=
    pipelineOutboundUse_beyond (C := sampleSuite) default
      (rfl : sampleEnd.state = .locked) 1 (by decide : chChat ≠ chControl)
      (by rw [length]; decide : 1448 < (zeros 1449).length)
      (by rw [length]; decide)
  rw [length] at beyond
  obtain ⟨sealed, len, outside⟩ := beyond
  exact ⟨sealed, len, outside, fun inside => outside inside.1⟩

end PqComm
