import PqComm.Core.FecRecovery
import PqComm.Engine.Api
import PqComm.Engine.Conversation

/-!
# Groups that lose a packet

A sender writes data packets in groups of four and adds the parity that
`fec_tx_after_encrypt` makes of them.  On the way every group may lose one
packet.  The receiver's `resilience_check` rebuilds the ciphertext of a packet
that is lost, and the next packet that reaches `pipeline_inbound_post_crypto`
decrypts it there.

The receiver finds a packet of a group in the slot of its place only in a
group that begins at a multiple of four, and a rebuilt packet is as long as the
longest one of its group.
-/

namespace PqComm

open Lib

/-! ## Sending a group -/

/-- Four messages with consecutive numbers, the buffers taken for them and for
their parity, and the address the parity goes to. -/
structure DataGroup where
  start : UInt32
  channel : UInt8
  plain : Nat → Bytes
  bufs : Nat → PacketBuf
  parityBuf : PacketBuf
  peerAddr : Bytes

def DataGroup.message (g : DataGroup) (i : Nat) : SentData where
  channel := g.channel
  seq := g.start + UInt32.ofNat i
  plain := g.plain i

section

variable (C : CryptoSuite)

/-- Message `i` is sealed, and `fec_tx_after_encrypt` may add a parity. -/
def DataGroup.send (g : DataGroup) (s : Session) (i : Nat) :
    Session × List PacketBuf :=
  let m := g.message i
  let built := pipelineOutboundProcess C (g.bufs i) s m.seq m.channel m.plain
  let coded :=
    fecTxAfterEncrypt built.2 s m.channel m.seq (some g.parityBuf) g.peerAddr
  (coded.1, built.2 :: coded.2.toList)

/-- The bytes behind the header of packet `i` of a group. -/
def DataGroup.text (g : DataGroup) (sender : Session) (i : Nat) : Bytes :=
  encPayload C (g.bufs i) true sender.sessionId g.channel
    (g.start + UInt32.ofNat i) (g.plain i) sender

def DataGroup.packet (g : DataGroup) (sender : Session) (i : Nat) :
    PacketBuf :=
  outboundPacket C (g.bufs i) sender (g.start + UInt32.ofNat i) g.channel
    (g.plain i)

def DataGroup.parity (g : DataGroup) (sender : Session) : PacketBuf :=
  (buildPacket g.parityBuf true packetFlagFecParity sender.sessionId g.channel
    (g.start + 3)
    (parityWire g.start g.channel
      ((List.range 4).map (g.text C sender)))).sendTo g.peerAddr

/-- What is emitted for a group. -/
def DataGroup.emitted (g : DataGroup) (sender : Session) : List PacketBuf :=
  (List.range 4).map (g.packet C sender) ++ [g.parity C sender]

def DataGroup.messages (g : DataGroup) : List SentData :=
  (List.range 4).map g.message

/-- The group has a data channel, begins at a multiple of four above zero and
ends before the numbers do, and its packets with their tags fit into the
buffers of the code. -/
structure DataGroup.Proper (g : DataGroup) : Prop where
  data : DataChannel g.channel
  aligned : g.start.toNat % 4 = 0
  positive : g.start ≠ 0
  fits : ∀ i, (g.plain i).length + 28 ≤ fecMaxPayload

end

section

variable {C : CryptoSuite}

theorem body_outboundPacket
    (buf : PacketBuf) (s : Session) (seq : UInt32) (channel : UInt8)
    (payload : Bytes) :
    (outboundPacket C buf s seq channel payload).body =
      encPayload C buf true s.sessionId channel seq payload s := by
  unfold PacketBuf.body outboundPacket
  rw [buildPacket_len, headerSize, Nat.add_sub_cancel_left]
  exact buildPacket_payload _ _ _ _ _ _ _

section

variable {g : DataGroup} {sender s : Session} {n : Nat}

theorem body_packet (g : DataGroup) (sender : Session) (i : Nat) :
    (g.packet C sender i).body = g.text C sender i :=
  body_outboundPacket _ _ _ _ _

end

end

/-! ## What reaches the receiver -/

/-- What the network makes of a group: the packet that it loses, or none when
`missing` is four, and the order in which the rest arrives.  If nothing is
lost, the parity is the last to arrive. -/
structure Passage where
  missing : Nat
  order : List FecArrival

structure Passage.Lossy (passage : Passage) : Prop where
  inside : passage.missing ≤ 4
  arrives : passage.order.Perm (arrivalsWithout passage.missing)
  late : passage.missing = 4 → ∃ early, passage.order = early ++ [.parity]

/-- The packet of an arrival, among those that were emitted for its group. -/
def arrived (emitted : List PacketBuf) : FecArrival → PacketBuf
  | .packet i => emitted.getD i default
  | .parity => emitted.getD 4 default

def Passage.arrivals (passage : Passage) (emitted : List PacketBuf) :
    List PacketBuf :=
  passage.order.map (arrived emitted)

/-- The calls receive the packets from the address the session knows; the
filters let them pass, the queues have room and the pool has buffers. -/
def ArriveAs (C : CryptoSuite) :
    Filters → Session → List PacketBuf → List InboundCall → Prop
  | _, _, [], [] => True
  | filters, sess, p :: packets, call :: calls =>
      (call.packet.wire = p.wire ∧ call.packet.addr = sess.addr ∧
        call.packet.addrLen = sess.addrLen ∧
        PassesFilters call.env filters call.packet ∧
        (∀ channel, ringFull (call.rxq.ring channel) = false) ∧
        call.env.dataBuf.isSome = true ∧
        call.env.parityBuf.isSome = true) ∧
        let processed :=
          pipelineInboundProcess C call.env filters sess call.rxq call.packet
        ArriveAs C processed.2.1 processed.2.2.sess packets calls
  | _, _, _, _ => False

/-! ## Packets that say the same -/

theorem body_eq_drop (p : PacketBuf) : p.body = p.wire.drop headerSize := by
  unfold PacketBuf.body PacketBuf.wire
  by_cases long : headerSize ≤ p.len
  · have split := memSlice_append p.data 0 headerSize (p.len - headerSize)
    rw [Nat.add_sub_cancel' long, Nat.zero_add] at split
    rw [split, List.drop_left' (length_memSlice _ _ _)]
  · have short : p.len - headerSize = 0 := by
      omega
    rw [short, List.drop_of_length_le (by rw [length_memSlice]; omega)]
    rfl

theorem body_of_wire {p q : PacketBuf} (same : q.wire = p.wire) :
    q.body = p.body := by
  rw [body_eq_drop, body_eq_drop, same]

/-- With a cleared header nothing of the buffer is left in the datagram. -/
theorem wire_buildPacket
    (buf : PacketBuf) (flags : UInt8) (sessionId : UInt64) (channel : UInt8)
    (seq : UInt32) (payload : Bytes) :
    (buildPacket buf true flags sessionId channel seq payload).wire =
      packetHeader 0 flags sessionId channel seq payload.length ++
        payload := by
  unfold PacketBuf.wire
  rw [buildPacket_len, buildPacket_slice _ _ _ _ _ _ _ (by omega),
    List.drop_zero]
  apply List.take_of_length_le
  rw [List.length_append, length_packetHeader]

theorem wire_rebuiltPacket
    {C : CryptoSuite} {sender s : Session} (id : s.sessionId = sender.sessionId)
    (buf buf' : PacketBuf) (channel : UInt8) (seq : UInt32)
    (payload : Bytes) :
    (rebuiltPacket buf s channel
        (encPayload C buf' true sender.sessionId channel seq payload sender)
        seq).wire =
      (outboundPacket C buf' sender seq channel payload).wire := by
  change (buildPacket buf true packetFlagEncrypted s.sessionId channel seq
    (encPayload C buf' true sender.sessionId channel seq payload
      sender)).wire = _
  rw [outboundPacket, wire_buildPacket, wire_buildPacket, id]

/-! ## The window -/

/-- A number that no window refuses: it is new and not far below the largest. -/
structure Recent (accepted : List UInt32) (seq : UInt32) : Prop where
  nonzero : seq ≠ 0
  new : seq ∉ accepted
  near : ∀ other ∈ accepted, other.toNat < seq.toNat + replayWindowSize

theorem Recent.replayAccepts
    {accepted : List UInt32} {seq : UInt32} (recent : Recent accepted seq) :
    replayAccepts accepted seq := by
  have largest :
      (accepted.map UInt32.toNat).foldr max 0 <
        seq.toNat + replayWindowSize := by
    have near := recent.near
    clear recent
    induction accepted with
    | nil =>
        exact Nat.lt_of_lt_of_le (by decide) (Nat.le_add_left _ _)
    | cons other rest inductionHypothesis =>
        rw [List.map_cons, List.foldr_cons, Nat.max_lt]
        exact ⟨near other List.mem_cons_self,
          inductionHypothesis fun seq member =>
            near seq (List.mem_cons_of_mem _ member)⟩
  refine ⟨recent.nonzero, ?_⟩
  by_cases above : (accepted.map UInt32.toNat).foldr max 0 < seq.toNat
  · exact Or.inr (Or.inl above)
  · exact Or.inr (Or.inr ⟨by omega, recent.new⟩)

/-! ## The pending packet -/

/-- The session waits to decrypt a packet that says `carry`, if any. -/
def Awaits (C : CryptoSuite) (s : Session) : Option SentData → Prop
  | none => s.fecRecovered = none
  | some message =>
      ∃ rec p, s.fecRecovered = some rec ∧ rec.wire = p.wire ∧
        Says C s p message

theorem Awaits.congr
    {C : CryptoSuite} {s s' : Session} {carry : Option SentData}
    (awaits : Awaits C s carry) (core : SameCore s s')
    (same : s'.fecRecovered = s.fecRecovered) : Awaits C s' carry := by
  cases carry with
  | none =>
      exact same.trans awaits
  | some message =>
      obtain ⟨rec, p, pending, wire, spoken⟩ := awaits
      exact ⟨rec, p, same.trans pending, wire, spoken.congr core⟩

/-- The session after the window has taken a number. -/
def Session.marked (s : Session) (seq : UInt32) : Session :=
  let window := seqCheckBitmap seq s.lastSeq s.recvBitmap
  { s with lastSeq := window.2.1, recvBitmap := window.2.2 }

/-- The session after the pending packet was taken. -/
def Session.drained (s : Session) (carry : Option SentData) : Session :=
  match carry with
  | none => s
  | some message => { s with fecRecovered := none }.marked message.seq

theorem Session.sameCore_marked (s : Session) (seq : UInt32) :
    SameCore s (s.marked seq) :=
  ⟨rfl, rfl, rfl, rfl⟩

theorem Session.drained_frame (s : Session) (carry : Option SentData) :
    SameCore s (s.drained carry) ∧
      (s.drained carry).resilience = s.resilience ∧
        (s.drained carry).addrLen = s.addrLen := by
  cases carry with
  | none => exact ⟨SameCore.refl s, rfl, rfl⟩
  | some message => exact ⟨⟨rfl, rfl, rfl, rfl⟩, rfl, rfl⟩

section

variable {C : CryptoSuite} {s : Session} {accepted : List UInt32}

theorem Awaits.drained
    {carry : Option SentData} (awaits : Awaits C s carry) :
    Awaits C (s.drained carry) none := by
  cases carry with
  | none => exact awaits
  | some message => rfl

theorem ReplayKnows.marked
    (knows : ReplayKnows accepted s.lastSeq s.recvBitmap) {seq : UInt32}
    (recent : Recent accepted seq) :
    ReplayKnows (seq :: accepted) (s.marked seq).lastSeq
      (s.marked seq).recvBitmap :=
  knows.accept ((knows.verdict seq).mpr recent.replayAccepts)

/-- The pending packet is opened, and its number is fresh. -/
theorem Awaits.drainRecovered
    (aead : AeadInverts C) {carry : Option SentData}
    (awaits : Awaits C s carry)
    (single : s.resilience.multipathEnabled = false)
    (knows : ReplayKnows accepted s.lastSeq s.recvBitmap)
    (recent : ∀ message ∈ carry, Recent accepted message.seq) :
    ∃ early,
      drainRecovered C s = (s.drained carry, early) ∧
        (early.toList.map fun p => deliveredData (p.data 14, p)) =
          carry.toList := by
  cases carry with
  | none =>
      refine ⟨none, ?_, rfl⟩
      unfold PqComm.drainRecovered
      rw [show s.fecRecovered = none from awaits]
      rfl
  | some message =>
      obtain ⟨rec, p, pending, wire, spoken⟩ := awaits
      obtain ⟨buf, sender, shares, rfl⟩ := spoken.made
      have core : SameCore s { s with fecRecovered := none } :=
        ⟨rfl, rfl, rfl, rfl⟩
      obtain ⟨view, opened, parsed, fields, checked, plain, -, seq, channel,
          -⟩ :=
        outboundPacket_opened aead (shares.congr core)
          spoken.channel.ne_control spoken.fits buf message.seq wire
      have encrypted : view.encrypted = true := fields.encrypted
      have fresh := (recent message rfl).replayAccepts
      rw [← knows.verdict] at fresh
      have header : opened.buf.data 14 = opened.channelId := by
        have passed :
            (cipherStage C { s with fecRecovered := none } view).2 =
              some opened := by
          unfold cipherStage
          rw [if_pos encrypted, checked]
        exact (cipherStage_header C parsed passed).1
      refine ⟨some opened.buf, ?_, ?_⟩
      · unfold PqComm.drainRecovered processFecRecovered
        rw [pending]
        simp only [parsed, encrypted, checked]
        rw [seqCheck_single (s := { s with fecRecovered := none }) single,
          seq]
        simp only [fresh]
        rfl
      · rw [Option.toList_some, List.map_singleton, header,
          deliveredData_opened parsed encrypted (by rw [checked]), plain,
          channel, seq]
        rfl

/-- A data packet comes through, after the pending one. -/
theorem Arrives.hands_on
    (aead : AeadInverts C) {s' : Session} {message : SentData}
    {filters : Filters} {call : InboundCall} {view : PacketView}
    (arrives : Arrives C s message filters call view)
    (data : DataChannel message.channel)
    (passed :
      resilienceCheck view s call.env.dataBuf call.env.parityBuf =
        (s', true))
    {carry : Option SentData} (awaits : Awaits C s' carry)
    (single : s'.resilience.multipathEnabled = false)
    (knows : ReplayKnows accepted s'.lastSeq s'.recvBitmap)
    (recent : ∀ other ∈ carry, Recent accepted other.seq)
    (own :
      Recent ((carry.toList.map SentData.seq) ++ accepted) message.seq)
    (room : ∀ channel, ringFull (call.rxq.ring channel) = false) :
    let post :=
      (pipelineInboundProcess C call.env filters s call.rxq call.packet).2.2
    post.sess = (s'.drained carry).marked message.seq ∧
      (post.deliveries call.rxq).map deliveredData =
        carry.toList ++ [message] ∧
        ReplayKnows
          (message.seq :: (carry.toList.map SentData.seq ++ accepted))
          post.sess.lastSeq post.sess.recvBitmap := by
  intro post
  have gates := arrives.gates s' passed
  obtain ⟨early, drained, taken⟩ :=
    awaits.drainRecovered aead single knows recent
  obtain ⟨core, same, -⟩ := s'.drained_frame carry
  have single' : (s'.drained carry).resilience.multipathEnabled = false := by
    rw [same]
    exact single
  have knows' :
      ReplayKnows (carry.toList.map SentData.seq ++ accepted)
        (s'.drained carry).lastSeq (s'.drained carry).recvBitmap := by
    cases carry with
    | none =>
        exact knows
    | some other =>
        have cleared :
            ReplayKnows accepted { s' with fecRecovered := none }.lastSeq
              { s' with fecRecovered := none }.recvBitmap :=
          knows
        exact cleared.marked (recent other rfl)
  obtain ⟨opened, checked, seq, channel, content⟩ :=
    arrives.opens _ (gates.reassembles.untouched.toSameCore.trans core)
  obtain ⟨kept, handed⟩ :=
    postCrypto_opens drained single' arrives.encrypted checked
      (channel ▸ data) room
  have fresh := (knows'.verdict message.seq).mpr own.replayAccepts
  have reached :
      post = pipelineInboundPostCrypto C s' call.rxq view := by
    simp only [post]
    rw [gates.pipelineInboundProcess C call.rxq]
  rw [reached]
  have kept' :
      (pipelineInboundPostCrypto C s' call.rxq view).sess =
        (s'.drained carry).marked message.seq := by
    rw [kept, seq]
    rfl
  refine ⟨kept', ?_, ?_⟩
  · rw [handed, seq, if_pos fresh, List.map_append, List.map_map,
      ← taken, List.map_singleton, content]
    rfl
  · rw [kept']
    exact knows'.marked own

end

/-! ## The group in the slots -/

section

variable (C : CryptoSuite)

/-- The packets of a group as the stream of `fec_rx_track`. -/
def DataGroup.stream (g : DataGroup) (sender : Session) (proper : g.Proper) :
    FecStream where
  text seq := g.text C sender (seq - g.start).toNat
  filled := by
    intro seq empty
    have size := congrArg List.length empty
    rw [DataGroup.text, length_encPayload, List.length_nil] at size
    omega
  short := by
    intro seq
    have fits := proper.fits (seq - g.start).toNat
    rw [DataGroup.text, length_encPayload]
    omega

end

section

variable {C : CryptoSuite} {g : DataGroup} {sender : Session}

theorem DataGroup.stream_text
    (proper : g.Proper) {i : Nat} (inside : i ≤ 4) :
    (g.stream C sender proper).text (g.start + UInt32.ofNat i) =
      g.text C sender i := by
  have place : (g.start + UInt32.ofNat i - g.start).toNat = i := by
    rw [UInt32.add_comm, UInt32.add_sub_cancel, UInt32.toNat_ofNat']
    omega
  change g.text C sender _ = _
  rw [place]

theorem DataGroup.stream_groupTexts (proper : g.Proper) :
    (g.stream C sender proper).groupTexts g.start =
      (List.range 4).map (g.text C sender) := by
  apply List.map_congr_left
  intro i member
  exact DataGroup.stream_text proper (Nat.le_of_lt (List.mem_range.mp member))

/-- What `resilience_check` knows of a group of which `pending` has not
arrived. -/
structure GroupSlots (C : CryptoSuite) (g : DataGroup) (sender : Session)
    (proper : g.Proper) (missing : Nat) (pending : List FecArrival)
    (r : Resilience) : Prop where
  waiting :
    FecWaiting (g.stream C sender proper) g.start missing pending r
  sound : FecSound (g.stream C sender proper) r
  upper : ∀ i, 4 ≤ i → r.fecBufs i = []
  channel : .parity ∉ pending → r.fecRxChannelId = g.channel

/-- The call that an arrival makes. -/
def DataGroup.rxAct (C : CryptoSuite) (g : DataGroup) (sender : Session) :
    FecArrival → FecRxAct
  | .packet i => .track (g.start + UInt32.ofNat i) (g.text C sender i)
  | .parity =>
      .storeParity
        (parityWire g.start g.channel ((List.range 4).map (g.text C sender)))

theorem DataGroup.rxAct_eq
    (proper : g.Proper) {arrival : FecArrival}
    (inside : ∀ i, arrival = .packet i → i ≤ 4) :
    (g.stream C sender proper).arrival g.start
        (parityWire g.start g.channel
          ((g.stream C sender proper).groupTexts g.start)) arrival =
      g.rxAct C sender arrival := by
  cases arrival with
  | packet i =>
      rw [FecStream.arrival, DataGroup.stream_text proper (inside i rfl)]
      rfl
  | parity =>
      rw [DataGroup.stream_groupTexts]
      rfl

variable {proper : g.Proper} {missing : Nat} {pending : List FecArrival}
  {r : Resilience}

/-- The metrics of the path are not part of it. -/
theorem GroupSlots.recordRx
    (slots : GroupSlots C g sender proper missing pending r) (idx : Nat)
    (rtt : UInt64) :
    GroupSlots C g sender proper missing pending
      (resilienceRecordRx r idx rtt) := by
  obtain ⟨waiting, sound, upper, channel⟩ := slots
  unfold resilienceRecordRx
  split
  · exact ⟨waiting, sound, upper, channel⟩
  · exact ⟨⟨waiting.enabled, waiting.size, waiting.here, waiting.absent,
      waiting.noParity, waiting.parity⟩, ⟨sound.slots, sound.parity⟩, upper,
      channel⟩

/-- An arrival takes its place. -/
theorem GroupSlots.step
    {arrival : FecArrival}
    (slots : GroupSlots C g sender proper missing (arrival :: pending) r)
    (once : arrival ∉ pending)
    (inGroup : ∀ i, arrival = .packet i → i < 4 ∧ i ≠ missing) :
    GroupSlots C g sender proper missing pending
      (fecRxStep r (g.rxAct C sender arrival)) := by
  have act :
      (g.stream C sender proper).arrival g.start
          (parityWire g.start g.channel
            ((g.stream C sender proper).groupTexts g.start)) arrival =
        g.rxAct C sender arrival :=
    DataGroup.rxAct_eq proper fun i same => Nat.le_of_lt (inGroup i same).1
  have waiting :=
    slots.waiting.step proper.aligned once inGroup g.channel
  have sound :=
    slots.sound.step
      (fecReady_resilienceInit.genuine_arrival
        (g.stream C sender proper) g.start g.channel arrival)
  rw [act] at waiting sound
  refine ⟨waiting, sound, fun i above => ?_, fun absent => ?_⟩
  · cases arrival with
    | packet k =>
        obtain ⟨inside, -⟩ := inGroup k rfl
        have tracked :=
          slots.waiting.tracks proper.aligned inside
        rw [DataGroup.stream_text proper (Nat.le_of_lt inside)] at tracked
        have other : i ≠ k := by
          omega
        change (fecRxTrack r _ _).fecBufs i = []
        rw [tracked]
        simp only [other, if_false]
        exact slots.upper i above
    | parity =>
        change (fecRxStoreParity r _).fecBufs i = []
        unfold fecRxStoreParity
        split
        · exact slots.upper i above
        · exact slots.upper i above
  · cases arrival with
    | packet k =>
        change (fecRxTrack r _ _).fecRxChannelId = g.channel
        unfold fecRxTrack
        split
        · exact slots.channel (by simp [absent])
        · exact slots.channel (by simp [absent])
    | parity =>
        change (fecRxStoreParity r _).fecRxChannelId = g.channel
        rw [← DataGroup.stream_groupTexts proper, fecRxStoreParity_wire r
          g.start g.channel (maxLength_groupTexts _ g.start)]

/-- While a packet or the parity of the group is on its way, nothing is
rebuilt. -/
theorem GroupSlots.waits
    {arrival : FecArrival}
    (slots : GroupSlots C g sender proper missing (arrival :: pending) r)
    (inGroup : ∀ i, arrival = .packet i → i < 4 ∧ i ≠ missing)
    (late : 4 ≤ missing → .parity ∈ arrival :: pending) :
    fecRxRebuild r = (r, none) := by
  by_cases lost : missing < 4
  · exact slots.waiting.waits lost inGroup
  · exact fecRxRebuild_idle
      (slots.waiting.noParity (late (Nat.not_lt.mp lost)))

theorem GroupSlots.fresh
    (slots : GroupSlots C g sender proper missing pending r) :
    FecFresh (fecRxClearGroup r) where
  size := slots.waiting.size
  slots := by
    intro i
    change (if i < resilienceFecGroup then [] else r.fecBufs i) = []
    split
    · rfl
    · rename_i above
      exact slots.upper i (Nat.not_lt.mp above)
  noParity := rfl

/-- The lost packet is rebuilt, if no packet of the group is longer. -/
theorem GroupSlots.rebuilds
    (slots : GroupSlots C g sender proper missing [] r)
    (lost : missing < 4)
    (longest : ∀ i, i < 4 →
      (g.plain i).length ≤ (g.plain missing).length) :
    fecRxRebuild r =
      (fecRxClearGroup r,
        some (g.text C sender missing, g.start + UInt32.ofNat missing)) := by
  have rebuilt := slots.waiting.rebuilds slots.sound lost
  have whole :
      padTo (maxLength ((g.stream C sender proper).groupTexts g.start))
          ((g.stream C sender proper).text
            (g.start + UInt32.ofNat missing)) =
        (g.stream C sender proper).text
          (g.start + UInt32.ofNat missing) := by
    rw [FecStream.padTo_maxLength_iff _ _ lost]
    intro i inside
    rw [DataGroup.stream_text proper (Nat.le_of_lt inside),
      DataGroup.stream_text proper (Nat.le_of_lt lost), DataGroup.text,
      DataGroup.text, length_encPayload, length_encPayload]
    exact Nat.add_le_add_left (longest i inside) 28
  rw [whole, DataGroup.stream_text proper (Nat.le_of_lt lost)] at rebuilt
  obtain ⟨stored, e, only, -⟩ := missingOnly_of_fecRxRebuild rebuilt
  have result := fecRxRebuild_missing stored only
  exact Prod.ext (by rw [result]) rebuilt

/-- A group of which nothing is missing is cleared. -/
theorem GroupSlots.clears
    (slots : GroupSlots C g sender proper 4 [] r) :
    fecRxRebuild r = (fecRxClearGroup r, none) := by
  obtain ⟨stored, number, size⟩ :=
    slots.waiting.parity List.not_mem_nil
  have present : r.fecAbsent = [] := by
    rw [List.eq_nil_iff_forall_not_mem]
    intro i absent
    obtain ⟨inside, lacks⟩ := mem_fecAbsent.mp absent
    rw [size] at inside
    obtain ⟨held, seq⟩ :=
      slots.waiting.here i inside (Nat.ne_of_lt inside) List.not_mem_nil
    have filled : 0 < (r.fecBufs i).length := by
      rw [held]
      exact List.length_pos_iff.mpr
        ((g.stream C sender proper).filled _)
    simp [Resilience.fecSlotMatches, filled, seq, number] at lacks
  have counted := countP_fecSlotMatches (r := r)
  rw [present, List.length_nil, Nat.add_zero] at counted
  unfold fecRxRebuild
  rw [if_neg (by simp [stored, size])]
  dsimp only
  rw [if_pos counted]

end

/-! ## One arrival -/

theorem resilienceCheck_tracks
    {s : Session} (locked : s.state = .locked)
    (enabled : s.resilience.fecEnabled = true) {v : PacketView}
    (encrypted : v.encrypted = true) (data : v.channelId ≠ chControl)
    (flags : v.flags &&& packetFlagFecParity = 0)
    (dataBuf parityBuf : Option PacketBuf) :
    resilienceCheck v s dataBuf parityBuf =
      (tryRebuild
        { s with
          resilience :=
            fecRxTrack (resilienceRecordRx s.resilience 0 0) v.seq
              v.buf.body } dataBuf, true) := by
  have on : (resilienceRecordRx s.resilience 0 0).fecEnabled = true :=
    enabled
  unfold resilienceCheck trackData
  simp [locked, on, encrypted, data, flags]

theorem resilienceCheck_stores
    {s : Session} (locked : s.state = .locked) {v : PacketView}
    (plain : v.encrypted = false)
    (flags : v.flags &&& packetFlagFecParity ≠ 0)
    (long : 6 ≤ v.buf.body.length) (dataBuf parityBuf : Option PacketBuf) :
    resilienceCheck v s dataBuf parityBuf =
      (tryRebuild
        { s with
          resilience :=
            fecRxStoreParity (resilienceRecordRx s.resilience 0 0)
              v.buf.body } parityBuf, false) := by
  unfold resilienceCheck trackData trackParity
  simp [locked, plain, flags, long]

/-- A packet that `resilience_check` keeps is not handed on. -/
theorem pipelineInboundProcess_kept
    {C : CryptoSuite} {s s' : Session} {filters : Filters}
    {call : InboundCall} {view : PacketView}
    (parsed : packetParse call.packet = some view)
    (passes : PassesFilters call.env filters call.packet)
    (gate : sessionCheck s view = some view)
    (kept :
      resilienceCheck view s call.env.dataBuf call.env.parityBuf =
        (s', false)) :
    let post :=
      (pipelineInboundProcess C call.env filters s call.rxq call.packet).2.2
    post.sess = s' ∧ post.deliveries call.rxq = [] := by
  obtain ⟨raw, parsed', offensive, anti, static, kernel⟩ := passes
  rw [parsed] at parsed'
  cases parsed'
  have stopped :
      pipelineInboundPreCrypto call.env filters (some s) call.packet =
        { result := .dropResilience
          filters :=
            (pipelineInboundPreCrypto call.env filters (some s)
              call.packet).filters
          sess := some s' } := by
    unfold pipelineInboundPreCrypto
    simp [parsed, offensive, anti, static, kernel, gate, kept]
  unfold pipelineInboundProcess
  rw [stopped]
  simp [PostCrypto.deliveries, RxQueues.news_refl]

/-- The messages of an arrival. -/
def DataGroup.spoken (g : DataGroup) : FecArrival → List SentData
  | .packet i => [g.message i]
  | .parity => []

def DataGroup.lost (g : DataGroup) (missing : Nat) : Option SentData :=
  if missing < 4 then some (g.message missing) else none

section

variable {C : CryptoSuite} {g : DataGroup} {sender s : Session}

theorem DataGroup.says_packet
    (shares : SharesKeys sender s) (proper : g.Proper) (i : Nat) :
    Says C s (g.packet C sender i) (g.message i) where
  channel := proper.data
  fits := by
    have fits := proper.fits i
    change (g.plain i).length + 28 ≤ 1476
    unfold fecMaxPayload at fits
    omega
  made := ⟨g.bufs i, sender, shares, rfl⟩

/-- The parity of a group passes the parser and the session gate. -/
theorem DataGroup.parity_arrives
    (shares : SharesKeys sender s) (proper : g.Proper)
    (single : s.resilience.multipathEnabled = false)
    (known : s.addrLen ≠ 0) {packet : PacketBuf}
    (wire : packet.wire = (g.parity C sender).wire)
    (addr : packet.addr = s.addr) (addrLen : packet.addrLen = s.addrLen) :
    ∃ view, packetParse packet = some view ∧
      sessionCheck s view = some view ∧ view.encrypted = false ∧
        view.flags &&& packetFlagFecParity ≠ 0 ∧
        view.buf.body =
          parityWire g.start g.channel
            ((List.range 4).map (g.text C sender)) := by
  have bounded :
      maxLength ((List.range 4).map (g.text C sender)) ≤ fecMaxPayload := by
    rw [← DataGroup.stream_groupTexts proper]
    exact maxLength_groupTexts _ _
  have size :
      (parityWire g.start g.channel
        ((List.range 4).map (g.text C sender))).length ≤ 1476 := by
    unfold fecMaxPayload at bounded
    simp [parityWire, parityBytes] at bounded ⊢
    omega
  obtain ⟨view, parsed, fields⟩ :=
    packetParse_same_wire
      (packetParse_buildPacket g.parityBuf true packetFlagFecParity
        sender.sessionId g.channel (g.start + 3) _ (by decide) size) wire
  have sameBuf := (parsedAs_of_packetParse parsed).buf
  have first : view = { view with pathIdx := 0 } := by
    rw [← (seq_of_packetParse parsed).2]
  have channel : view.channelId = g.channel := fields.channelId
  refine ⟨view, parsed, ?_, fields.encrypted, ?_, ?_⟩
  · rw [sessionCheck_of_peer shares.receiverLocked single known
      (by rw [channel]; exact proper.data.ne_control)
      (fields.sessionId.trans shares.sessionId.symm)
      (by rw [sameBuf]; exact addr) (by rw [sameBuf]; exact addrLen),
      ← first]
  · rw [fields.flags]
    exact (by decide : packetFlagFecParity &&& packetFlagFecParity ≠ 0)
  · rw [sameBuf, body_of_wire wire]
    change (buildPacket g.parityBuf true packetFlagFecParity
      sender.sessionId g.channel (g.start + 3) _).body = _
    unfold PacketBuf.body
    rw [buildPacket_len, headerSize, Nat.add_sub_cancel_left]
    exact buildPacket_payload _ _ _ _ _ _ _

/-- What has not arrived of a group that loses `missing`. -/
structure Remaining (missing : Nat) (pending : List FecArrival) : Prop where
  inside : missing ≤ 4
  once : pending.Nodup
  inGroup : ∀ i, .packet i ∈ pending → i < 4 ∧ i ≠ missing
  late :
    missing = 4 → pending = [] ∨ ∃ early, pending = early ++ [.parity]

theorem Passage.Lossy.remaining
    {passage : Passage} (lossy : passage.Lossy) :
    Remaining passage.missing passage.order where
  inside := lossy.inside
  once := lossy.arrives.nodup_iff.mpr (nodup_arrivalsWithout _)
  inGroup := fun _ member =>
    packet_mem_arrivalsWithout.mp (lossy.arrives.mem_iff.mp member)
  late := fun whole => Or.inr (lossy.late whole)

theorem Remaining.tail
    {missing : Nat} {arrival : FecArrival} {pending : List FecArrival}
    (remaining : Remaining missing (arrival :: pending)) :
    Remaining missing pending where
  inside := remaining.inside
  once := (List.nodup_cons.mp remaining.once).2
  inGroup := fun i member =>
    remaining.inGroup i (List.mem_cons_of_mem _ member)
  late := by
    intro whole
    obtain none | ⟨early, parts⟩ := remaining.late whole
    · cases none
    · cases early with
      | nil =>
          exact Or.inl (List.cons.inj parts).2
      | cons first early =>
          exact Or.inr ⟨early, (List.cons.inj parts).2⟩

theorem Remaining.parity_late
    {missing : Nat} {arrival : FecArrival} {pending : List FecArrival}
    (remaining : Remaining missing (arrival :: pending))
    (whole : 4 ≤ missing) : .parity ∈ arrival :: pending := by
  obtain none | ⟨early, parts⟩ :=
    remaining.late (Nat.le_antisymm remaining.inside whole)
  · cases none
  · rw [parts]
    simp

/-- The numbers of a group do not wrap. -/
theorem DataGroup.toNat_seq
    (proper : g.Proper) {i : Nat} (inside : i < 4) :
    (g.message i).seq.toNat = g.start.toNat + i := by
  have aligned := proper.aligned
  have bounded := g.start.toNat_lt
  change (g.start + UInt32.ofNat i).toNat = _
  rw [UInt32.toNat_add, UInt32.toNat_ofNat']
  omega

/-- While something of a group is pending its slots are filled; else there is
nothing in them. -/
def SlotsOf (C : CryptoSuite) (g : DataGroup) (sender : Session)
    (proper : g.Proper) (missing : Nat) : List FecArrival → Resilience → Prop
  | [], r => FecFresh r ∧ r.fecEnabled = true
  | pending, r => GroupSlots C g sender proper missing pending r

/-- The pending packet behind an arrival that leaves `rest`: the last one
rebuilds what the group has lost. -/
def DataGroup.settle (g : DataGroup) (missing : Nat) (rest : List FecArrival)
    (carry : Option SentData) : Option SentData :=
  if rest = [] then g.lost missing else carry

/-- `try_rebuild` behind an arrival. -/
theorem GroupSlots.tryRebuild
    {proper : g.Proper} {missing : Nat} {rest : List FecArrival}
    (slots : GroupSlots C g sender proper missing rest s.resilience)
    (remaining : Remaining missing rest) (shares : SharesKeys sender s)
    (longest : missing < 4 →
      ∀ i, i < 4 → (g.plain i).length ≤ (g.plain missing).length)
    {carry : Option SentData} (awaits : Awaits C s carry)
    (last : rest = [] → carry = none) {buf : Option PacketBuf}
    (pool : buf.isSome = true) :
    ∃ r' pending',
      tryRebuild s buf =
          { s with resilience := r', fecRecovered := pending' } ∧
        r'.multipathEnabled = s.resilience.multipathEnabled ∧
          SlotsOf C g sender proper missing rest r' ∧
            Awaits C { s with resilience := r', fecRecovered := pending' }
              (g.settle missing rest carry) := by
  cases rest with
  | cons arrival rest =>
      have waits :=
        slots.waits
          (fun i same =>
            remaining.inGroup i (same ▸ List.mem_cons_self))
          remaining.parity_late
      refine ⟨s.resilience, s.fecRecovered, ?_, rfl, slots, awaits⟩
      unfold PqComm.tryRebuild
      rw [waits]
  | nil =>
      have fresh := slots.fresh
      have enabled :
          (fecRxClearGroup s.resilience).fecEnabled = true :=
        slots.waiting.enabled
      rw [last rfl] at awaits
      by_cases lost : missing < 4
      · obtain ⟨taken, rfl⟩ := Option.isSome_iff_exists.mp pool
        have rebuilt := slots.rebuilds lost (longest lost)
        have channel :
            (fecRxClearGroup s.resilience).fecRxChannelId = g.channel :=
          slots.channel List.not_mem_nil
        refine ⟨fecRxClearGroup s.resilience,
          some
            (rebuiltPacket taken
              { s with resilience := fecRxClearGroup s.resilience }
              g.channel (g.text C sender missing)
              (g.start + UInt32.ofNat missing)),
          ?_, rfl, ⟨fresh, enabled⟩, ?_⟩
        · unfold PqComm.tryRebuild
          rw [rebuilt]
          simp only [channel]
        · unfold DataGroup.settle DataGroup.lost
          rw [if_pos rfl, if_pos lost]
          refine ⟨_, g.packet C sender missing, rfl, ?_,
            (DataGroup.says_packet shares proper missing).congr
              ⟨rfl, rfl, rfl, rfl⟩⟩
          exact wire_rebuiltPacket
            (s := { s with resilience := fecRxClearGroup s.resilience })
            shares.sessionId _ _ _ _ _
      · have whole : missing = 4 :=
          Nat.le_antisymm remaining.inside (Nat.not_lt.mp lost)
        subst whole
        refine ⟨fecRxClearGroup s.resilience, s.fecRecovered, ?_, rfl,
          ⟨fresh, enabled⟩, awaits⟩
        unfold PqComm.tryRebuild
        rw [slots.clears]

/-- The receiver when `pending` has not arrived of a group, with the message
that it still has to decrypt and the numbers that it has accepted. -/
structure Receiving (C : CryptoSuite) (g : DataGroup) (sender : Session)
    (proper : g.Proper) (missing : Nat) (pending : List FecArrival)
    (carry : Option SentData) (accepted : List UInt32) (s : Session) :
    Prop where
  shares : SharesKeys sender s
  single : s.resilience.multipathEnabled = false
  known : s.addrLen ≠ 0
  slots : SlotsOf C g sender proper missing pending s.resilience
  awaits : Awaits C s carry
  window : ReplayKnows accepted s.lastSeq s.recvBitmap
  below : ∀ seq ∈ accepted, seq.toNat < g.start.toNat + 4
  unseen :
    pending ≠ [] → ∀ i, i < 4 → i = missing ∨ .packet i ∈ pending →
      (g.message i).seq ∉ accepted
  carried :
    ∀ message ∈ carry, Recent accepted message.seq ∧
      message.seq.toNat < g.start.toNat + 4 ∧
        (pending ≠ [] → ∀ i, i < 4 → i = missing ∨ .packet i ∈ pending →
          message.seq ≠ (g.message i).seq)
  early :
    pending ≠ [] → carry ≠ none →
      ∀ i, i < 4 → i ≠ missing → .packet i ∈ pending

section

variable {proper : g.Proper} {missing : Nat} {arrival : FecArrival}
  {rest : List FecArrival} {carry : Option SentData}
  {accepted : List UInt32}

theorem Receiving.groupSlots
    (receiving :
      Receiving C g sender proper missing (arrival :: rest) carry accepted
        s) :
    GroupSlots C g sender proper missing (arrival :: rest) s.resilience :=
  receiving.slots

/-- Before the last arrival, what was pending has been taken. -/
theorem Receiving.last
    (receiving :
      Receiving C g sender proper missing (arrival :: rest) carry accepted s)
    (ended : rest = []) : carry = none := by
  subst ended
  by_contra waiting
  have early := receiving.early (List.cons_ne_nil _ _) waiting
  have two : ∃ i j, i < 4 ∧ j < 4 ∧ i ≠ missing ∧ j ≠ missing ∧ i ≠ j := by
    by_cases low : missing < 2
    · exact ⟨2, 3, by omega, by omega, by omega, by omega, by omega⟩
    · exact ⟨0, 1, by omega, by omega, by omega, by omega, by omega⟩
  obtain ⟨i, j, iInside, jInside, iHere, jHere, apart⟩ := two
  have first := List.mem_singleton.mp (early i iInside iHere)
  have second := List.mem_singleton.mp (early j jInside jHere)
  rw [← first] at second
  cases second
  exact apart rfl

/-- What is pending behind an arrival is acceptable. -/
theorem Receiving.settled
    (receiving :
      Receiving C g sender proper missing (arrival :: rest) carry accepted
        s) :
    ∀ message ∈ g.settle missing rest carry,
      Recent accepted message.seq ∧
        message.seq.toNat < g.start.toNat + 4 ∧
          ∀ i, i < 4 → i ≠ missing ∨ rest ≠ [] →
            i = missing ∨ .packet i ∈ arrival :: rest →
              message.seq ≠ (g.message i).seq := by
  intro message member
  unfold DataGroup.settle at member
  split at member
  · unfold DataGroup.lost at member
    split at member
    · rename_i ended lost
      cases member
      have number := DataGroup.toNat_seq proper lost
      refine ⟨⟨?_, ?_, ?_⟩, ?_, ?_⟩
      · intro zero
        have positive : g.start.toNat ≠ 0 := fun zero' =>
          proper.positive (UInt32.toNat_inj.mp zero')
        rw [zero] at number
        have : (0 : UInt32).toNat = 0 := rfl
        omega
      · exact receiving.unseen (List.cons_ne_nil _ _) missing lost
          (Or.inl rfl)
      · intro other taken
        have low := receiving.below other taken
        rw [number]
        unfold replayWindowSize
        omega
      · omega
      · intro i inside here _ same
        have number' := DataGroup.toNat_seq proper inside
        rw [← same, number] at number'
        rcases here with apart | some
        · exact apart (by omega)
        · exact some ended
    · cases member
  · obtain ⟨recent, low, apart⟩ := receiving.carried message member
    exact ⟨recent, low, fun i inside _ =>
      apart (List.cons_ne_nil _ _) i inside⟩

/-- The number of the next packet is acceptable, behind what is pending. -/
theorem Receiving.own
    {k : Nat}
    (receiving :
      Receiving C g sender proper missing (.packet k :: rest) carry accepted
        s)
    (inside : k < 4) (here : k ≠ missing) :
    Recent
      (((g.settle missing rest carry).toList.map SentData.seq) ++ accepted)
      (g.message k).seq := by
  have number := DataGroup.toNat_seq proper inside
  have positive : g.start.toNat ≠ 0 := fun zero =>
    proper.positive (UInt32.toNat_inj.mp zero)
  refine ⟨?_, ?_, ?_⟩
  · intro zero
    rw [zero] at number
    have : (0 : UInt32).toNat = 0 := rfl
    omega
  · rw [List.mem_append, List.mem_map]
    rintro (⟨message, taken, same⟩ | taken)
    · obtain ⟨-, -, apart⟩ :=
        receiving.settled message (Option.mem_toList.mp taken)
      exact apart k inside (Or.inl here) (Or.inr List.mem_cons_self) same
    · exact receiving.unseen (List.cons_ne_nil _ _) k inside
        (Or.inr List.mem_cons_self) taken
  · intro other member
    rw [List.mem_append, List.mem_map] at member
    have low : other.toNat < g.start.toNat + 4 := by
      obtain ⟨message, taken, rfl⟩ | taken := member
      · exact (receiving.settled message (Option.mem_toList.mp taken)).2.1
      · exact receiving.below other taken
    rw [number]
    unfold replayWindowSize
    omega

/-- A packet of the group comes through: what was pending, then the packet, are
handed on. -/
theorem Receiving.data
    (aead : AeadInverts C) {k : Nat}
    (receiving :
      Receiving C g sender proper missing (.packet k :: rest) carry accepted
        s)
    (remaining : Remaining missing (.packet k :: rest))
    (longest : missing < 4 →
      ∀ i, i < 4 → (g.plain i).length ≤ (g.plain missing).length)
    {filters : Filters} {call : InboundCall}
    (wire : call.packet.wire = (g.packet C sender k).wire)
    (addr : call.packet.addr = s.addr)
    (addrLen : call.packet.addrLen = s.addrLen)
    (passes : PassesFilters call.env filters call.packet)
    (room : ∀ channel, ringFull (call.rxq.ring channel) = false)
    (pool : call.env.dataBuf.isSome = true) :
    let post :=
      (pipelineInboundProcess C call.env filters s call.rxq call.packet).2.2
    Receiving C g sender proper missing rest none
        ((g.message k).seq ::
          ((g.settle missing rest carry).toList.map SentData.seq ++ accepted))
        post.sess ∧
      (post.deliveries call.rxq).map deliveredData =
        (g.settle missing rest carry).toList ++ [g.message k] := by
  intro post
  obtain ⟨inside, here⟩ := remaining.inGroup k List.mem_cons_self
  have spoken : Says C s (g.packet C sender k) (g.message k) :=
    DataGroup.says_packet receiving.shares proper k
  obtain ⟨view, arrives⟩ :=
    spoken.arrives aead receiving.single receiving.known wire addr addrLen
      passes
  have content : view.buf.body = g.text C sender k := by
    rw [(parsedAs_of_packetParse arrives.parsed).buf, body_of_wire wire,
      body_packet]
  have enabled := receiving.groupSlots.waiting.enabled
  have checked :=
    resilienceCheck_tracks receiving.shares.receiverLocked enabled
      arrives.encrypted (by rw [arrives.channel]; exact proper.data.ne_control)
      arrives.flags call.env.dataBuf call.env.parityBuf
  rw [arrives.seq, content] at checked
  have once := (List.nodup_cons.mp remaining.once).1
  have slots :=
    (receiving.groupSlots.recordRx 0 0).step once fun i same =>
      remaining.inGroup i (same ▸ List.mem_cons_self)
  have tracked :
      (fecRxTrack (resilienceRecordRx s.resilience 0 0) (g.message k).seq
        (g.text C sender k)).multipathEnabled = false := by
    rw [← receiving.single]
    exact ((sameWindows_resilienceRecordRx _ 0 0).trans
      (sameWindows_fecRxTrack _ _ _)).multipath
  obtain ⟨r', pending', rebuilt, multi, slots', awaits⟩ :=
    GroupSlots.tryRebuild
      (s := { s with
        resilience :=
          fecRxTrack (resilienceRecordRx s.resilience 0 0) (g.message k).seq
            (g.text C sender k) })
      slots remaining.tail (receiving.shares.congr ⟨rfl, rfl, rfl, rfl⟩)
      longest (receiving.awaits.congr ⟨rfl, rfl, rfl, rfl⟩ rfl)
      receiving.last pool
  rw [rebuilt] at checked
  obtain ⟨kept, handed, window⟩ :=
    arrives.hands_on aead proper.data checked awaits (multi.trans tracked)
      receiving.window
      (fun message member => (receiving.settled message member).1)
      (receiving.own inside here) room
  refine ⟨?_, handed⟩
  obtain ⟨core, sameFec, sameLen⟩ :=
    Session.drained_frame
      { s with resilience := r', fecRecovered := pending' }
      (g.settle missing rest carry)
  have sameCore : SameCore s post.sess := by
    rw [kept]
    have rebuilding :
        SameCore s { s with resilience := r', fecRecovered := pending' } :=
      ⟨rfl, rfl, rfl, rfl⟩
    exact (rebuilding.trans core).trans (Session.sameCore_marked _ _)
  refine
    { shares := receiving.shares.congr sameCore
      single := ?_
      known := ?_
      slots := ?_
      awaits := ?_
      window := window
      below := ?_
      unseen := ?_
      carried := fun _ none => nomatch none
      early := fun _ some => absurd rfl some }
  · rw [kept]
    change (Session.drained _ _).resilience.multipathEnabled = false
    rw [sameFec]
    exact multi.trans tracked
  · rw [kept]
    change (Session.drained _ _).addrLen ≠ 0
    rw [sameLen]
    exact receiving.known
  · rw [kept]
    change SlotsOf C g sender proper missing rest
      (Session.drained _ _).resilience
    rw [sameFec]
    exact slots'
  · rw [kept]
    exact awaits.drained
  · intro seq member
    rw [List.mem_cons, List.mem_append, List.mem_map] at member
    obtain rfl | ⟨message, taken, rfl⟩ | taken := member
    · rw [DataGroup.toNat_seq proper inside]
      omega
    · exact (receiving.settled message (Option.mem_toList.mp taken)).2.1
    · exact receiving.below seq taken
  · intro more i low waits member
    have waits' : i = missing ∨ .packet i ∈ FecArrival.packet k :: rest :=
      waits.imp_right (List.mem_cons_of_mem _)
    rw [List.mem_cons, List.mem_append, List.mem_map] at member
    obtain same | ⟨message, taken, same⟩ | taken := member
    · have number := DataGroup.toNat_seq proper low
      rw [same, DataGroup.toNat_seq proper inside] at number
      have equal : k = i := by
        omega
      subst equal
      exact waits.elim here once
    · obtain ⟨-, -, apart⟩ :=
        receiving.settled message (Option.mem_toList.mp taken)
      exact apart i low (Or.inr more) waits' same
    · exact receiving.unseen (List.cons_ne_nil _ _) i low waits' taken

/-- The parity of the group is kept; if it comes last, it rebuilds. -/
theorem Receiving.parity
    (receiving :
      Receiving C g sender proper missing (.parity :: rest) carry accepted s)
    (remaining : Remaining missing (.parity :: rest))
    (longest : missing < 4 →
      ∀ i, i < 4 → (g.plain i).length ≤ (g.plain missing).length)
    {filters : Filters} {call : InboundCall}
    (wire : call.packet.wire = (g.parity C sender).wire)
    (addr : call.packet.addr = s.addr)
    (addrLen : call.packet.addrLen = s.addrLen)
    (passes : PassesFilters call.env filters call.packet)
    (pool : call.env.parityBuf.isSome = true) :
    let post :=
      (pipelineInboundProcess C call.env filters s call.rxq call.packet).2.2
    Receiving C g sender proper missing rest (g.settle missing rest carry)
        accepted post.sess ∧
      post.deliveries call.rxq = [] := by
  intro post
  obtain ⟨view, parsed, gate, plain, flags, content⟩ :=
    DataGroup.parity_arrives receiving.shares proper receiving.single
      receiving.known wire addr addrLen
  have long : 6 ≤ view.buf.body.length := by
    rw [content]
    simp [parityWire]
    omega
  have checked :=
    resilienceCheck_stores receiving.shares.receiverLocked plain flags long
      call.env.dataBuf call.env.parityBuf
  rw [content] at checked
  have once := (List.nodup_cons.mp remaining.once).1
  have slots :=
    (receiving.groupSlots.recordRx 0 0).step once fun i same =>
      remaining.inGroup i (same ▸ List.mem_cons_self)
  obtain ⟨r', pending', rebuilt, multi, slots', awaits⟩ :=
    GroupSlots.tryRebuild
      (s := { s with
        resilience :=
          fecRxStoreParity (resilienceRecordRx s.resilience 0 0)
            (parityWire g.start g.channel
              ((List.range 4).map (g.text C sender))) })
      slots remaining.tail (receiving.shares.congr ⟨rfl, rfl, rfl, rfl⟩)
      longest (receiving.awaits.congr ⟨rfl, rfl, rfl, rfl⟩ rfl)
      receiving.last pool
  have stored :
      (fecRxStoreParity (resilienceRecordRx s.resilience 0 0)
        (parityWire g.start g.channel
          ((List.range 4).map (g.text C sender)))).multipathEnabled =
        false := by
    rw [← receiving.single]
    exact ((sameWindows_resilienceRecordRx _ 0 0).trans
      (sameWindows_fecRxStoreParity _ _)).multipath
  rw [rebuilt] at checked
  obtain ⟨kept, quiet⟩ := pipelineInboundProcess_kept parsed passes gate checked
  refine ⟨?_, quiet⟩
  have sameCore :
      SameCore s { s with resilience := r', fecRecovered := pending' } :=
    ⟨rfl, rfl, rfl, rfl⟩
  change Receiving C g sender proper missing rest _ accepted
    (pipelineInboundProcess C call.env filters s call.rxq call.packet).2.2.sess
  rw [kept]
  refine
    { shares := receiving.shares.congr sameCore
      single := multi.trans stored
      known := receiving.known
      slots := slots'
      awaits := awaits
      window := receiving.window
      below := receiving.below
      unseen := ?_
      carried := ?_
      early := ?_ }
  · intro more i low waits
    exact receiving.unseen (List.cons_ne_nil _ _) i low
      (waits.imp_right (List.mem_cons_of_mem _))
  · intro message member
    obtain ⟨recent, low, apart⟩ := receiving.settled message member
    exact ⟨recent, low, fun more i inside waits =>
      apart i inside (Or.inr more)
        (waits.imp_right (List.mem_cons_of_mem _))⟩
  · intro more waiting i inside here
    unfold DataGroup.settle at waiting
    rw [if_neg more] at waiting
    have member :=
      receiving.early (List.cons_ne_nil _ _) waiting i inside here
    exact (List.mem_cons.mp member).resolve_left (by simp)

theorem arrived_packet
    (C : CryptoSuite) (g : DataGroup) (sender : Session) {k : Nat}
    (inside : k < 4) :
    arrived (g.emitted C sender) (.packet k) = g.packet C sender k := by
  have small : k < ((List.range 4).map (g.packet C sender)).length := by
    rw [List.length_map, List.length_range]
    exact inside
  change (g.emitted C sender).getD k default = _
  unfold DataGroup.emitted
  rw [List.getD_eq_getElem?_getD, List.getElem?_append_left small,
    List.getElem?_map, List.getElem?_range inside]
  rfl

/-- One arrival: what it hands on and what is pending behind it are the packet
and what was pending before. -/
theorem Receiving.arrive
    (aead : AeadInverts C)
    (receiving :
      Receiving C g sender proper missing (arrival :: rest) carry accepted s)
    (remaining : Remaining missing (arrival :: rest))
    (longest : missing < 4 →
      ∀ i, i < 4 → (g.plain i).length ≤ (g.plain missing).length)
    {filters : Filters} {packets : List PacketBuf} {call : InboundCall}
    {calls : List InboundCall}
    (arrives :
      ArriveAs C filters s
        (arrived (g.emitted C sender) arrival :: packets) (call :: calls)) :
    let post :=
      (pipelineInboundProcess C call.env filters s call.rxq call.packet).2.2
    ∃ carry' accepted',
      Receiving C g sender proper missing rest carry' accepted' post.sess ∧
        ((post.deliveries call.rxq).map deliveredData ++ carry'.toList).Perm
          ((g.settle missing rest carry).toList ++ g.spoken arrival) := by
  intro post
  obtain ⟨⟨wire, addr, addrLen, passes, room, dataBuf, parityBuf⟩, -⟩ :=
    arrives
  cases arrival with
  | packet k =>
      obtain ⟨inside, -⟩ := remaining.inGroup k List.mem_cons_self
      rw [arrived_packet C g sender inside] at wire
      obtain ⟨next, handed⟩ :=
        receiving.data aead remaining longest wire addr addrLen passes room
          dataBuf
      refine ⟨none, _, next, ?_⟩
      rw [handed, Option.toList_none, List.append_nil]
      exact List.Perm.refl _
  | parity =>
      obtain ⟨next, handed⟩ :=
        receiving.parity remaining longest wire addr addrLen passes parityBuf
      refine ⟨_, _, next, ?_⟩
      rw [handed, DataGroup.spoken, List.append_nil]
      exact List.Perm.refl _

/-- What is handed on now and later, when something passes from the one to the
other. -/
theorem perm_hand_over
    {α : Type} {now later passed left settled lost carry own rest all : List α}
    (first : (now ++ passed).Perm (settled ++ own))
    (others : (later ++ left).Perm (passed ++ rest ++ lost))
    (balance : settled ++ lost = carry ++ all) :
    (now ++ later ++ left).Perm (carry ++ (own ++ rest) ++ all) := by
  have middle (a b c d : List α) :
      (a ++ b ++ (c ++ d)).Perm (a ++ d ++ (b ++ c)) := by
    rw [List.append_assoc, List.append_assoc, ← List.append_assoc b]
    exact List.perm_append_comm.append_left a
  calc (now ++ later ++ left).Perm (now ++ (passed ++ rest ++ lost)) := by
        rw [List.append_assoc]
        exact others.append_left now
    _ = now ++ passed ++ (rest ++ lost) := by
        simp only [List.append_assoc]
    (now ++ passed ++ (rest ++ lost)).Perm
        (settled ++ own ++ (rest ++ lost)) := first.append_right _
    List.Perm _ (settled ++ lost ++ (own ++ rest)) := middle _ _ _ _
    _ = carry ++ all ++ (own ++ rest) := by
        rw [balance]
    List.Perm _ (carry ++ (own ++ rest) ++ all) := by
        rw [List.append_assoc, List.append_assoc]
        exact List.perm_append_comm.append_left carry

theorem Receiving.settle_toList
    (receiving :
      Receiving C g sender proper missing (arrival :: rest) carry accepted
        s) :
    (g.settle missing rest carry).toList ++
        (if rest = [] then [] else (g.lost missing).toList) =
      carry.toList ++ (g.lost missing).toList := by
  unfold DataGroup.settle
  by_cases ended : rest = []
  · rw [if_pos ended, if_pos ended, receiving.last ended]
    simp
  · rw [if_neg ended, if_neg ended]

/-- The rest of a group: what is handed on and what is pending in the end are
its packets, the one that was lost and what was pending before. -/
theorem Receiving.run
    (aead : AeadInverts C) {pending : List FecArrival}
    (receiving :
      Receiving C g sender proper missing pending carry accepted s)
    (remaining : Remaining missing pending)
    (longest : missing < 4 →
      ∀ i, i < 4 → (g.plain i).length ≤ (g.plain missing).length)
    {filters : Filters} {packets : List PacketBuf}
    {calls : List InboundCall}
    (arrives :
      ArriveAs C filters s
        (pending.map (arrived (g.emitted C sender)) ++ packets) calls) :
    ∃ filters' s' calls' handed carry' accepted',
      (deliveryRun C filters s calls).map deliveredData =
          handed ++ (deliveryRun C filters' s' calls').map deliveredData ∧
        ArriveAs C filters' s' packets calls' ∧
          Receiving C g sender proper missing [] carry' accepted' s' ∧
            (handed ++ carry'.toList).Perm
              (carry.toList ++ pending.flatMap g.spoken ++
                if pending = [] then [] else (g.lost missing).toList) := by
  induction pending generalizing filters s calls carry accepted with
  | nil =>
      exact ⟨filters, s, calls, [], carry, accepted, rfl, arrives, receiving,
        by simp⟩
  | cons arrival rest inductionHypothesis =>
      cases calls with
      | nil =>
          exact arrives.elim
      | cons call calls =>
          obtain ⟨carry₁, accepted₁, next, first⟩ :=
            receiving.arrive aead remaining longest arrives
          obtain ⟨filters', s', calls', handed, carry', accepted', ran,
            arrives', ended, others⟩ :=
            inductionHypothesis next remaining.tail arrives.2
          have settled := receiving.settle_toList
          rw [deliveryRun, List.map_append, ran]
          generalize List.map deliveredData _ = now at first ⊢
          refine ⟨filters', s', calls', now ++ handed, carry', accepted', ?_,
            arrives', ended, ?_⟩
          · rw [List.append_assoc]
          rw [if_neg (List.cons_ne_nil _ _), List.flatMap_cons]
          exact perm_hand_over first others settled

end

/-! ## From group to group -/

/-- The receiver when nothing of a group is on its way.  All numbers it knows
are below `bound`. -/
structure Resting (C : CryptoSuite) (sender : Session) (bound : Nat)
    (carry : Option SentData) (accepted : List UInt32) (s : Session) :
    Prop where
  shares : SharesKeys sender s
  single : s.resilience.multipathEnabled = false
  known : s.addrLen ≠ 0
  fresh : FecFresh s.resilience
  enabled : s.resilience.fecEnabled = true
  awaits : Awaits C s carry
  window : ReplayKnows accepted s.lastSeq s.recvBitmap
  below : ∀ seq ∈ accepted, seq.toNat < bound
  carried :
    ∀ message ∈ carry, Recent accepted message.seq ∧
      message.seq.toNat < bound

section

variable {proper : g.Proper} {missing bound : Nat} {carry : Option SentData}
  {accepted : List UInt32}

theorem Receiving.rests
    (receiving : Receiving C g sender proper missing [] carry accepted s) :
    Resting C sender (g.start.toNat + 4) carry accepted s where
  shares := receiving.shares
  single := receiving.single
  known := receiving.known
  fresh := receiving.slots.1
  enabled := receiving.slots.2
  awaits := receiving.awaits
  window := receiving.window
  below := receiving.below
  carried := fun message member =>
    ⟨(receiving.carried message member).1,
      (receiving.carried message member).2.1⟩

theorem Passage.Lossy.order_ne_nil
    {passage : Passage} (lossy : passage.Lossy) : passage.order ≠ [] := by
  intro empty
  have size := lossy.arrives.length_eq
  rw [empty] at size
  simp [arrivalsWithout] at size

/-- A new group begins. -/
theorem Resting.begins
    (resting : Resting C sender bound carry accepted s)
    (later : bound ≤ g.start.toNat) (proper : g.Proper) {passage : Passage}
    (lossy : passage.Lossy) :
    Receiving C g sender proper passage.missing passage.order carry accepted
      s := by
  have slots :
      GroupSlots C g sender proper passage.missing passage.order
        s.resilience :=
    { waiting :=
        resting.fresh.waiting resting.enabled fun _ =>
          lossy.arrives.mem_iff
      sound := resting.fresh.sound
      upper := fun i _ => resting.fresh.slots i
      channel := fun absent =>
        absurd (lossy.arrives.mem_iff.mpr List.mem_cons_self) absent }
  refine
    { shares := resting.shares
      single := resting.single
      known := resting.known
      slots := ?_
      awaits := resting.awaits
      window := resting.window
      below := fun seq member =>
        Nat.lt_of_lt_of_le (resting.below seq member)
          (Nat.le_add_right_of_le later)
      unseen := ?_
      carried := ?_
      early := fun _ _ i inside here =>
        lossy.arrives.mem_iff.mpr
          (packet_mem_arrivalsWithout.mpr ⟨inside, here⟩) }
  · have some := lossy.order_ne_nil
    revert slots some
    cases passage.order with
    | nil => exact fun _ some => absurd rfl some
    | cons arrival rest => exact fun slots _ => slots
  · intro _ i inside _ taken
    have low := resting.below _ taken
    rw [DataGroup.toNat_seq proper inside] at low
    omega
  · intro message member
    obtain ⟨recent, low⟩ := resting.carried message member
    refine ⟨recent, by omega, fun _ i inside _ same => ?_⟩
    rw [same, DataGroup.toNat_seq proper inside] at low
    omega

/-- The messages of the packets that arrive and the one that is lost are those
of the group. -/
theorem Passage.Lossy.messages
    {passage : Passage} (lossy : passage.Lossy) (g : DataGroup) :
    (passage.order.flatMap g.spoken ++
      (g.lost passage.missing).toList).Perm g.messages := by
  have places :
      ∀ missing ≤ 4,
        (((List.range 4).filter fun i => decide (i ≠ missing)) ++
          if missing < 4 then [missing] else []).Perm (List.range 4) := by
    decide
  have spoken :
      (arrivalsWithout passage.missing).flatMap g.spoken =
        ((List.range 4).filter
          fun i => decide (i ≠ passage.missing)).map g.message := by
    rw [arrivalsWithout, List.flatMap_cons, DataGroup.spoken,
      List.nil_append, List.flatMap_map]
    exact List.map_eq_flatMap.symm
  have lost :
      (g.lost passage.missing).toList =
        (if passage.missing < 4 then [passage.missing] else []).map
          g.message := by
    unfold DataGroup.lost
    split
    · rfl
    · rfl
  have arrives := lossy.arrives.flatMap_right g.spoken
  rw [spoken] at arrives
  rw [lost]
  refine (arrives.append_right _).trans ?_
  rw [← List.map_append]
  exact (places _ lossy.inside).map g.message

/-- A whole group. -/
theorem Resting.group
    (aead : AeadInverts C)
    (resting : Resting C sender bound carry accepted s)
    (later : bound ≤ g.start.toNat) (proper : g.Proper) {passage : Passage}
    (lossy : passage.Lossy)
    (longest : passage.missing < 4 →
      ∀ i, i < 4 → (g.plain i).length ≤ (g.plain passage.missing).length)
    {filters : Filters} {packets : List PacketBuf}
    {calls : List InboundCall}
    (arrives :
      ArriveAs C filters s (passage.arrivals (g.emitted C sender) ++ packets)
        calls) :
    ∃ filters' s' calls' handed carry' accepted',
      (deliveryRun C filters s calls).map deliveredData =
          handed ++ (deliveryRun C filters' s' calls').map deliveredData ∧
        ArriveAs C filters' s' packets calls' ∧
          Resting C sender (g.start.toNat + 4) carry' accepted' s' ∧
            (handed ++ carry'.toList).Perm (carry.toList ++ g.messages) := by
  obtain ⟨filters', s', calls', handed, carry', accepted', ran, arrives',
    ended, parts⟩ :=
    (resting.begins later proper lossy).run aead lossy.remaining longest
      arrives
  refine ⟨filters', s', calls', handed, carry', accepted', ran, arrives',
    ended.rests, parts.trans ?_⟩
  rw [if_neg lossy.order_ne_nil, List.append_assoc]
  exact (lossy.messages g).append_left _

end

/-- A packet behind the groups takes what is pending with it. -/
theorem Resting.closes
    (aead : AeadInverts C)
    (resting : Resting C sender bound carry accepted s)
    {closing : PacketBuf} {last : SentData} (spoken : Says C s closing last)
    (later : bound ≤ last.seq.toNat) {filters : Filters}
    {calls : List InboundCall}
    (arrives : ArriveAs C filters s [closing] calls) :
    (deliveryRun C filters s calls).map deliveredData =
      carry.toList ++ [last] := by
  obtain _ | ⟨call, calls⟩ := calls
  · exact arrives.elim
  obtain ⟨⟨wire, addr, addrLen, passes, room, -, -⟩, ended⟩ := arrives
  obtain _ | ⟨call', calls⟩ := calls
  case cons => exact ended.elim
  obtain ⟨view, through⟩ :=
    spoken.arrives aead resting.single resting.known wire addr addrLen passes
  have checked :=
    resilienceCheck_tracks resting.shares.receiverLocked resting.enabled
      through.encrypted
      (by rw [through.channel]; exact spoken.channel.ne_control)
      through.flags call.env.dataBuf call.env.parityBuf
  have windows :=
    (sameWindows_resilienceRecordRx s.resilience 0 0).trans
      (sameWindows_fecRxTrack _ view.seq view.buf.body)
  have noParity :
      (fecRxTrack (resilienceRecordRx s.resilience 0 0) view.seq
        view.buf.body).fecRxHaveParity = false := by
    have recorded :
        (resilienceRecordRx s.resilience 0 0).fecRxHaveParity = false := by
      unfold resilienceRecordRx
      split
      · exact resting.fresh.noParity
      · exact resting.fresh.noParity
    unfold fecRxTrack
    split
    · exact recorded
    · exact recorded
  unfold tryRebuild at checked
  rw [fecRxRebuild_idle noParity] at checked
  have low :
      ∀ seq ∈ carry.toList.map SentData.seq ++ accepted, seq.toNat < bound :=
    by
      intro seq member
      rw [List.mem_append, List.mem_map] at member
      obtain ⟨message, taken, rfl⟩ | taken := member
      · exact (resting.carried message (Option.mem_toList.mp taken)).2
      · exact resting.below seq taken
  have recent :
      Recent (carry.toList.map SentData.seq ++ accepted) last.seq :=
    ⟨through.nonzero,
      fun member => absurd (low _ member) (Nat.not_lt.mpr later),
      fun seq member =>
        Nat.lt_of_lt_of_le (low seq member) (Nat.le_add_right_of_le later)⟩
  obtain ⟨-, handed, -⟩ :=
    through.hands_on aead spoken.channel checked
      (resting.awaits.congr ⟨rfl, rfl, rfl, rfl⟩ rfl)
      (windows.multipath.trans resting.single) resting.window
      (fun message member => (resting.carried message member).1) recent room
  rw [deliveryRun, deliveryRun, List.append_nil]
  exact handed

/-- The groups one after another. -/
theorem Resting.run
    (aead : AeadInverts C) {traffic : List (DataGroup × Passage)}
    (resting : Resting C sender bound carry accepted s)
    (proper : ∀ x ∈ traffic, x.1.Proper) (lossy : ∀ x ∈ traffic, x.2.Lossy)
    (longest : ∀ x ∈ traffic, x.2.missing < 4 →
      ∀ i, i < 4 → (x.1.plain i).length ≤ (x.1.plain x.2.missing).length)
    (later : ∀ x ∈ traffic, bound ≤ x.1.start.toNat)
    (ordered :
      traffic.Pairwise fun x y => x.1.start.toNat + 4 ≤ y.1.start.toNat)
    {closing : PacketBuf} {last : SentData}
    (spoken : ∀ s, SharesKeys sender s → Says C s closing last)
    (after : bound ≤ last.seq.toNat)
    (behind : ∀ x ∈ traffic, x.1.start.toNat + 4 ≤ last.seq.toNat)
    {filters : Filters} {calls : List InboundCall}
    (arrives :
      ArriveAs C filters s
        (traffic.flatMap (fun x => x.2.arrivals (x.1.emitted C sender)) ++
          [closing]) calls) :
    ((deliveryRun C filters s calls).map deliveredData).Perm
      (carry.toList ++ traffic.flatMap (fun x => x.1.messages) ++ [last]) := by
  induction traffic generalizing s bound carry accepted filters calls with
  | nil =>
      rw [resting.closes aead (spoken s resting.shares) after arrives,
        List.flatMap_nil, List.append_nil]
  | cons x traffic inductionHypothesis =>
      rw [List.flatMap_cons, List.append_assoc] at arrives
      obtain ⟨filters', s', calls', handed, carry', accepted', ran, arrives',
        resting', parts⟩ :=
        resting.group aead (later x List.mem_cons_self)
          (proper x List.mem_cons_self) (lossy x List.mem_cons_self)
          (longest x List.mem_cons_self) arrives
      rw [List.pairwise_cons] at ordered
      have rest {P : DataGroup × Passage → Prop}
          (all : ∀ y ∈ x :: traffic, P y) : ∀ y ∈ traffic, P y :=
        fun y member => all y (List.mem_cons_of_mem _ member)
      have others :=
        inductionHypothesis resting' (rest proper) (rest lossy)
          (rest longest) ordered.1 ordered.2
          (behind x List.mem_cons_self) (rest behind) arrives'
      rw [ran, List.flatMap_cons, ← List.append_assoc carry.toList,
        List.append_assoc (carry.toList ++ _)]
      refine (others.append_left handed).trans ?_
      rw [List.append_assoc carry'.toList, ← List.append_assoc handed]
      exact parts.append_right _

end

end PqComm
