import Mathlib.Data.List.Perm.Subperm
import PqComm.Engine.ReceivePaths
import PqComm.Layers.Integrity

/-!
# The sealed channel

What one end hands on as sealed data, over any run of the inbound pipeline on
any packets, is what the other end has sealed: the same plaintext under the
same channel and number, and each sealed packet at most once.

The tag covers the header, so a packet that opens is one that was sealed; the
replay window takes its number once; and a packet rebuilt from parity, which
nobody has authenticated, meets the same two checks.
-/

namespace PqComm

open Lib

/-! ## What was sent and what is delivered -/

/-- A message on a data channel. -/
structure SentData where
  channel : UInt8
  seq : UInt32
  plain : Bytes
  deriving DecidableEq

/-- The message that `session_enc_apply` sealed. -/
def Emission.sent {C : CryptoSuite} {keys : SessionKeys}
    (e : Emission C keys) : SentData where
  channel := e.view.channelId
  seq := e.view.seq
  plain := e.view.payloadBytes

/-- What a buffer that was decrypted in place holds. -/
def deliveredData (item : UInt8 × PacketBuf) : SentData where
  channel := item.1
  seq := packetSeq item.2
  plain := memSlice item.2.data 36 (wireLength item.2 - 28)

/-- A delivery on a data channel whose header has the encrypted flag. -/
def sealedDelivery (item : UInt8 × PacketBuf) : Bool :=
  decide (DataChannel item.1) &&
    item.2.data 5 &&& packetFlagEncrypted != 0

/-- An ideal cipher opens, under the session key, what was sealed under it and
gives back the plaintext. -/
structure IdealCipher {C : CryptoSuite} {keys : SessionKeys}
    (emitted : List (Emission C keys)) : Prop where
  only : OpensOnly C keys.sessionKey (emitted.map Emission.call)
  opens : ∀ e ∈ emitted,
    C.aeadOpen keys.sessionKey e.call.nonce e.call.aad e.call.cipher
      e.call.tag = some e.view.payloadBytes

/-- The deliveries of a sequence of calls on one session. -/
def deliveryRun (C : CryptoSuite) :
    Filters → Session → List InboundCall → List (UInt8 × PacketBuf)
  | _, _, [] => []
  | filters, sess, call :: calls =>
      let processed :=
        pipelineInboundProcess C call.env filters sess call.rxq call.packet
      processed.2.2.deliveries call.rxq ++
        deliveryRun C processed.2.1 processed.2.2.sess calls

/-! ## What opens was sealed -/

theorem aadHeader_slice
    {d d' : Mem} (equal : aadHeader d = aadHeader d') {off n : Nat}
    (behind : 5 < off) (inside : off + n ≤ 24) :
    memSlice d off n = memSlice d' off n := by
  apply memSlice_congr
  intro i lower upper
  have here := congrArg (fun list : Bytes => list.getD i 0) equal
  have within : i < 24 := by
    omega
  have apart : i ≠ 5 := by
    omega
  simp only [aadHeader, getD_memSlice within, Nat.zero_add,
    memWrite_byte_ne apart] at here
  exact here

section

variable {C : CryptoSuite} {keys : SessionKeys}
  {emitted : List (Emission C keys)}

/-- The header of an emission with the magic number of every packet. -/
theorem Emission.sealing_magic (e : Emission C keys) :
    leNat (memSlice (sealingData e.packet e.view) 0 4) = protoMagic := by
  unfold sealingData
  rw [memSlice_memWrite_disjoint (Or.inl (by decide)),
    ← magic_of_packetParse e.parsed]
  exact e.magic

theorem Emission.sealing_seq (e : Emission C keys) :
    UInt32.ofNat (leNat (memSlice (sealingData e.packet e.view) 15 4)) =
      e.view.seq := by
  unfold sealingData
  rw [memSlice_memWrite_disjoint (Or.inl (by decide)),
    (seq_of_packetParse e.parsed).1]
  rfl

theorem Emission.call_aad (e : Emission C keys) :
    e.call.aad =
      buildAad keys e.view.channelId (sealingData e.packet e.view) := by
  have made :
      e.call.aad =
        buildAad e.sess.keys e.view.channelId
          (sealingData e.packet e.view) :=
    rfl
  rw [made, e.underKeys]

/-- Decryption in place of a sealed packet. -/
theorem sessionEncCheck_decrypted
    {s : Session} {p : PacketBuf} {v v' : PacketView}
    (locked : s.state = .locked) (data : v.channelId ≠ chControl)
    (parsed : packetParse p = some v) (encrypted : v.encrypted = true)
    (checked : (sessionEncCheck C v s).2 = some v') :
    ∃ plain,
      C.aeadOpen s.keys.sessionKey v.nonce
          (buildAad s.keys v.channelId v.buf.data) v.payloadBytes v.tag =
        some plain ∧
      v'.channelId = v.channelId ∧
      v'.buf.data = memWrite p.data 36 plain ∧
      plain.length = wireLength p - 28 := by
  obtain ⟨plain, opened⟩ :=
    tagVerifies_of_sessionEncCheck locked data checked
  have written :
      v' =
        { v with
          encrypted := false
          buf := { v.buf with data := memWrite v.buf.data v.payload plain } } := by
    unfold sessionEncCheck at checked
    rw [if_neg (by simpa using locked), if_neg data, opened] at checked
    exact (Option.some.inj checked).symm
  unfold aeadDecrypt at opened
  split at opened
  · cases opened
  have size := C.length_aeadOpen _ _ _ _ _ _ opened
  obtain ⟨-, -, ⟨-, -, rfl⟩ | ⟨-, rfl⟩⟩ := packetParse_cases parsed
  · refine ⟨plain, opened, ?_, ?_, ?_⟩
    · rw [written]
    · rw [written]
      rfl
    · rw [size, PacketView.payloadBytes, length_memSlice]
      rfl
  · cases encrypted

/-- A packet that opens under the keys of the emissions is delivered with the
content of one of them. -/
theorem opened_data_was_sent
    {s : Session} (locked : s.state = .locked) (under : s.keys = keys)
    (keysApart : ChannelKeysApart keys) (ideal : IdealCipher emitted)
    {p : PacketBuf} {v v' : PacketView}
    (parsed : packetParse p = some v) (encrypted : v.encrypted = true)
    (magic : v.magic = protoMagic) (data : DataChannel v.channelId)
    (checked : (sessionEncCheck C v s).2 = some v') :
    ∃ e ∈ emitted, deliveredData (v'.channelId, v'.buf) = e.sent := by
  obtain ⟨plain, opened, channel, written, size⟩ :=
    sessionEncCheck_decrypted locked data.ne_control parsed encrypted checked
  rw [under] at opened
  obtain ⟨e, member, call⟩ :=
    List.mem_map.mp (ideal.only _ _ _ _ _ opened)
  -- The cipher has opened the very call that sealed `e`.
  have same : e.view.payloadBytes = plain := by
    have gives := ideal.opens e member
    rw [call] at gives
    exact Option.some.inj (gives.symm.trans opened)
  have aad :
      buildAad keys e.view.channelId (sealingData e.packet e.view) =
        buildAad keys v.channelId p.data := by
    rw [← e.call_aad, call, (parsedAs_of_packetParse parsed).buf]
  obtain ⟨sameChannel, header⟩ :=
    buildAad_inj keysApart e.channel data e.sealing_magic
      ((magic_of_packetParse parsed).symm.trans magic) aad
  have seq : packetSeq p = e.view.seq := by
    rw [← e.sealing_seq, packetSeq,
      aadHeader_slice header (by decide) (by decide)]
  refine ⟨e, member, ?_⟩
  have number := (packetSeq_of_sessionEncCheck C parsed checked).2.2
  have length : wireLength v'.buf = wireLength p := by
    unfold wireLength
    congr 1
    apply memSlice_congr
    intro i _ upper
    exact sessionEncCheck_header C parsed checked (by omega)
  have content : memSlice v'.buf.data 36 (wireLength p - 28) = plain := by
    rw [written, ← size]
    exact memSlice_memWrite_self p.data 36 plain
  simp only [deliveredData, Emission.sent, channel, ← sameChannel, number,
    seq, length, content, same]

end

/-! ## The pending packet -/

/-- A packet pending from a rebuild was written by `packet_build`. -/
def PendingMagic (s : Session) : Prop :=
  ∀ rec ∈ s.fecRecovered, leNat (memSlice rec.data 0 4) = protoMagic

theorem pendingMagic_none {s : Session} (none : s.fecRecovered = none) :
    PendingMagic s := by
  intro rec pending
  rw [none] at pending
  cases pending

theorem PendingMagic.congr
    {s s' : Session} (pending : PendingMagic s)
    (same : s'.fecRecovered = s.fecRecovered) : PendingMagic s' := by
  intro rec member
  rw [same] at member
  exact pending rec member

theorem PendingMagic.tryRebuild
    {s : Session} (pending : PendingMagic s) (buf : Option PacketBuf) :
    PendingMagic (tryRebuild s buf) := by
  unfold PqComm.tryRebuild
  rcases fecRxRebuild s.resilience with ⟨resilience, _ | ⟨payload, seq⟩⟩
  · exact pending
  · cases buf with
    | none =>
        exact pending
    | some buf =>
        intro rec member
        cases member
        exact buildPacket_magic _ _ _ _ _ _ _

theorem PendingMagic.resilienceCheck
    {s : Session} (pending : PendingMagic s) (v : PacketView)
    (dataBuf parityBuf : Option PacketBuf) :
    PendingMagic (resilienceCheck v s dataBuf parityBuf).1 := by
  have tracked (resilience : Resilience) :
      PendingMagic (trackData v { s with resilience := resilience }
        dataBuf) := by
    unfold trackData
    split
    · apply PendingMagic.tryRebuild
      exact pending
    · exact pending
  unfold PqComm.resilienceCheck
  split
  · exact pending
  · dsimp only
    split
    · unfold trackParity
      split
      · apply PendingMagic.tryRebuild
        exact tracked _
      · exact tracked _
    · exact tracked _

section

variable (C : CryptoSuite)

theorem fecRecovered_drainRecovered (s : Session) :
    (drainRecovered C s).1.fecRecovered = none := by
  unfold drainRecovered
  cases pending : s.fecRecovered with
  | none =>
      exact pending
  | some rec =>
      dsimp only
      unfold processFecRecovered
      cases packetParse rec with
      | none =>
          rfl
      | some view =>
          dsimp only
          split
          · rfl
          · obtain ⟨hs, kept⟩ :=
              sessionEncCheck_session C view { s with fecRecovered := none }
            cases (sessionEncCheck C view
                { s with fecRecovered := none }).2 with
            | none =>
                dsimp only
                rw [kept]
            | some view' =>
                dsimp only
                rw [kept]
                unfold seqCheck
                split
                · rfl
                · split <;> rfl

theorem fecRecovered_cipherStage (s : Session) (view : PacketView) :
    (cipherStage C s view).1.fecRecovered = s.fecRecovered := by
  unfold cipherStage
  split
  · obtain ⟨hs, kept⟩ := sessionEncCheck_session C view s
    rw [kept]
  · rfl

theorem fecRecovered_seqCheck (s : Session) (view : PacketView) :
    (seqCheck s view).1.fecRecovered = s.fecRecovered := by
  unfold seqCheck
  split
  · rfl
  · split <;> rfl

/-- What stays over a call of the pipeline. -/
structure ChannelKept (s s' : Session) : Prop where
  core : SameCore s s'
  multipath :
    s'.resilience.multipathEnabled = s.resilience.multipathEnabled
  pending : PendingMagic s → PendingMagic s'

theorem channelKept_pipelineInboundPostCrypto
    (s : Session) (rxq : RxQueues) (view : PacketView) :
    ChannelKept s (pipelineInboundPostCrypto C s rxq view).sess := by
  have drained := drainRecovered_core C s
  have ciphered :
      SameCore (drainRecovered C s).1
        (cipherStage C (drainRecovered C s).1 view).1 := by
    unfold cipherStage
    split
    · exact sessionEncCheck_core C view _
    · exact SameCore.refl _
  have routing := (pipelineInboundPostCrypto_admits C s rxq view).1
  rcases (pipelineInboundPostCrypto_cases C s rxq view).2 with
    ⟨-, -, kept⟩ | ⟨view', -, kept, -⟩
  · refine ⟨?_, routing.multipath, fun _ => pendingMagic_none ?_⟩
    · rw [kept]
      exact drained.trans ciphered
    · rw [kept, fecRecovered_cipherStage, fecRecovered_drainRecovered]
  · refine ⟨?_, routing.multipath, fun _ => pendingMagic_none ?_⟩
    · rw [kept]
      exact (drained.trans ciphered).trans (seqCheck_core _ view')
    · rw [kept, fecRecovered_seqCheck, fecRecovered_cipherStage,
        fecRecovered_drainRecovered]

/-- Dropped in front of the cipher or not, the session has a pending packet of
its own making only. -/
theorem pendingMagic_pipelineInboundPreCrypto
    {s s' : Session} (pending : PendingMagic s) (env : InboundEnv)
    (filters : Filters) (p : PacketBuf)
    (kept :
      (pipelineInboundPreCrypto env filters (some s) p).sess = some s') :
    PendingMagic s' := by
  unfold pipelineInboundPreCrypto at kept
  cases parsed : packetParse p with
  | none =>
      simp only [parsed] at kept
      cases kept
      exact pending
  | some raw =>
      simp only [parsed] at kept
      split at kept
      · cases kept
        exact pending
      · split at kept
        · cases kept
          exact pending
        · split at kept
          · cases kept
            exact pending
          · split at kept
            · cases kept
              exact pending
            · split at kept
              · cases kept
                exact pending
              · split at kept
                · cases kept
                  exact pending.resilienceCheck _ _ _
                · cases kept
                  exact pending.resilienceCheck _ _ _

theorem channelKept_pipelineInboundProcess
    (env : InboundEnv) (filters : Filters) (s : Session) (rxq : RxQueues)
    (p : PacketBuf) :
    ChannelKept s
      (pipelineInboundProcess C env filters s rxq p).2.2.sess := by
  rcases pipelineInboundPreCrypto_cases env filters (some s) p with
    ⟨-, stopped, moved⟩ | ⟨_, view, sess', same, -, -, kept, gates⟩
  · unfold pipelineInboundProcess
    simp only [stopped]
    cases kept : (pipelineInboundPreCrypto env filters (some s) p).sess with
    | none =>
        rw [kept] at moved
        cases moved
    | some s' =>
        rw [kept] at moved
        cases moved with
        | some moved =>
            exact
              { core := moved.untouched.toSameCore
                multipath := moved.routing.multipath
                pending := fun pending =>
                  pendingMagic_pipelineInboundPreCrypto pending env filters
                    p kept }
  · cases same
    rw [gates.pipelineInboundProcess C rxq]
    have after := channelKept_pipelineInboundPostCrypto C sess' rxq view
    exact
      { core :=
          gates.reassembles.untouched.toSameCore.trans after.core
        multipath :=
          after.multipath.trans gates.reassembles.routing.multipath
        pending := fun pending =>
          after.pending
            (pendingMagic_pipelineInboundPreCrypto pending env filters p
              kept) }

/-! ## One call -/

variable {C} {keys : SessionKeys} {emitted : List (Emission C keys)}

/-- A rebuilt packet is delivered on a data channel only with the content of
an emission. -/
theorem recovered_was_sent
    {s : Session} (locked : s.state = .locked) (under : s.keys = keys)
    (keysApart : ChannelKeysApart keys) (ideal : IdealCipher emitted)
    (pending : PendingMagic s) {buf : PacketBuf}
    (recovered : (drainRecovered C s).2 = some buf)
    (data : DataChannel (buf.data 14)) :
    ∃ e ∈ emitted, deliveredData (buf.data 14, buf) = e.sent := by
  unfold drainRecovered at recovered
  cases waiting : s.fecRecovered with
  | none =>
      simp only [waiting] at recovered
      cases recovered
  | some rec =>
      have magic := pending rec waiting
      simp only [waiting, processFecRecovered] at recovered
      cases parsed : packetParse rec with
      | none =>
          simp only [parsed] at recovered
          cases recovered
      | some view =>
          simp only [parsed] at recovered
          split at recovered
          · cases recovered
          rename_i flagged
          have encrypted : view.encrypted = true := by
            simpa using flagged
          cases checked :
              (sessionEncCheck C view
                { s with fecRecovered := none }).2 with
          | none =>
              simp only [checked] at recovered
              cases recovered
          | some view' =>
              simp only [checked] at recovered
              split at recovered
              · cases recovered
                have header :=
                  sessionEncCheck_header C parsed checked (k := 14)
                    (by decide)
                have channel : view.channelId = view'.buf.data 14 := by
                  rw [header]
                  exact (parsedAs_of_packetParse parsed).channelId
                have sameChannel : view'.channelId = view'.buf.data 14 := by
                  rw [(sessionEncCheck_view C checked).1]
                  exact channel
                obtain ⟨e, member, content⟩ :=
                  opened_data_was_sent (s := { s with fecRecovered := none })
                    locked under keysApart ideal parsed encrypted
                    ((magic_of_packetParse parsed).trans magic)
                    (by rw [channel]; exact data) checked
                rw [sameChannel] at content
                exact ⟨e, member, content⟩
              · cases recovered

/-- Every sealed delivery of one call has the content of an emission. -/
theorem deliveries_were_sent
    {s : Session} (locked : s.state = .locked)
    (single : s.resilience.multipathEnabled = false)
    (under : s.keys = keys) (keysApart : ChannelKeysApart keys)
    (ideal : IdealCipher emitted) (pending : PendingMagic s)
    (filters : Filters) (call : InboundCall) {item : UInt8 × PacketBuf}
    (delivered :
      item ∈
        (pipelineInboundProcess C call.env filters s call.rxq
          call.packet).2.2.deliveries call.rxq)
    (sealed' : sealedDelivery item = true) :
    ∃ e ∈ emitted, deliveredData item = e.sent := by
  obtain ⟨data, flagged⟩ :
      DataChannel item.1 ∧ item.2.data 5 &&& packetFlagEncrypted ≠ 0 := by
    simpa [sealedDelivery] using sealed'
  rcases pipelineInboundPreCrypto_cases call.env filters (some s)
      call.packet with
    ⟨-, stopped, -⟩ | ⟨_, view, sess', same, -, -, kept, gates⟩
  · obtain ⟨-, -, recovered, queues⟩ :=
      pipelineInboundProcess_stopped C stopped call.rxq
    simp [PostCrypto.deliveries, recovered, queues,
      RxQueues.news_refl] at delivered
  · cases same
    have untouched := gates.reassembles.untouched
    have locked' : sess'.state = .locked := untouched.state.trans locked
    have under' : sess'.keys = keys := untouched.keys.trans under
    have pending' : PendingMagic sess' :=
      pendingMagic_pipelineInboundPreCrypto pending call.env filters
        call.packet kept
    rw [gates.pipelineInboundProcess C call.rxq] at delivered
    obtain recovered | arrived := List.mem_append.mp delivered
    · obtain ⟨buf, member, rfl⟩ := List.mem_map.mp recovered
      rw [(pipelineInboundPostCrypto_cases C sess' call.rxq view).1] at member
      exact recovered_was_sent locked' under' keysApart ideal pending'
        (by simpa using member) data
    · rw [pipelineInboundPostCrypto_news] at arrived
      obtain ⟨view', passed, arrived⟩ := List.mem_flatMap.mp arrived
      have checked :
          (cipherStage C (drainRecovered C sess').1 view).2 = some view' := by
        simpa using passed
      split at arrived
      · cases List.mem_singleton.mp arrived
        have parsed := gates.parse single
        have core := drainRecovered_core C sess'
        -- The flag in the header is that of the packet received.
        have encrypted : view.encrypted = true := by
          by_contra plain
          unfold cipherStage at checked
          rw [if_neg plain] at checked
          cases checked
          rw [(parsedAs_of_packetParse parsed).buf] at flagged
          exact plain ((parsedAs_of_packetParse parsed).encrypted.mpr flagged)
        unfold cipherStage at checked
        rw [if_pos encrypted] at checked
        have channel : view'.channelId = view.channelId := by
          rw [(sessionEncCheck_view C checked).1]
        obtain ⟨raw, parsed', -, -, static, -⟩ := gates.parsed
        have magic : view.magic = protoMagic := by
          rw [parsed] at parsed'
          cases parsed'
          exact ((staticCheck_iff view).mp static).1
        exact opened_data_was_sent (core.state.trans locked')
          (core.keys.trans under') keysApart ideal parsed encrypted magic
          (by rw [← channel]; exact data) checked
      · cases arrived

end

/-! ## Runs -/

/-- The deliveries of a run have the numbers of its outcomes. -/
theorem entriesOf_deliveryRun
    (C : CryptoSuite) (filters : Filters) {s : Session}
    (single : s.resilience.multipathEnabled = false)
    (calls : List InboundCall) :
    entriesOf (deliveryRun C filters s calls) =
      (inboundRun C filters s calls).flatMap (InboundOutcome.entries s) := by
  induction calls generalizing filters s with
  | nil =>
      rfl
  | cons call calls inductionHypothesis =>
      obtain ⟨routing, -⟩ := pipelineInboundProcess_admits C filters s call
      have rest :=
        inductionHypothesis
          (pipelineInboundProcess C call.env filters s call.rxq
            call.packet).2.1
          (routing.multipath.trans single)
      rw [funext routing.entries] at rest
      have here :=
        entriesOf_deliveries C single call.env filters call.rxq call.packet
      unfold entriesOf at here rest ⊢
      simp only [deliveryRun, inboundRun, List.map_append,
        List.flatMap_cons]
      rw [here, rest]

theorem deliveryRun_were_sent
    {C : CryptoSuite} {keys : SessionKeys}
    {emitted : List (Emission C keys)} (keysApart : ChannelKeysApart keys)
    (ideal : IdealCipher emitted) (filters : Filters) {s : Session}
    (locked : s.state = .locked)
    (single : s.resilience.multipathEnabled = false)
    (under : s.keys = keys) (pending : PendingMagic s)
    (calls : List InboundCall) :
    ∀ item ∈ deliveryRun C filters s calls, sealedDelivery item = true →
      ∃ e ∈ emitted, deliveredData item = e.sent := by
  induction calls generalizing filters s with
  | nil =>
      intro item delivered
      cases delivered
  | cons call calls inductionHypothesis =>
      have kept :=
        channelKept_pipelineInboundProcess C call.env filters s call.rxq
          call.packet
      intro item delivered sealed'
      obtain here | later := List.mem_append.mp delivered
      · exact deliveries_were_sent locked single under keysApart ideal
          pending filters call here sealed'
      · exact inductionHypothesis _ (kept.core.state.trans locked)
          (kept.multipath.trans single) (kept.core.keys.trans under)
          (kept.pending pending) item later sealed'

/-- Items that all have a counterpart have a list of counterparts. -/
theorem exists_counterparts
    {α β γ : Type} {f : α → γ} {g : β → γ} {pool : List β}
    {items : List α}
    (each : ∀ item ∈ items, ∃ other ∈ pool, f item = g other) :
    ∃ chosen : List β,
      (∀ other ∈ chosen, other ∈ pool) ∧ items.map f = chosen.map g := by
  induction items with
  | nil =>
      exact ⟨[], by simp, rfl⟩
  | cons item items inductionHypothesis =>
      obtain ⟨other, member, same⟩ := each item List.mem_cons_self
      obtain ⟨chosen, members, sames⟩ :=
        inductionHypothesis fun item later =>
          each item (List.mem_cons_of_mem _ later)
      refine ⟨other :: chosen, ?_, ?_⟩
      · simpa using ⟨member, members⟩
      · rw [List.map_cons, List.map_cons, same, sames]

/-- Over any run on any packets, the sealed data that a locked session with
one path delivers are messages that were sealed under its keys, each of them
at most once. -/
theorem sealed_channel
    {C : CryptoSuite} {s : Session} (locked : s.state = .locked)
    (single : s.resilience.multipathEnabled = false)
    (unpending : s.fecRecovered = none)
    (keysApart : ChannelKeysApart s.keys)
    {emitted : List (Emission C s.keys)} (ideal : IdealCipher emitted)
    (filters : Filters) (calls : List InboundCall) :
    ∃ accepted : List (Emission C s.keys),
      List.Subperm accepted emitted ∧
        ((deliveryRun C filters s calls).filter sealedDelivery).map
            deliveredData =
          accepted.map Emission.sent := by
  have each :
      ∀ item ∈ (deliveryRun C filters s calls).filter sealedDelivery,
        ∃ e ∈ emitted, deliveredData item = e.sent := by
    intro item member
    obtain ⟨delivered, sealed'⟩ := List.mem_filter.mp member
    exact deliveryRun_were_sent keysApart ideal filters locked single rfl
      (pendingMagic_none unpending) calls item delivered sealed'
  obtain ⟨accepted, members, same⟩ := exists_counterparts each
  refine ⟨accepted, ?_, same⟩
  apply List.subperm_of_subset _ members
  -- One window takes each number once, so no emission is accepted twice.
  have numbers : (entriesOf (deliveryRun C filters s calls)).Nodup := by
    rw [entriesOf_deliveryRun C filters single calls]
    exact nodup_entries_inboundRun C filters s calls
  have seqs :
      (((deliveryRun C filters s calls).filter sealedDelivery).map
        fun item => (deliveredData item).seq).Nodup := by
    refine List.Nodup.of_map (fun seq : UInt32 => ((none : Option Nat), seq.toNat)) ?_
    rw [List.map_map]
    exact numbers.sublist (List.filter_sublist.map _)
  have contents :
      (accepted.map fun e : Emission C s.keys => e.sent.seq).Nodup := by
    have mapped := congrArg (List.map SentData.seq) same
    rw [List.map_map, List.map_map] at mapped
    exact mapped ▸ seqs
  exact contents.of_map

/-! ## One sealed packet, received twice -/

theorem idealCipher_sample : IdealCipher [sampleEmission] where
  only := by
    intro nonce aad cipher tag plain opened
    have known :
        (⟨nonce, aad, cipher, tag⟩ : AeadCall) = sampleEmission.call := by
      by_contra other
      have unknown :
          ¬ (⟨nonce, aad, cipher, tag⟩ : AeadCall) =
            sealingCall sampleSuite sampleChatPacket sampleChatView
              sampleKeyed :=
        other
      simp only [tableSuite, if_neg unknown] at opened
      cases opened
    rw [known]
    exact List.mem_singleton.mpr rfl
  opens := by
    intro e member
    cases List.mem_singleton.mp member
    decide +kernel

def sampleKeyedPeer : Session :=
  { sampleKeyed with addr := samplePeer 7000, addrLen := sockaddrIn6Size }

def sampleKeyedCall : InboundCall :=
  sampleCall (sampleEmission.out.setAddr (samplePeer 7000) sockaddrIn6Size)

theorem sealed_channel_sample :
    ((deliveryRun tableSuite {} sampleKeyedPeer
        [sampleKeyedCall, sampleKeyedCall]).filter sealedDelivery).map
          deliveredData =
        [{ channel := chChat, seq := 3, plain := [104, 105] }] ∧
      ∃ accepted : List (Emission tableSuite sampleKeyedPeer.keys),
        List.Subperm accepted [sampleEmission] ∧
          ((deliveryRun tableSuite {} sampleKeyedPeer
            [sampleKeyedCall, sampleKeyedCall]).filter sealedDelivery).map
              deliveredData =
            accepted.map Emission.sent :=
  ⟨by decide +kernel,
    sealed_channel (C := tableSuite) (s := sampleKeyedPeer) rfl rfl rfl
      sampleKeyed_apart idealCipher_sample {}
      [sampleKeyedCall, sampleKeyedCall]⟩

end PqComm
