import PqComm.Pipeline.Ownership

/-!
# Buffers and their contents

The pipeline on pointers does to the contents of its buffers what the
pipeline of `PqComm.Pipeline.Inbound` does, as long as every buffer has one
owner.
-/

namespace PqComm

open Lib

def Session.setRecovered (s : Session) (recovered : Option PacketBuf) :
    Session :=
  { s with fecRecovered := recovered }

namespace RxSide

/-- The session with the packet that `sess->fec_recovered` points to. -/
def contents (w : RxSide) : Session :=
  w.sess.setRecovered (w.ledger.fecRecovered.map w.mem)

/-- The buffer that the next `pool_get` gives. -/
def nextBuf (w : RxSide) : Option PacketBuf :=
  w.ledger.freeStack.head?.map w.mem

variable {w : RxSide} {h : Nat} {v : PacketView}

theorem poolReturn_contents (w : RxSide) (h : Nat) :
    (w.poolReturn h).contents = w.contents :=
  rfl

/-! ## `resilience_check` -/

theorem tryRebuild_contents (w : RxSide) :
    w.tryRebuild.contents = PqComm.tryRebuild w.contents w.nextBuf := by
  unfold tryRebuild PqComm.tryRebuild
  have same : w.contents.resilience = w.sess.resilience := rfl
  rw [same]
  cases fecRxRebuild w.sess.resilience with
  | mk resilience packet =>
      cases packet with
      | none =>
          rfl
      | some packet =>
          obtain ⟨payload, seq⟩ := packet
          cases stack : w.ledger.freeStack with
          | nil =>
              simp only [nextBuf, Ledger.poolGet, stack,
                setResilience_ledger, List.head?_nil, Option.map_none]
              rfl
          | cons rec rest =>
              simp [nextBuf, Ledger.poolGet, stack, contents, write,
                setLedger, setResilience, setSess]
              rfl

theorem trackData_contents (same : v.buf = w.mem h) :
    (w.trackData h v).contents =
      PqComm.trackData v w.contents w.nextBuf := by
  unfold trackData PqComm.trackData tracks
  rw [same]
  split
  · rename_i tracked
    rw [tryRebuild_contents]
    exact (if_pos tracked).symm
  · rename_i other
    exact (if_neg other).symm

theorem trackParity_contents (same : v.buf = w.mem h) :
    (w.trackParity h).contents =
      PqComm.trackParity v w.contents w.nextBuf := by
  unfold trackParity PqComm.trackParity
  rw [same]
  split
  · rw [tryRebuild_contents]
    rfl
  · rfl

/-- A rebuild writes only to a buffer that was free. -/
theorem tryRebuild_mem (w : RxSide) (outside : h ∉ w.ledger.freeStack) :
    w.tryRebuild.mem h = w.mem h := by
  unfold tryRebuild
  cases fecRxRebuild w.sess.resilience with
  | mk resilience packet =>
      cases packet with
      | none =>
          rfl
      | some packet =>
          cases stack : w.ledger.freeStack with
          | nil =>
              simp only [Ledger.poolGet, stack, setResilience_ledger]
              rfl
          | cons rec rest =>
              have different : h ≠ rec := by
                rintro rfl
                rw [stack] at outside
                exact outside List.mem_cons_self
              simp only [Ledger.poolGet, stack, setResilience_ledger]
              exact Function.update_of_ne different _ _

theorem trackData_mem (w : RxSide) (outside : h ∉ w.ledger.freeStack) :
    (w.trackData h v).mem h = w.mem h := by
  unfold trackData
  split
  · exact tryRebuild_mem _ outside
  · rfl

theorem resilienceCheck_contents
    (same : v.buf = w.mem h) (outside : h ∉ w.ledger.freeStack) :
    ∃ dataBuf parityBuf,
      (w.resilienceCheck h v).1.contents =
          (PqComm.resilienceCheck v w.contents dataBuf parityBuf).1 ∧
        (w.resilienceCheck h v).2 =
          (PqComm.resilienceCheck v w.contents dataBuf parityBuf).2 := by
  have counted :=
    trackData_contents (v := v) (h := h)
      (w := w.setResilience (resilienceRecordRx w.sess.resilience 0 0)) same
  have kept :=
    trackData_mem (v := v) (h := h)
      (w.setResilience (resilienceRecordRx w.sess.resilience 0 0)) outside
  have stored := trackParity_contents (same.trans kept.symm)
  refine ⟨(w.setResilience
      (resilienceRecordRx w.sess.resilience 0 0)).nextBuf,
    ((w.setResilience (resilienceRecordRx w.sess.resilience 0 0)).trackData h
      v).nextBuf, ?_⟩
  generalize session : w.contents = s
  have state : w.sess.state = s.state := by
    rw [← session]
    rfl
  have folded :
      (w.setResilience
          (resilienceRecordRx w.sess.resilience 0 0)).contents =
        { s with resilience := resilienceRecordRx s.resilience 0 0 } := by
    rw [← session]
    rfl
  rw [folded] at counted
  dsimp only [resilienceCheck, PqComm.resilienceCheck]
  rw [state, ← counted]
  by_cases locked : s.state = .locked
  · rw [if_neg (not_not.mpr locked), if_neg (not_not.mpr locked)]
    by_cases parity : v.flags &&& packetFlagFecParity ≠ 0
    · rw [if_pos parity, if_pos parity, poolReturn_contents]
      exact ⟨stored, rfl⟩
    · rw [if_neg parity, if_neg parity]
      exact ⟨rfl, rfl⟩
  · rw [if_pos locked, if_pos locked]
    exact ⟨session, rfl⟩

theorem tryRebuild_rxq (w : RxSide) :
    w.tryRebuild.ledger.rxq = w.ledger.rxq := by
  rcases w.tryRebuild_cases with ⟨_, same⟩ | ⟨rec, ledger, _, taken, after⟩
  · rw [same]
  · have same := Ledger.poolGet_rxq taken
    rw [after]
    exact same

theorem trackData_rxq (w : RxSide) :
    (w.trackData h v).ledger.rxq = w.ledger.rxq := by
  unfold trackData
  split
  · exact tryRebuild_rxq _
  · rfl

theorem trackParity_rxq (w : RxSide) :
    (w.trackParity h).ledger.rxq = w.ledger.rxq := by
  unfold trackParity
  split
  · exact tryRebuild_rxq _
  · rfl

theorem resilienceCheck_rxq (w : RxSide) :
    (w.resilienceCheck h v).1.ledger.rxq = w.ledger.rxq := by
  unfold resilienceCheck
  split
  · rfl
  · dsimp only
    split
    · rw [poolReturn_ledger, Ledger.poolReturn_rxq, trackParity_rxq,
        trackData_rxq, setResilience_ledger]
    · rw [trackData_rxq, setResilience_ledger]

/-- The buffer of a packet that goes on stays in hand. -/
theorem resilienceCheck_hand
    {all hand : Multiset Nat} (accounts : w.ledger.Accounts all hand)
    (unique : all.Nodup) (passed : (w.resilienceCheck h v).2 = true) :
    ∃ fewer, fewer ≤ all ∧
      (w.resilienceCheck h v).1.ledger.Accounts fewer hand := by
  unfold resilienceCheck at passed ⊢
  by_cases locked : w.sess.state = .locked
  · rw [if_neg (not_not.mpr locked)] at passed ⊢
    by_cases parity : v.flags &&& packetFlagFecParity ≠ 0
    · rw [if_pos parity] at passed
      cases passed
    · rw [if_neg parity]
      exact trackData_hand accounts unique
  · rw [if_pos locked]
    exact ⟨all, le_rfl, accounts⟩

/-! ## The stages behind it -/

section

variable (C : CryptoSuite)

omit C in
/-- The contents of a side with no recovered packet. -/
theorem contents_of_empty (empty : w.ledger.fecRecovered = none) :
    w.contents = w.sess.setRecovered none := by
  rw [contents, empty]
  rfl

/-- The cipher does not look at the recovered packet. -/
theorem sessionEncCheck_setRecovered
    (sess : Session) (recovered : Option PacketBuf) :
    PqComm.sessionEncCheck C v (sess.setRecovered recovered) =
      ((PqComm.sessionEncCheck C v sess).1.setRecovered recovered,
        (PqComm.sessionEncCheck C v sess).2) := by
  unfold PqComm.sessionEncCheck
  have state : (sess.setRecovered recovered).state = sess.state := rfl
  have keys : (sess.setRecovered recovered).keys = sess.keys := rfl
  rw [state, keys]
  split_ifs
  · rfl
  · rfl
  · cases aeadDecrypt C sess.keys.sessionKey v.nonce
      (buildAad sess.keys v.channelId v.buf.data) v.payloadBytes
      v.tag <;> rfl

omit C in
theorem seqCheck_setRecovered
    (sess : Session) (recovered : Option PacketBuf) :
    seqCheck (sess.setRecovered recovered) v =
      ((seqCheck sess v).1.setRecovered recovered,
        (seqCheck sess v).2) := by
  unfold seqCheck
  have resilience :
      (sess.setRecovered recovered).resilience = sess.resilience := rfl
  rw [resilience]
  split_ifs <;> rfl

theorem sessionEncCheck_contents (empty : w.ledger.fecRecovered = none) :
    (w.sessionEncCheck C h v).1.contents =
        (PqComm.sessionEncCheck C v w.contents).1 ∧
      (w.sessionEncCheck C h v).2 =
        (PqComm.sessionEncCheck C v w.contents).2 := by
  have after : (w.sessionEncCheck C h v).1.ledger.fecRecovered = none := by
    rw [sessionEncCheck_ledger]
    exact empty
  rw [contents_of_empty after, contents_of_empty empty,
    sessionEncCheck_setRecovered]
  unfold sessionEncCheck
  dsimp only
  split
  · rename_i refused
    exact ⟨rfl, refused.symm⟩
  · rename_i opened
    exact ⟨rfl, opened.symm⟩

theorem cipherStage_contents (empty : w.ledger.fecRecovered = none) :
    (w.cipherStage C h v).1.contents =
        (PqComm.cipherStage C w.contents v).1 ∧
      (w.cipherStage C h v).2 =
        (PqComm.cipherStage C w.contents v).2 := by
  unfold cipherStage PqComm.cipherStage
  split
  · exact sessionEncCheck_contents C empty
  · exact ⟨rfl, rfl⟩

omit C in
theorem seqCheck_contents (empty : w.ledger.fecRecovered = none) :
    (w.setSess (seqCheck w.sess v).1).contents =
        (seqCheck w.contents v).1 ∧
      (seqCheck w.sess v).2 = (seqCheck w.contents v).2 := by
  rw [contents_of_empty empty, seqCheck_setRecovered]
  refine ⟨?_, rfl⟩
  exact contents_of_empty (w := w.setSess (seqCheck w.sess v).1) empty

/-- The recovered packet is decrypted in its buffer. -/
theorem sessionEncCheck_mem {view' : PacketView}
    (opened : (w.sessionEncCheck C h v).2 = some view') :
    (w.sessionEncCheck C h v).1.mem h = view'.buf := by
  unfold sessionEncCheck at opened ⊢
  dsimp only at opened ⊢
  split
  · rename_i refused
    rw [refused] at opened
    cases opened
  · rename_i view'' found
    rw [found] at opened
    cases opened
    exact Function.update_self _ _ _

theorem processFecRecovered_contents
    (rec : Nat) (empty : w.ledger.fecRecovered = none) :
    (w.processFecRecovered C rec).1.contents =
        (PqComm.processFecRecovered C w.contents (w.mem rec)).1 ∧
      (if (w.processFecRecovered C rec).2 then
          some ((w.processFecRecovered C rec).1.mem rec)
        else
          none) =
        (PqComm.processFecRecovered C w.contents (w.mem rec)).2 := by
  unfold processFecRecovered PqComm.processFecRecovered
  cases packetParse (w.mem rec) with
  | none =>
      exact ⟨rfl, rfl⟩
  | some v =>
      dsimp only
      by_cases plain : (!v.encrypted) = true
      · simp [plain]
      · simp only [plain, Bool.false_eq_true, if_false]
        obtain ⟨session, verdict⟩ :=
          sessionEncCheck_contents (h := rec) (v := v) C empty
        have none' :
            (w.sessionEncCheck C rec v).1.ledger.fecRecovered = none := by
          rw [sessionEncCheck_ledger]
          exact empty
        have buffer :=
          @sessionEncCheck_mem w rec v C
        rw [← session, ← verdict]
        generalize w.sessionEncCheck C rec v = checked at none' buffer ⊢
        obtain ⟨side, opened⟩ := checked
        cases opened with
        | none =>
            exact ⟨rfl, rfl⟩
        | some view' =>
            obtain ⟨window, fresh⟩ :=
              seqCheck_contents (v := view') none'
            refine ⟨window, ?_⟩
            have decrypted := buffer rfl
            dsimp only at decrypted fresh ⊢
            rw [← decrypted, ← fresh]
            rfl

theorem drainRecovered_contents :
    (w.drainRecovered C).1.contents =
        (PqComm.drainRecovered C w.contents).1 ∧
      (w.drainRecovered C).2.map (w.drainRecovered C).1.mem =
        (PqComm.drainRecovered C w.contents).2 ∧
      (w.drainRecovered C).1.ledger.fecRecovered = none := by
  unfold drainRecovered PqComm.drainRecovered
  cases pending : w.ledger.fecRecovered with
  | none =>
      have empty : w.contents.fecRecovered = none := by
        simp [contents, Session.setRecovered, pending]
      simp only [empty]
      exact ⟨trivial, rfl, pending⟩
  | some rec =>
      have holds : w.contents.fecRecovered = some (w.mem rec) := by
        simp [contents, Session.setRecovered, pending]
      simp only [holds]
      obtain ⟨session, verdict⟩ :=
        processFecRecovered_contents C rec
          (w := w.setLedger { w.ledger with fecRecovered := none }) rfl
      have kept :=
        processFecRecovered_ledger (h := rec) C
          (w := w.setLedger { w.ledger with fecRecovered := none })
      have taken :
          { w.contents with fecRecovered := none } =
            (w.setLedger { w.ledger with fecRecovered := none }).contents :=
        rfl
      have same :
          (w.setLedger { w.ledger with fecRecovered := none }).mem rec =
            w.mem rec :=
        rfl
      rw [taken, ← same, ← session, ← verdict]
      generalize (w.setLedger
        { w.ledger with fecRecovered := none }).processFecRecovered C rec =
          processed at kept ⊢
      obtain ⟨side, done⟩ := processed
      have empty : side.ledger.fecRecovered = none := by
        rw [kept]
        rfl
      cases done with
      | true =>
          exact ⟨rfl, rfl, empty⟩
      | false =>
          exact ⟨rfl, rfl, empty⟩

end

/-- The receive queues hold as many packets as the queues of pointers. -/
def SameQueues (rxq : RxQueues) (l : Ledger) : Prop :=
  ∀ channel ∈ Ledger.rxChannels,
    (rxq.ring channel).length = (l.rxq channel).length

theorem mem_rxChannels_iff (channel : UInt8) :
    channel ∈ Ledger.rxChannels ↔
      ¬ (channel < chControl ∨ channel > chVideo) := by
  have all : ∀ n : Fin 256,
      UInt8.ofFin n ∈ Ledger.rxChannels ↔
        ¬ (UInt8.ofFin n < chControl ∨ UInt8.ofFin n > chVideo) := by
    decide +kernel
  exact all channel.toFin

theorem SameQueues.push
    {rxq : RxQueues} {l : Ledger} (same : SameQueues rxq l) (p : PacketBuf)
    (channel : UInt8) :
    (l.rxDemuxPush h channel).1 = (PqComm.rxDemuxPush rxq p channel).1 := by
  unfold Ledger.rxDemuxPush PqComm.rxDemuxPush
  by_cases known : channel ∈ Ledger.rxChannels
  · rw [if_pos known, if_neg ((mem_rxChannels_iff channel).mp known)]
    have full : ringFull (rxq.ring channel) = ringFull (l.rxq channel) := by
      unfold ringFull
      rw [same channel known]
    cases room : ringFull (l.rxq channel) <;> simp [ringPush, full, room]
  · rw [if_neg known,
      if_pos (not_not.mp (mt (mem_rxChannels_iff channel).mpr known))]

section

variable (C : CryptoSuite)

theorem cipherStage_mem {other : Nat} (different : other ≠ h) :
    (w.cipherStage C h v).1.mem other = w.mem other := by
  unfold cipherStage sessionEncCheck
  split
  · dsimp only
    split
    · rfl
    · exact Function.update_of_ne different _ _
  · rfl

theorem drainRecovered_rxq (w : RxSide) :
    (w.drainRecovered C).1.ledger.rxq = w.ledger.rxq := by
  unfold drainRecovered
  split
  · rfl
  · dsimp only
    split
    · rw [processFecRecovered_ledger]
      rfl
    · rw [poolReturn_ledger, processFecRecovered_ledger]
      rfl

theorem pipelineInboundPostCrypto_contents
    {rxq : RxQueues} (queues : SameQueues rxq w.ledger)
    (apart : ∀ rec ∈ (w.drainRecovered C).2, rec ≠ h) :
    (w.pipelineInboundPostCrypto C h v).1 =
        (PqComm.pipelineInboundPostCrypto C w.contents rxq v).result ∧
      (w.pipelineInboundPostCrypto C h v).2.1.contents =
        (PqComm.pipelineInboundPostCrypto C w.contents rxq v).sess ∧
      (w.pipelineInboundPostCrypto C h v).2.2.map
          (w.pipelineInboundPostCrypto C h v).2.1.mem =
        (PqComm.pipelineInboundPostCrypto C w.contents rxq
          v).recovered := by
  obtain ⟨session, recovered, empty⟩ := drainRecovered_contents (w := w) C
  obtain ⟨cipher, verdict⟩ :=
    cipherStage_contents (h := h) (v := v) C empty
  have kept := cipherStage_ledger (w := (w.drainRecovered C).1) (h := h)
    (v := v) C
  have others : ∀ rec ∈ (w.drainRecovered C).2,
      ((w.drainRecovered C).1.cipherStage C h v).1.mem rec =
        (w.drainRecovered C).1.mem rec :=
    fun rec member => cipherStage_mem C (apart rec member)
  have handed :
      (w.drainRecovered C).2.map
          ((w.drainRecovered C).1.cipherStage C h v).1.mem =
        (PqComm.drainRecovered C w.contents).2 := by
    rw [← recovered]
    exact Option.map_congr others
  have queues' : SameQueues rxq
      ((w.drainRecovered C).1.cipherStage C h v).1.ledger := by
    rw [kept]
    intro channel known
    rw [drainRecovered_rxq]
    exact queues channel known
  rw [← kept] at empty
  obtain ⟨left, outcome⟩ :=
    PqComm.pipelineInboundPostCrypto_cases C w.contents rxq v
  rw [← session, ← cipher, ← verdict] at outcome
  rw [left]
  dsimp only [pipelineInboundPostCrypto]
  generalize (w.drainRecovered C).1.cipherStage C h v = checked at *
  obtain ⟨side, opened⟩ := checked
  rcases outcome with ⟨refused, result, sess⟩ | ⟨view', found, sess, result⟩
  · cases refused
    exact ⟨result.symm, sess.symm, handed⟩
  · cases found
    obtain ⟨window, fresh⟩ := seqCheck_contents (v := view') empty
    rw [sess, result, ← fresh, ← queues'.push (h := h) view'.buf]
    dsimp only
    cases (seqCheck side.sess view').2 with
    | false =>
        exact ⟨rfl, window, handed⟩
    | true =>
        rcases side.ledger.rxDemuxPush_cases h view'.channelId with
          ⟨full, same⟩ | ⟨taken, _, after⟩
        · simp only [setSess_ledger, full, same]
          exact ⟨rfl, window, handed⟩
        · simp only [setSess_ledger, taken, after]
          exact ⟨rfl, window, handed⟩

end

end RxSide

/-! ## The pipeline -/

namespace RxWorld

variable {w : RxWorld} {now : UInt64} {h : Nat}

/-- `pipeline_inbound_pre_crypto` on the contents, with the buffers that the
pool gives. -/
theorem pipelineInboundPreCrypto_contents
    (now : UInt64) (outside : h ∉ w.side.ledger.freeStack) :
    ∃ env : InboundEnv,
      env.now = now ∧
        (w.side.pipelineInboundPreCrypto w.filters now h).result =
          (PqComm.pipelineInboundPreCrypto env w.filters
            (some w.side.contents) (w.side.mem h)).result ∧
        (w.side.pipelineInboundPreCrypto w.filters now h).filters =
          (PqComm.pipelineInboundPreCrypto env w.filters
            (some w.side.contents) (w.side.mem h)).filters ∧
        some (w.side.pipelineInboundPreCrypto w.filters now h).side.contents =
          (PqComm.pipelineInboundPreCrypto env w.filters
            (some w.side.contents) (w.side.mem h)).sess ∧
        (w.side.pipelineInboundPreCrypto w.filters now h).view =
          (PqComm.pipelineInboundPreCrypto env w.filters
            (some w.side.contents) (w.side.mem h)).view := by
  unfold RxSide.pipelineInboundPreCrypto PqComm.pipelineInboundPreCrypto
  have session : ∀ raw,
      sessionCheck w.side.contents raw = sessionCheck w.side.sess raw :=
    fun _ => rfl
  cases parsed : packetParse (w.side.mem h) with
  | none =>
      exact ⟨⟨now, none, none⟩, rfl, rfl, rfl, rfl, rfl⟩
  | some raw =>
      simp only [session]
      cases checked : sessionCheck w.side.sess raw with
      | none =>
          refine ⟨⟨now, none, none⟩, rfl, ?_⟩
          dsimp only
          split_ifs <;> exact ⟨rfl, rfl, rfl, rfl⟩
      | some view =>
          have same : view.buf = w.side.mem h := by
            rw [sessionCheck_view checked]
            exact (parsedAs_of_packetParse parsed).buf
          obtain ⟨dataBuf, parityBuf, contents, verdict⟩ :=
            RxSide.resilienceCheck_contents same outside
          refine ⟨⟨now, dataBuf, parityBuf⟩, rfl, ?_⟩
          dsimp only
          rw [← contents, ← verdict]
          split_ifs <;> exact ⟨rfl, rfl, rfl, rfl⟩

theorem pipelineInboundPreCrypto_rxq :
    (w.side.pipelineInboundPreCrypto w.filters now h).side.ledger.rxq =
      w.side.ledger.rxq := by
  rcases w.pipelineInboundPreCrypto_cases now h with
    ⟨_, _, _, same⟩ | ⟨view, _, side, _⟩
  · rw [same]
  · rw [side]
    exact RxSide.resilienceCheck_rxq w.side

/-- The recovered packet is in another buffer than the packet at work. -/
theorem recovered_ne
    {all : Multiset Nat} {view : PacketView} (C : CryptoSuite)
    (accounts : w.side.ledger.Accounts all {h}) (unique : all.Nodup)
    (reached :
      (w.side.pipelineInboundPreCrypto w.filters now h).view = some view) :
    ∀ rec ∈
      ((w.side.pipelineInboundPreCrypto w.filters now
        h).side.drainRecovered C).2, rec ≠ h := by
  intro rec member
  rcases w.pipelineInboundPreCrypto_cases now h with
    ⟨_, _, none', _⟩ | ⟨view', _, side, _, seen⟩
  · rw [none'] at reached
    cases reached
  · rw [reached] at seen
    have passed : (w.side.resilienceCheck h view').2 = true := by
      by_contra failed
      rw [if_neg failed] at seen
      cases seen
    obtain ⟨fewer, below, held⟩ :=
      RxSide.resilienceCheck_hand accounts unique passed
    rw [← side] at held
    have drained := RxSide.drainRecovered_accounts C held
    have apart := Multiset.nodup_of_le below unique
    rw [member, Option.toList_some, Multiset.coe_singleton,
      Multiset.singleton_add] at drained
    rw [← drained.sum, Multiset.add_cons, Multiset.nodup_cons] at apart
    rintro rfl
    apply apart.1
    simp

/-- While every buffer has one owner, `pipeline_inbound_process` does to the
contents what the pipeline on contents does. -/
theorem pipelineInboundProcess_contents
    {all : Multiset Nat} (C : CryptoSuite)
    (accounts : w.side.ledger.Accounts all {h}) (unique : all.Nodup)
    {rxq : RxQueues} (queues : RxSide.SameQueues rxq w.side.ledger) :
    ∃ env : InboundEnv,
      env.now = now ∧
        (w.pipelineInboundProcess C now h).1 =
          (PqComm.pipelineInboundProcess C env w.filters w.side.contents rxq
            (w.side.mem h)).1 ∧
        (w.pipelineInboundProcess C now h).2.1.filters =
          (PqComm.pipelineInboundProcess C env w.filters w.side.contents rxq
            (w.side.mem h)).2.1 ∧
        (w.pipelineInboundProcess C now h).2.1.side.contents =
          (PqComm.pipelineInboundProcess C env w.filters w.side.contents rxq
            (w.side.mem h)).2.2.sess ∧
        (w.pipelineInboundProcess C now h).2.2.map
            (w.pipelineInboundProcess C now h).2.1.side.mem =
          (PqComm.pipelineInboundProcess C env w.filters w.side.contents rxq
            (w.side.mem h)).2.2.recovered := by
  have outside : h ∉ w.side.ledger.freeStack := accounts.not_free unique
  obtain ⟨env, clock, result, filters, session, view⟩ :=
    pipelineInboundPreCrypto_contents now outside
  refine ⟨env, clock, ?_⟩
  dsimp only [pipelineInboundProcess, PqComm.pipelineInboundProcess]
  rw [← result, ← filters, ← session, ← view]
  cases reached : (w.side.pipelineInboundPreCrypto w.filters now h).view with
  | none =>
      exact ⟨rfl, rfl, rfl, rfl⟩
  | some view =>
      have apart := recovered_ne C accounts unique reached
      have queues' : RxSide.SameQueues rxq
          (w.side.pipelineInboundPreCrypto w.filters now h).side.ledger := by
        intro channel known
        rw [pipelineInboundPreCrypto_rxq]
        exact queues channel known
      obtain ⟨verdict, after, recovered⟩ :=
        RxSide.pipelineInboundPostCrypto_contents (v := view) C queues'
          apart
      exact ⟨verdict, rfl, after, recovered⟩

end RxWorld

end PqComm
