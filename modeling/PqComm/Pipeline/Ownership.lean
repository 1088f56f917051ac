import PqComm.Pipeline.Buffers
import PqComm.Pipeline.Replay

/-!
# Every buffer has one owner

Three branches of the receive side break the ownership of buffers: the buffer
of a parity packet is returned by `resilience_check` and again by its caller;
an accepted packet is kept on a receive queue and returned by the control
handler; and a rebuild forgets a packet that `sess->fec_recovered` still
holds.  A run keeps the ownership exactly as long as it takes none of them.
-/

namespace PqComm

open Lib

/-! ## Packets whose buffer is handled once -/

/-- The view with which a packet reaches `resilience_check`. -/
def RxWorld.admits (w : RxWorld) (now : UInt64) (p : PacketBuf) :
    Option PacketView :=
  (packetParse p).bind fun view =>
    if (offensiveCheck w.filters.offensive view now).2 &&
        (antiAnalysisCheck w.filters.anti view now).2 && staticCheck view &&
        kernelFilterCheck w.filters.kernel view then
      sessionCheck w.side.sess view
    else
      none

namespace RxSide

/-- The stored parity and the tracked packets give a packet, and the pool a
buffer for it. -/
def rebuilds (w : RxSide) : Bool :=
  (fecRxRebuild w.sess.resilience).2.isSome && !w.ledger.freeStack.isEmpty

/-- Tracking the data packet in buffer `h` rebuilds another one. -/
def rebuildsAfter (w : RxSide) (h : Nat) (view : PacketView) : Bool :=
  let w := w.setResilience (resilienceRecordRx w.sess.resilience 0 0)
  w.tracks view &&
    (w.setResilience
      (fecRxTrack w.sess.resilience view.seq (w.mem h).body)).rebuilds

/-- A packet that reaches the cipher passes it and the replay window, and its
queue has room. -/
def opens (C : CryptoSuite) (w : RxSide) (h : Nat) (view : PacketView) :
    Bool :=
  let checked := (w.drainRecovered C).1.cipherStage C h view
  checked.2.any fun view =>
    (seqCheck checked.1.sess view).2 &&
      (checked.1.ledger.rxDemuxPush h view.channelId).1

/-- The packet in buffer `h`, once admitted with this view, is no parity
packet, rebuilds nothing while a rebuilt packet is pending, and is not
accepted. -/
def HandledOnce (C : CryptoSuite) (w : RxSide) (h : Nat)
    (view : PacketView) : Prop :=
  (w.sess.state = .locked →
    view.flags &&& packetFlagFecParity = 0 ∧
      (w.rebuildsAfter h view = true → w.ledger.fecRecovered = none)) ∧
    (w.resilienceCheck h view).1.opens C h view = false

end RxSide

instance (C : CryptoSuite) (w : RxSide) (h : Nat) (view : PacketView) :
    Decidable (w.HandledOnce C h view) :=
  inferInstanceAs (Decidable (_ ∧ _))

namespace RxWorld

variable (C : CryptoSuite) (H : ControlHandler)

/-- The packet in buffer `h` is refused in front of `resilience_check` or
handled once. -/
def CarefulPacket (w : RxWorld) (now : UInt64) (h : Nat) : Prop :=
  ∀ view ∈ w.admits now (w.side.mem h), w.side.HandledOnce C h view

def CarefulStep (w : RxWorld) : RxAct → Prop
  | .processRing now =>
      match w.side.ledger.rxRing with
      | [] => True
      | h :: rest =>
          ({ w with side := w.side.setRxRing rest }).CarefulPacket C now h
  | _ => True

def CarefulRun : RxWorld → List RxAct → Prop
  | _, [] => True
  | w, act :: acts => w.CarefulStep C act ∧ CarefulRun (w.act C H act) acts

instance (w : RxWorld) (now : UInt64) (h : Nat) :
    Decidable (w.CarefulPacket C now h) :=
  inferInstanceAs (Decidable (∀ view ∈ w.admits now (w.side.mem h), _))

instance (w : RxWorld) : DecidablePred (w.CarefulStep C)
  | .processRing now =>
      match ring : w.side.ledger.rxRing with
      | [] =>
          decidable_of_iff True (by simp [CarefulStep, ring])
      | h :: rest =>
          decidable_of_iff
            (({ w with side := w.side.setRxRing rest }).CarefulPacket C now
              h) (by simp [CarefulStep, ring])
  | .udpRxOnce _ => isTrue trivial
  | .send _ => isTrue trivial
  | .sent _ => isTrue trivial
  | .dequeue _ => isTrue trivial

instance decidableCarefulRun :
    (w : RxWorld) → (acts : List RxAct) → Decidable (w.CarefulRun C H acts)
  | _, [] => isTrue trivial
  | w, act :: acts =>
      @instDecidableAnd _ _ (inferInstance : Decidable (w.CarefulStep C act))
        (decidableCarefulRun (w.act C H act) acts)

end RxWorld

/-! ## What each function does to the ledger -/

namespace RxSide

open Ledger

variable {all hand : Multiset Nat} {w : RxSide} {h : Nat} {v : PacketView}

section

variable (w)

@[simp]
theorem write_ledger (p : PacketBuf) : (w.write h p).ledger = w.ledger :=
  rfl

@[simp]
theorem setSess_ledger (sess : Session) :
    (w.setSess sess).ledger = w.ledger :=
  rfl

@[simp]
theorem setResilience_ledger (resilience : Resilience) :
    (w.setResilience resilience).ledger = w.ledger :=
  rfl

@[simp]
theorem setLedger_ledger (ledger : Ledger) :
    (w.setLedger ledger).ledger = ledger :=
  rfl

@[simp]
theorem poolReturn_ledger :
    (w.poolReturn h).ledger = w.ledger.poolReturn h :=
  rfl

/-- What `try_rebuild` can do. -/
theorem tryRebuild_cases :
    (w.rebuilds = false ∧ w.tryRebuild.ledger = w.ledger) ∨
      ∃ rec ledger,
        w.rebuilds = true ∧ w.ledger.poolGet = some (rec, ledger) ∧
          w.tryRebuild.ledger = { ledger with fecRecovered := some rec } := by
  unfold tryRebuild rebuilds
  cases built : fecRxRebuild w.sess.resilience with
  | mk resilience packet =>
      cases packet with
      | none =>
          exact Or.inl ⟨rfl, rfl⟩
      | some packet =>
          obtain ⟨payload, seq⟩ := packet
          dsimp only
          cases stack : w.ledger.freeStack with
          | nil =>
              have empty : w.ledger.poolGet = none := by
                simp [poolGet, stack]
              simp [empty]
          | cons rec rest =>
              have taken : ∃ ledger, w.ledger.poolGet = some (rec, ledger) :=
                ⟨_, by rw [poolGet, stack]⟩
              obtain ⟨ledger, taken⟩ := taken
              simp [taken]

end

/-- Nothing is pending, so nothing is lost. -/
theorem tryRebuild_keeps
    (accounts : w.ledger.Accounts all hand)
    (calm : w.rebuilds = true → w.ledger.fecRecovered = none) :
    w.tryRebuild.ledger.Accounts all hand := by
  rcases w.tryRebuild_cases with ⟨_, same⟩ | ⟨rec, ledger, built, taken, after⟩
  · rw [same]
    exact accounts
  · have empty : ledger.fecRecovered = none := by
      rw [poolGet_fecRecovered taken]
      exact calm built
    rw [after]
    exact (accounts.get taken).hold empty

theorem tryRebuild_loses
    (accounts : w.ledger.Accounts all hand) (unique : all.Nodup)
    (built : w.rebuilds = true) (pending : w.ledger.fecRecovered ≠ none) :
    ∃ old fewer,
      all = old ::ₘ fewer ∧ w.tryRebuild.ledger.Accounts fewer hand := by
  obtain ⟨old, holds⟩ := Option.ne_none_iff_exists'.mp pending
  rcases w.tryRebuild_cases with ⟨idle, _⟩ | ⟨rec, ledger, _, taken, after⟩
  · rw [idle] at built
    cases built
  · rw [after]
    obtain ⟨fewer, split, lost⟩ :=
      (accounts.get taken).overwrite unique
        ((poolGet_fecRecovered taken).trans holds)
    exact ⟨old, fewer, split, lost⟩

/-- Either way, what is in hand stays there. -/
theorem tryRebuild_hand
    (accounts : w.ledger.Accounts all hand) (unique : all.Nodup) :
    ∃ fewer, fewer ≤ all ∧ w.tryRebuild.ledger.Accounts fewer hand := by
  by_cases calm : w.rebuilds = true → w.ledger.fecRecovered = none
  · exact ⟨all, le_rfl, tryRebuild_keeps accounts calm⟩
  · rw [Classical.not_imp] at calm
    obtain ⟨old, fewer, split, lost⟩ :=
      tryRebuild_loses accounts unique calm.1 calm.2
    refine ⟨fewer, ?_, lost⟩
    rw [split]
    exact Multiset.le_cons_self fewer old

/-! ### `resilience_check` -/

theorem trackData_hand
    (accounts : w.ledger.Accounts all hand) (unique : all.Nodup) :
    ∃ fewer, fewer ≤ all ∧
      (w.trackData h v).ledger.Accounts fewer hand := by
  unfold trackData
  split
  · exact tryRebuild_hand accounts unique
  · exact ⟨all, le_rfl, accounts⟩

theorem trackParity_hand
    (accounts : w.ledger.Accounts all hand) (unique : all.Nodup) :
    ∃ fewer, fewer ≤ all ∧
      (w.trackParity h).ledger.Accounts fewer hand := by
  unfold trackParity
  split
  · exact tryRebuild_hand accounts unique
  · exact ⟨all, le_rfl, accounts⟩

/-- The buffer of a parity packet is returned here, and its caller is told to
drop it. -/
theorem resilienceCheck_parity
    (accounts : w.ledger.Accounts all (h ::ₘ hand)) (unique : all.Nodup)
    (locked : w.sess.state = .locked)
    (parity : v.flags &&& packetFlagFecParity ≠ 0) :
    ∃ (before : Ledger) (fewer : Multiset Nat),
      fewer ≤ all ∧ before.Accounts fewer (h ::ₘ hand) ∧
        (w.resilienceCheck h v).1.ledger = before.poolReturn h ∧
        (w.resilienceCheck h v).2 = false := by
  obtain ⟨some, fewer, tracked⟩ :=
    trackData_hand (h := h) (v := v)
      (w := w.setResilience (resilienceRecordRx w.sess.resilience 0 0))
      accounts unique
  obtain ⟨rest, fewest, stored⟩ :=
    trackParity_hand (h := h) tracked (Multiset.nodup_of_le fewer unique)
  refine ⟨_, rest, fewest.trans fewer, stored, ?_⟩
  unfold resilienceCheck
  rw [if_neg (not_not.mpr locked), if_pos parity]
  exact ⟨rfl, rfl⟩

theorem resilienceCheck_data
    (data : w.sess.state = .locked →
      v.flags &&& packetFlagFecParity = 0) :
    (w.resilienceCheck h v).2 = true := by
  unfold resilienceCheck
  by_cases locked : w.sess.state = .locked
  · rw [if_neg (not_not.mpr locked), if_neg (not_not.mpr (data locked))]
  · rw [if_pos locked]

theorem resilienceCheck_keeps
    (accounts : w.ledger.Accounts all hand)
    (calm : w.sess.state = .locked →
      v.flags &&& packetFlagFecParity = 0 ∧
        (w.rebuildsAfter h v = true → w.ledger.fecRecovered = none)) :
    (w.resilienceCheck h v).1.ledger.Accounts all hand := by
  unfold resilienceCheck
  by_cases locked : w.sess.state = .locked
  · obtain ⟨data, single⟩ := calm locked
    rw [if_neg (not_not.mpr locked), if_neg (not_not.mpr data)]
    dsimp only [trackData]
    split
    · rename_i tracked
      refine tryRebuild_keeps accounts ?_
      intro built
      apply single
      simp only [rebuildsAfter, tracked, Bool.true_and]
      exact built
    · exact accounts
  · rw [if_pos locked]
    exact accounts

theorem resilienceCheck_loses
    (accounts : w.ledger.Accounts all hand) (unique : all.Nodup)
    (locked : w.sess.state = .locked)
    (data : v.flags &&& packetFlagFecParity = 0)
    (built : w.rebuildsAfter h v = true)
    (pending : w.ledger.fecRecovered ≠ none) :
    ∃ old fewer,
      all = old ::ₘ fewer ∧
        (w.resilienceCheck h v).1.ledger.Accounts fewer hand := by
  rw [rebuildsAfter, Bool.and_eq_true] at built
  unfold resilienceCheck
  rw [if_neg (not_not.mpr locked), if_neg (not_not.mpr data)]
  dsimp only [trackData]
  rw [if_pos built.1]
  exact tryRebuild_loses accounts unique built.2 pending

/-! ### `pipeline_inbound_post_crypto` -/

section

variable (C : CryptoSuite)

@[simp]
theorem sessionEncCheck_ledger :
    (w.sessionEncCheck C h v).1.ledger = w.ledger := by
  unfold sessionEncCheck
  dsimp only
  split <;> rfl

@[simp]
theorem processFecRecovered_ledger :
    (w.processFecRecovered C h).1.ledger = w.ledger := by
  unfold processFecRecovered
  split
  · rfl
  · split
    · rfl
    · dsimp only
      split <;> exact sessionEncCheck_ledger C

/-- The pending packet is returned or handed on. -/
theorem drainRecovered_accounts (accounts : w.ledger.Accounts all hand) :
    (w.drainRecovered C).1.ledger.Accounts all
      ((w.drainRecovered C).2.toList + hand) := by
  unfold drainRecovered
  split
  · simpa using accounts
  · rename_i rec pending
    have released := accounts.release pending
    dsimp only
    split
    · simpa using released
    · simpa using released.put

@[simp]
theorem cipherStage_ledger :
    (w.cipherStage C h v).1.ledger = w.ledger := by
  unfold cipherStage
  split
  · exact sessionEncCheck_ledger C
  · rfl

/-- What `pipeline_inbound_post_crypto` can do. -/
theorem pipelineInboundPostCrypto_cases :
    (w.pipelineInboundPostCrypto C h v).2.2 = (w.drainRecovered C).2 ∧
      ((w.opens C h v = false ∧
          (w.pipelineInboundPostCrypto C h v).1 ≠ .ok ∧
          (w.pipelineInboundPostCrypto C h v).2.1.ledger =
            (w.drainRecovered C).1.ledger) ∨
        ∃ channel ∈ rxChannels,
          w.opens C h v = true ∧
            (w.pipelineInboundPostCrypto C h v).1 = .ok ∧
            (w.pipelineInboundPostCrypto C h v).2.1.ledger =
              (w.drainRecovered C).1.ledger.setQueue channel
                ((w.drainRecovered C).1.ledger.rxq channel ++ [h])) := by
  dsimp only [pipelineInboundPostCrypto, opens]
  have kept :=
    cipherStage_ledger (w := (w.drainRecovered C).1) (h := h) (v := v)
      C
  generalize (w.drainRecovered C).1.cipherStage C h v = checked at kept ⊢
  obtain ⟨side, opened⟩ := checked
  cases opened with
  | none =>
      exact ⟨rfl, Or.inl ⟨rfl, by simp, kept⟩⟩
  | some view' =>
      cases fresh : (seqCheck side.sess view').2 with
      | false =>
          simp only [fresh]
          exact ⟨rfl, Or.inl ⟨by simp [fresh], by simp, kept⟩⟩
      | true =>
          rcases side.ledger.rxDemuxPush_cases h view'.channelId with
            ⟨refused, same⟩ | ⟨taken, known, after⟩
          · simp only [fresh, setSess_ledger, refused, same]
            exact ⟨rfl, Or.inl ⟨by simp [refused], by simp, kept⟩⟩
          · simp only [fresh, setSess_ledger, taken, after]
            refine ⟨rfl, Or.inr ⟨view'.channelId, known, ?_, rfl, ?_⟩⟩
            · simp [fresh, taken]
            · simp only at kept
              simp [kept]

/-- An accepted packet is on a queue and still in hand. -/
theorem pipelineInboundPostCrypto_accounts
    (accounts : w.ledger.Accounts all (h ::ₘ hand)) :
    (w.pipelineInboundPostCrypto C h v).2.1.ledger.Accounts
      (if w.opens C h v = true then h ::ₘ all else all)
      (h ::ₘ ((w.pipelineInboundPostCrypto C h v).2.2.toList + hand)) := by
  have drained := drainRecovered_accounts C accounts
  rw [Multiset.add_cons] at drained
  obtain ⟨recovered, outcome⟩ :=
    pipelineInboundPostCrypto_cases (w := w) (h := h) (v := v) C
  rw [recovered]
  rcases outcome with
    ⟨refused, _, after⟩ | ⟨channel, known, accepted, _, after⟩
  · rw [after, refused]
    exact drained
  · rw [after, accepted]
    exact drained.push known

end

/-! ### The handler -/

theorem send_accounts
    (accounts : w.ledger.Accounts all hand) (packet : PacketBuf × Bool) :
    (w.send packet).ledger.Accounts all hand := by
  unfold send
  split
  · exact accounts
  · rename_i taken
    have inHand := accounts.get taken
    dsimp only
    split
    · exact inHand.keep
    · exact inHand.put

theorem sends_accounts
    (accounts : w.ledger.Accounts all hand)
    (packets : List (PacketBuf × Bool)) :
    (packets.foldl send w).ledger.Accounts all hand := by
  induction packets generalizing w with
  | nil =>
      exact accounts
  | cons packet rest inductionHypothesis =>
      exact inductionHypothesis (send_accounts accounts packet)

/-- The handler returns its buffer. -/
theorem control_accounts
    (H : ControlHandler) (accounts : w.ledger.Accounts all (h ::ₘ hand)) :
    (w.control H h).ledger.Accounts all hand := by
  have replied :
      ((H.replies w.sess (w.mem h)).foldl send
        (w.setSess (H.session w.sess (w.mem h)))).ledger.Accounts all
          (h ::ₘ hand) := by
    apply sends_accounts
    exact accounts
  apply sends_accounts
  exact replied.put

/-! ### The other threads -/

theorem udpRxOnce_accounts
    (accounts : w.ledger.Accounts all hand) (datagram : Option PacketBuf) :
    (w.udpRxOnce datagram).ledger.Accounts all hand := by
  unfold udpRxOnce
  split
  · exact accounts
  · rename_i rec ledger taken
    have inHand := accounts.get taken
    cases datagram with
    | none =>
        exact inHand.put
    | some p =>
        dsimp only
        cases full : ringFull ledger.rxRing with
        | true =>
            simp only [ringPush, write_ledger, setLedger_ledger, full]
            exact inHand.put
        | false =>
            simp only [ringPush, write_ledger, setLedger_ledger, full]
            exact inHand.ringAppend

theorem sent_accounts
    (accounts : w.ledger.Accounts all hand) (h : Nat) :
    (w.sent h).ledger.Accounts all hand := by
  unfold sent
  split
  · rename_i member
    exact (accounts.takeBack member).put
  · exact accounts

theorem dequeue_accounts
    (accounts : w.ledger.Accounts (Multiset.range packetPoolSize) hand)
    (channel : UInt8) :
    (w.dequeue channel).ledger.Accounts (Multiset.range packetPoolSize)
      hand := by
  unfold dequeue
  split
  · exact accounts
  · rename_i h rest first
    split
    · rename_i known
      have shorter := queued_setQueue_tail known first
      refine accounts.transfer rfl rfl rfl ?_ ?_
      · rw [Multiset.card_range]
        exact Nat.le_add_right _ _
      · simp only [places, shorter, setLedger_ledger, ← Multiset.cons_coe,
          Multiset.cons_add, Multiset.add_cons]
        rfl
    · exact accounts

end RxSide

/-! ## One packet -/

namespace RxWorld

open Ledger

variable {w : RxWorld} {now : UInt64} {h : Nat}

/-- What `pipeline_inbound_pre_crypto` can do. -/
theorem pipelineInboundPreCrypto_cases (w : RxWorld) (now : UInt64) (h : Nat) :
    (w.admits now (w.side.mem h) = none ∧
        (w.side.pipelineInboundPreCrypto w.filters now h).result ≠ .ok ∧
        (w.side.pipelineInboundPreCrypto w.filters now h).view = none ∧
        (w.side.pipelineInboundPreCrypto w.filters now h).side = w.side) ∨
      ∃ view,
        w.admits now (w.side.mem h) = some view ∧
          (w.side.pipelineInboundPreCrypto w.filters now h).side =
            (w.side.resilienceCheck h view).1 ∧
          (w.side.pipelineInboundPreCrypto w.filters now h).result =
            (if (w.side.resilienceCheck h view).2 then .ok
              else .dropResilience) ∧
          (w.side.pipelineInboundPreCrypto w.filters now h).view =
            (if (w.side.resilienceCheck h view).2 then some view
              else none) := by
  unfold RxSide.pipelineInboundPreCrypto admits
  cases packetParse (w.side.mem h) with
  | none =>
      simp
  | some raw =>
      simp only [Option.bind_some]
      cases offensive : (offensiveCheck w.filters.offensive raw now).2
      · simp
      cases anti : (antiAnalysisCheck w.filters.anti raw now).2
      · simp
      cases static : staticCheck raw
      · simp
      cases kernel : kernelFilterCheck w.filters.kernel raw
      · simp
      cases checked : sessionCheck w.side.sess raw with
      | none =>
          simp
      | some view =>
          right
          refine ⟨view, by simp, ?_⟩
          cases passed : (w.side.resilienceCheck h view).2 <;> simp [passed]

variable (C : CryptoSuite) (H : ControlHandler)

/-- A packet that does not reach the cipher is returned by the caller. -/
theorem processPacket_early
    (early : (w.side.pipelineInboundPreCrypto w.filters now h).view = none)
    (refused :
      (w.side.pipelineInboundPreCrypto w.filters now h).result ≠ .ok) :
    (w.processPacket C H now h).side.ledger =
      (w.side.pipelineInboundPreCrypto w.filters now
        h).side.ledger.poolReturn h := by
  unfold processPacket pipelineInboundProcess
  simp only [early, refused, if_false]
  rfl

/-- The buffer of a packet that reaches the cipher is returned once, whether
the packet is accepted or not. -/
theorem processPacket_accounts
    {all : Multiset Nat} {view : PacketView}
    (reached :
      (w.side.pipelineInboundPreCrypto w.filters now h).view = some view)
    (accounts :
      (w.side.pipelineInboundPreCrypto w.filters now h).side.ledger.Accounts
        all {h}) :
    (w.processPacket C H now h).side.ledger.Accounts
      (if (w.side.pipelineInboundPreCrypto w.filters now h).side.opens C h
          view = true then
        h ::ₘ all
      else
        all)
      0 := by
  unfold processPacket pipelineInboundProcess
  simp only [reached]
  generalize
    (w.side.pipelineInboundPreCrypto w.filters now h).side = side at *
  have after :=
    RxSide.pipelineInboundPostCrypto_accounts (v := view) C accounts
  generalize side.pipelineInboundPostCrypto C h view = post at after ⊢
  generalize (if side.opens C h view = true then h ::ₘ all else all) = total
    at after ⊢
  obtain ⟨result, side', recovered⟩ := post
  have returned :
      (if result = .ok then side'.control H h
        else side'.poolReturn h).ledger.Accounts total
          recovered.toList := by
    rw [add_zero] at after
    split
    · exact RxSide.control_accounts H after
    · exact after.put
  cases recovered with
  | none =>
      exact returned
  | some rec =>
      exact RxSide.control_accounts H returned

/-- A packet that is no parity packet and rebuilds nothing while a packet is
pending. -/
theorem processPacket_calm
    {view : PacketView}
    (accounts : w.side.ledger.Accounts (Multiset.range packetPoolSize) {h})
    (side :
      (w.side.pipelineInboundPreCrypto w.filters now h).side =
        (w.side.resilienceCheck h view).1)
    (seen :
      (w.side.pipelineInboundPreCrypto w.filters now h).view = some view)
    (calm :
      w.side.sess.state = .locked →
        view.flags &&& packetFlagFecParity = 0 ∧
          (w.side.rebuildsAfter h view = true →
            w.side.ledger.fecRecovered = none)) :
    (w.processPacket C H now h).side.ledger.Owned ↔
      (w.side.resilienceCheck h view).1.opens C h view = false := by
  have kept := RxSide.resilienceCheck_keeps accounts calm
  rw [← side] at kept
  have after := processPacket_accounts C H seen kept
  rw [side] at after
  cases accepted : (w.side.resilienceCheck h view).1.opens C h view with
  | false =>
      rw [accepted] at after
      exact iff_of_true (owned_iff_accounts.mpr after) rfl
  | true =>
      rw [accepted] at after
      refine iff_of_false ?_ Bool.noConfusion
      intro owned
      have total := after.sum
      rw [add_zero, owned.places, if_pos rfl] at total
      exact (Multiset.lt_cons_self _ h).ne total

/-- A rebuild forgets the pending packet, and no other branch makes up for
it. -/
theorem processPacket_loses
    {view : PacketView}
    (accounts : w.side.ledger.Accounts (Multiset.range packetPoolSize) {h})
    (side :
      (w.side.pipelineInboundPreCrypto w.filters now h).side =
        (w.side.resilienceCheck h view).1)
    (seen :
      (w.side.pipelineInboundPreCrypto w.filters now h).view = some view)
    (locked : w.side.sess.state = .locked)
    (data : view.flags &&& packetFlagFecParity = 0)
    (built : w.side.rebuildsAfter h view = true)
    (pending : w.side.ledger.fecRecovered ≠ none) :
    ¬ (w.processPacket C H now h).side.ledger.Owned := by
  intro owned
  obtain ⟨old, fewer, split, lost⟩ :=
    RxSide.resilienceCheck_loses accounts (Multiset.nodup_range _) locked
      data built pending
  rw [← side] at lost
  have total := (processPacket_accounts C H seen lost).sum
  rw [add_zero, owned.places, split] at total
  split_ifs at total
  · have same : old = h := (Multiset.cons_inj_left fewer).mp total
    have unique := Multiset.nodup_range packetPoolSize
    rw [split, Multiset.nodup_cons, same] at unique
    exact unique.1 (lost.mem_of_mem_hand (Multiset.mem_singleton_self h))
  · exact (Multiset.lt_cons_self fewer old).ne total.symm

/-- The buffers are still owned exactly when the packet is handled once. -/
theorem processPacket_owned_iff
    (accounts :
      w.side.ledger.Accounts (Multiset.range packetPoolSize) {h}) :
    (w.processPacket C H now h).side.ledger.Owned ↔
      w.CarefulPacket C now h := by
  have unique := Multiset.nodup_range packetPoolSize
  have pooled : h < packetPoolSize :=
    Multiset.mem_range.mp
      (accounts.mem_of_mem_hand (Multiset.mem_singleton_self h))
  rcases w.pipelineInboundPreCrypto_cases now h with
    ⟨refused, verdict, early, same⟩ | ⟨view, admitted, side, verdict, seen⟩
  · have careful : w.CarefulPacket C now h := by
      intro view passed
      rw [refused] at passed
      cases passed
    refine iff_of_true ?_ careful
    rw [processPacket_early C H early verdict, same, owned_iff_accounts]
    exact accounts.put
  · have careful :
        w.CarefulPacket C now h ↔ w.side.HandledOnce C h view := by
      simp [CarefulPacket, admitted]
    rw [careful]
    by_cases parity :
        w.side.sess.state = .locked ∧
          view.flags &&& packetFlagFecParity ≠ 0
    · -- The buffer goes back in `resilience_check` and in the caller.
      obtain ⟨before, fewer, below, held, after, dropped⟩ :=
        RxSide.resilienceCheck_parity accounts unique parity.1 parity.2
      rw [dropped] at verdict seen
      refine iff_of_false ?_ fun once => parity.2 (once.1 parity.1).1
      rw [processPacket_early C H seen (by simp [verdict]), side, after]
      exact not_owned_of_returned_twice held
        (Multiset.nodup_of_le below unique) pooled
    · have data : w.side.sess.state = .locked →
          view.flags &&& packetFlagFecParity = 0 := by
        intro locked
        by_contra flagged
        exact parity ⟨locked, flagged⟩
      rw [RxSide.resilienceCheck_data data, if_pos rfl] at seen
      by_cases loses :
          w.side.sess.state = .locked ∧
            w.side.rebuildsAfter h view = true ∧
              w.side.ledger.fecRecovered ≠ none
      · obtain ⟨locked, built, pending⟩ := loses
        refine iff_of_false ?_ fun once =>
          pending ((once.1 locked).2 built)
        exact processPacket_loses C H accounts side seen locked
          (data locked) built pending
      · have calm :
            w.side.sess.state = .locked →
              view.flags &&& packetFlagFecParity = 0 ∧
                (w.side.rebuildsAfter h view = true →
                  w.side.ledger.fecRecovered = none) := by
          intro locked
          refine ⟨data locked, ?_⟩
          intro built
          by_contra pending
          exact loses ⟨locked, built, pending⟩
        rw [processPacket_calm C H accounts side seen calm]
        exact (and_iff_right calm).symm

/-! ## Runs -/

theorem act_owned_iff (owned : w.side.ledger.Owned) (act : RxAct) :
    (w.act C H act).side.ledger.Owned ↔ w.CarefulStep C act := by
  have accounts := owned_iff_accounts.mp owned
  cases act with
  | udpRxOnce datagram =>
      refine iff_of_true ?_ trivial
      exact owned_iff_accounts.mpr (RxSide.udpRxOnce_accounts accounts _)
  | processRing now =>
      dsimp only [RxWorld.act, processRingForEngine, CarefulStep]
      cases ring : w.side.ledger.rxRing with
      | nil =>
          exact iff_of_true owned trivial
      | cons h rest =>
          apply processPacket_owned_iff
          exact accounts.pop ring
  | send packet =>
      refine iff_of_true ?_ trivial
      exact owned_iff_accounts.mpr (RxSide.send_accounts accounts packet)
  | sent h =>
      refine iff_of_true ?_ trivial
      exact owned_iff_accounts.mpr (RxSide.sent_accounts accounts h)
  | dequeue channel =>
      refine iff_of_true ?_ trivial
      exact owned_iff_accounts.mpr (RxSide.dequeue_accounts accounts channel)

@[simp]
theorem run_nil : w.run C H [] = w :=
  rfl

@[simp]
theorem run_cons (act : RxAct) (acts : List RxAct) :
    w.run C H (act :: acts) = (w.act C H act).run C H acts :=
  rfl

/-- From buffers that each have one owner, every state of a run has one owner
for each buffer exactly when every packet it processes is refused in front of
`resilience_check` or handled once. -/
theorem buffers_owned_iff (owned : w.side.ledger.Owned) (acts : List RxAct) :
    (∀ past rest, acts = past ++ rest → (w.run C H past).side.ledger.Owned) ↔
      w.CarefulRun C H acts := by
  induction acts generalizing w with
  | nil =>
      refine iff_of_true ?_ trivial
      intro past rest split
      rw [(List.append_eq_nil_iff.mp split.symm).1]
      exact owned
  | cons act acts inductionHypothesis =>
      constructor
      · intro always
        have next : (w.act C H act).side.ledger.Owned :=
          always [act] acts rfl
        refine ⟨(act_owned_iff C H owned act).mp next, ?_⟩
        rw [← inductionHypothesis next]
        intro past rest split
        exact always (act :: past) rest (by rw [split]; rfl)
      · rintro ⟨careful, later⟩ past rest split
        have next := (act_owned_iff C H owned act).mpr careful
        cases past with
        | nil =>
            exact owned
        | cons first past =>
            injection split with same split
            subst same
            exact (inductionHypothesis next).mpr later past rest split

theorem owned_start (mem : Nat → PacketBuf) (sess : Session) :
    (start mem sess).side.ledger.Owned :=
  Ledger.owned_init

/-! ### Two runs -/

/-- A handler that only returns its buffer. -/
def returning : ControlHandler where
  session := fun sess _ => sess
  replies := fun _ _ => []
  followUps := fun _ _ => []

/-- A forged packet is taken from the ring, and its buffer is back in the
pool. -/
theorem buffers_owned_iff_forged :
    (((start (fun _ => default) (sampleReceiver false)).run sampleSuite
        returning
        [.udpRxOnce (some sampleForged), .processRing 0]).side.ledger.Owned ∧
      ((start (fun _ => default) (sampleReceiver false)).run sampleSuite
        returning
        [.udpRxOnce (some sampleForged),
          .processRing 0]).side.ledger.returns 4095 = 1) := by
  refine ⟨?_, by decide +kernel⟩
  have careful :
      (start (fun _ => default) (sampleReceiver false)).CarefulRun
        sampleSuite returning
        [.udpRxOnce (some sampleForged), .processRing 0] := by
    decide +kernel
  exact (buffers_owned_iff sampleSuite returning (owned_start _ _) _).mpr
    careful _ [] (List.append_nil _).symm

/-- After one heartbeat that anybody can send, a buffer is on the control
queue and, with the next datagram, on the ring of the receive thread. -/
theorem accepted_buffer_shared :
    (start (fun _ => default) (sampleReceiver false)).side.ledger.Owned ∧
      ¬ ((start (fun _ => default) (sampleReceiver false)).run sampleSuite
          returning
          [.udpRxOnce (some strayHeartbeat),
            .processRing 0]).side.ledger.Owned ∧
      ((start (fun _ => default) (sampleReceiver false)).run sampleSuite
          returning
          [.udpRxOnce (some strayHeartbeat), .processRing 0,
            .udpRxOnce (some sampleForged)]).side.ledger.rxRing = [4095] ∧
      ((start (fun _ => default) (sampleReceiver false)).run sampleSuite
          returning
          [.udpRxOnce (some strayHeartbeat), .processRing 0,
            .udpRxOnce (some sampleForged)]).side.ledger.rxq chControl =
        [4095] := by
  refine ⟨owned_start _ _, ?_, by decide +kernel, by decide +kernel⟩
  have received :
      ((start (fun _ => default) (sampleReceiver false)).act sampleSuite
        returning (.udpRxOnce (some strayHeartbeat))).side.ledger.Owned :=
    (act_owned_iff sampleSuite returning (owned_start _ _) _).mpr trivial
  have careless :
      ¬ ((start (fun _ => default) (sampleReceiver false)).act sampleSuite
        returning (.udpRxOnce (some strayHeartbeat))).CarefulStep sampleSuite
          (.processRing 0) := by
    decide +kernel
  rw [run_cons, run_cons, run_nil, act_owned_iff _ _ received]
  exact careless

end RxWorld

end PqComm
