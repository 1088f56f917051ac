import PqComm.Pipeline.Replay

/-!
# What the receive path reads of a session

On a locked session with one path, the gates and the cipher read the state,
the identifier, the keys and the address.  Two sessions that agree on these
may differ in their replay windows, in their reassembly or in what only the
handlers use: the same packets pass, with the same plaintext, and the
sessions go on agreeing.
-/

namespace PqComm

open Lib

/-- What `session_check`, `resilience_check` and `session_enc_check` read on a
session with one path. -/
structure ReceivesAlike (s t : Session) : Prop where
  state : t.state = s.state
  sessionId : t.sessionId = s.sessionId
  keys : t.keys = s.keys
  addr : t.addr = s.addr
  addrLen : t.addrLen = s.addrLen
  multipath :
    t.resilience.multipathEnabled = s.resilience.multipathEnabled

theorem ReceivesAlike.refl (s : Session) : ReceivesAlike s s :=
  ⟨rfl, rfl, rfl, rfl, rfl, rfl⟩

theorem ReceivesAlike.symm
    {s t : Session} (alike : ReceivesAlike s t) : ReceivesAlike t s :=
  ⟨alike.state.symm, alike.sessionId.symm, alike.keys.symm, alike.addr.symm,
    alike.addrLen.symm, alike.multipath.symm⟩

theorem ReceivesAlike.trans
    {s t u : Session} (first : ReceivesAlike s t)
    (second : ReceivesAlike t u) : ReceivesAlike s u where
  state := second.state.trans first.state
  sessionId := second.sessionId.trans first.sessionId
  keys := second.keys.trans first.keys
  addr := second.addr.trans first.addr
  addrLen := second.addrLen.trans first.addrLen
  multipath := second.multipath.trans first.multipath

/-! ## The stages keep it -/

section

variable (C : CryptoSuite) {s t : Session}

theorem Reassembles.alike (moved : Reassembles s t) : ReceivesAlike s t := by
  have multipath := moved.windows.multipath
  rw [moved.rest] at multipath ⊢
  exact ⟨rfl, rfl, rfl, rfl, rfl, multipath⟩

theorem receivesAlike_sessionEncCheck (v : PacketView) (s : Session) :
    ReceivesAlike s (sessionEncCheck C v s).1 := by
  obtain ⟨hs, same⟩ := sessionEncCheck_session C v s
  rw [same]
  exact ⟨rfl, rfl, rfl, rfl, rfl, rfl⟩

theorem receivesAlike_cipherStage (s : Session) (v : PacketView) :
    ReceivesAlike s (cipherStage C s v).1 := by
  unfold cipherStage
  split
  · exact receivesAlike_sessionEncCheck C v s
  · exact ReceivesAlike.refl s

theorem receivesAlike_seqCheck (s : Session) (v : PacketView) :
    ReceivesAlike s (seqCheck s v).1 := by
  unfold seqCheck
  split
  · exact ReceivesAlike.refl s
  · split
    · exact ⟨rfl, rfl, rfl, rfl, rfl, rfl⟩
    · exact ⟨rfl, rfl, rfl, rfl, rfl, rfl⟩

theorem receivesAlike_processFecRecovered (s : Session) (rec : PacketBuf) :
    ReceivesAlike s (processFecRecovered C s rec).1 := by
  unfold processFecRecovered
  cases packetParse rec with
  | none =>
      exact ReceivesAlike.refl s
  | some view =>
      dsimp only
      split
      · exact ReceivesAlike.refl s
      · have checked := receivesAlike_sessionEncCheck C view s
        cases (sessionEncCheck C view s).2 with
        | none =>
            exact checked
        | some view' =>
            exact checked.trans (receivesAlike_seqCheck _ view')

theorem receivesAlike_drainRecovered (s : Session) :
    ReceivesAlike s (drainRecovered C s).1 := by
  unfold drainRecovered
  cases s.fecRecovered with
  | none =>
      exact ReceivesAlike.refl s
  | some rec =>
      have cleared : ReceivesAlike s { s with fecRecovered := none } :=
        ⟨rfl, rfl, rfl, rfl, rfl, rfl⟩
      exact cleared.trans (receivesAlike_processFecRecovered C _ rec)

theorem receivesAlike_pipelineInboundPostCrypto
    (s : Session) (rxq : RxQueues) (v : PacketView) :
    ReceivesAlike s (pipelineInboundPostCrypto C s rxq v).sess := by
  have stages :=
    (receivesAlike_drainRecovered C s).trans
      (receivesAlike_cipherStage C (drainRecovered C s).1 v)
  obtain ⟨-, ⟨-, -, kept⟩ | ⟨view', -, kept, -⟩⟩ :=
    pipelineInboundPostCrypto_cases C s rxq v
  · rw [kept]
    exact stages
  · rw [kept]
    exact stages.trans (receivesAlike_seqCheck _ view')

/-! ## The gates and the cipher -/

theorem ReceivesAlike.sessionCheck
    (alike : ReceivesAlike s t) (locked : s.state = .locked)
    (single : s.resilience.multipathEnabled = false) (v : PacketView) :
    sessionCheck t v = PqComm.sessionCheck s v := by
  unfold PqComm.sessionCheck
  simp only [alike.state, locked, alike.multipath, single, alike.sessionId,
    alike.addr, alike.addrLen, if_true, Bool.false_eq_true, if_false]

theorem ReceivesAlike.resilienceCheck
    (alike : ReceivesAlike s t) (v : PacketView)
    (dataBuf parityBuf : Option PacketBuf) :
    (resilienceCheck v t dataBuf parityBuf).2 =
      (PqComm.resilienceCheck v s dataBuf parityBuf).2 := by
  unfold PqComm.resilienceCheck
  rw [alike.state]
  by_cases locked : s.state ≠ .locked
  · rw [if_pos locked, if_pos locked]
  · rw [if_neg locked, if_neg locked]
    by_cases parity : v.flags &&& packetFlagFecParity ≠ 0
    · rw [if_pos parity, if_pos parity]
    · rw [if_neg parity, if_neg parity]

theorem ReceivesAlike.passesGates
    {env : InboundEnv} {filters : Filters} {p : PacketBuf}
    {view : PacketView} {s' : Session} (alike : ReceivesAlike s t)
    (locked : s.state = .locked)
    (single : s.resilience.multipathEnabled = false)
    (gates : PassesGates env filters s p view s') :
    ∃ t', PassesGates env filters t p view t' := by
  obtain ⟨raw, parsed, offensive, anti, static, kernel, checked⟩ :=
    gates.parsed
  refine ⟨_, ⟨raw, parsed, offensive, anti, static, kernel, ?_⟩,
    Prod.ext rfl ?_⟩
  · rw [alike.sessionCheck locked single]
    exact checked
  · rw [alike.resilienceCheck, gates.resilient]

/-- The tables of the filters do not depend on the session. -/
theorem pipelineInboundPreCrypto_filters
    (env : InboundEnv) (filters : Filters) (s t : Session) (p : PacketBuf) :
    (pipelineInboundPreCrypto env filters (some s) p).filters =
      (pipelineInboundPreCrypto env filters (some t) p).filters := by
  have table (u : Session) :
      (pipelineInboundPreCrypto env filters (some u) p).filters =
        (pipelineInboundPreCrypto env filters none p).filters := by
    unfold pipelineInboundPreCrypto
    cases packetParse p with
    | none =>
        rfl
    | some raw =>
        dsimp only
        split
        · rfl
        · split
          · rfl
          · split
            · rfl
            · split
              · rfl
              · cases PqComm.sessionCheck u raw with
                | none =>
                    rfl
                | some view =>
                    dsimp only
                    split
                    · rfl
                    · rfl
  rw [table s, table t]

/-- With one path the view that passes the gates is the parse of the
packet. -/
theorem PassesGates.parse
    {env : InboundEnv} {filters : Filters} {p : PacketBuf}
    {view : PacketView} {s' : Session}
    (gates : PassesGates env filters s p view s')
    (single : s.resilience.multipathEnabled = false) :
    packetParse p = some view := by
  obtain ⟨raw, parsed, same⟩ := gates.view_eq
  have path : view.pathIdx = raw.pathIdx := by
    rw [gates.pathIdx.1, (seq_of_packetParse parsed).2]
    simp [arrivalPath, single]
  rw [path] at same
  rw [parsed, same]

/-- What the cipher makes of a packet depends on the state and the keys. -/
theorem ReceivesAlike.sessionEncCheck
    (alike : ReceivesAlike s t) (v : PacketView) :
    (sessionEncCheck C v t).2 = (PqComm.sessionEncCheck C v s).2 := by
  unfold PqComm.sessionEncCheck
  rw [alike.state, alike.keys]
  split
  · rfl
  · split
    · rfl
    · split
      · rfl
      · rfl

theorem ReceivesAlike.cipherStage
    (alike : ReceivesAlike s t) (v : PacketView) :
    (cipherStage C t v).2 = (PqComm.cipherStage C s v).2 := by
  unfold PqComm.cipherStage
  split
  · exact alike.sessionEncCheck C v
  · rfl

end

end PqComm
