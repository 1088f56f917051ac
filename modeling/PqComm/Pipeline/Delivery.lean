import PqComm.Pipeline.Inbound

/-!
# What the inbound pipeline accepts

The pipeline never touches the state, the identifier or the keys of a session.
A packet whose header carries the encrypted flag is accepted only after its
tag has verified; a packet without the flag is accepted when the other layers
let it through, on any channel.
-/

namespace PqComm

open Lib

/-! ## The pipeline leaves the core of a session alone -/

/-- From `s` to `s'` only the metrics and the reassembly have moved. -/
structure Reassembles (s s' : Session) : Prop where
  rest :
    s' =
      { s with
        resilience := s'.resilience, fecRecovered := s'.fecRecovered }
  windows : SameWindows s.resilience s'.resilience

theorem Reassembles.refl (s : Session) : Reassembles s s :=
  ⟨rfl, SameWindows.refl _⟩

theorem Reassembles.trans
    {s t u : Session} (first : Reassembles s t) (second : Reassembles t u) :
    Reassembles s u := by
  refine ⟨?_, first.windows.trans second.windows⟩
  rw [second.rest, first.rest]

theorem Reassembles.untouched
    {s s' : Session} (moved : Reassembles s s') : Untouched s s' := by
  rw [moved.rest]
  exact ⟨⟨rfl, rfl, rfl, rfl⟩, rfl⟩

theorem reassembles_of_windows
    (s : Session) {r : Resilience} (windows : SameWindows s.resilience r) :
    Reassembles s { s with resilience := r } :=
  ⟨rfl, windows⟩

theorem reassembles_tryRebuild (sess : Session) (buf : Option PacketBuf) :
    Reassembles sess (tryRebuild sess buf) := by
  have windows := sameWindows_fecRxRebuild sess.resilience
  unfold tryRebuild
  generalize fecRxRebuild sess.resilience = rebuilt at windows
  rcases rebuilt with ⟨resilience, _ | ⟨payload, seq⟩⟩
  · exact ⟨rfl, windows⟩
  · cases buf with
    | none =>
        exact ⟨rfl, windows⟩
    | some buf =>
        exact ⟨rfl, windows⟩

theorem reassembles_trackData
    (v : PacketView) (sess : Session) (buf : Option PacketBuf) :
    Reassembles sess (trackData v sess buf) := by
  unfold trackData
  split
  · exact
      (reassembles_of_windows sess
        (sameWindows_fecRxTrack sess.resilience _ _)).trans
        (reassembles_tryRebuild _ buf)
  · exact Reassembles.refl sess

theorem reassembles_trackParity
    (v : PacketView) (sess : Session) (buf : Option PacketBuf) :
    Reassembles sess (trackParity v sess buf) := by
  unfold trackParity
  split
  · exact
      (reassembles_of_windows sess
        (sameWindows_fecRxStoreParity sess.resilience _)).trans
        (reassembles_tryRebuild _ buf)
  · exact Reassembles.refl sess

theorem reassembles_resilienceCheck
    (v : PacketView) (sess : Session) (dataBuf parityBuf : Option PacketBuf) :
    Reassembles sess (resilienceCheck v sess dataBuf parityBuf).1 := by
  unfold resilienceCheck
  split
  · exact Reassembles.refl sess
  · have tracked :=
      (reassembles_of_windows sess
        (sameWindows_resilienceRecordRx sess.resilience 0 0)).trans
        (reassembles_trackData v _ dataBuf)
    dsimp only
    split
    · exact tracked.trans (reassembles_trackParity v _ parityBuf)
    · exact tracked

theorem sessionEncCheck_core
    (C : CryptoSuite) (v : PacketView) (sess : Session) :
    SameCore sess (sessionEncCheck C v sess).1 := by
  unfold sessionEncCheck
  split
  · exact SameCore.refl sess
  · split
    · exact SameCore.refl sess
    · split
      · exact ⟨rfl, rfl, rfl, rfl⟩
      · exact SameCore.refl sess

theorem seqCheck_core (sess : Session) (v : PacketView) :
    SameCore sess (seqCheck sess v).1 := by
  unfold seqCheck
  split
  · exact SameCore.refl sess
  · split <;> exact ⟨rfl, rfl, rfl, rfl⟩

theorem processFecRecovered_core
    (C : CryptoSuite) (sess : Session) (rec : PacketBuf) :
    SameCore sess (processFecRecovered C sess rec).1 := by
  unfold processFecRecovered
  cases packetParse rec with
  | none =>
      exact SameCore.refl sess
  | some view =>
      dsimp only
      split
      · exact SameCore.refl sess
      · have checked := sessionEncCheck_core C view sess
        cases (sessionEncCheck C view sess).2 with
        | none =>
            exact checked
        | some view' =>
            exact checked.trans (seqCheck_core _ view')

theorem drainRecovered_core (C : CryptoSuite) (sess : Session) :
    SameCore sess (drainRecovered C sess).1 := by
  unfold drainRecovered
  cases sess.fecRecovered with
  | none =>
      exact SameCore.refl sess
  | some rec =>
      have core :=
        processFecRecovered_core C { sess with fecRecovered := none } rec
      exact ⟨core.state, core.role, core.sessionId, core.keys⟩

/-! ## The gates in front of the cipher -/

/-- The layers in front of `session_check` let the packet through. -/
def PassesFilters (env : InboundEnv) (filters : Filters) (p : PacketBuf) :
    Prop :=
  ∃ raw, packetParse p = some raw ∧
    (offensiveCheck filters.offensive raw env.now).2 = true ∧
    (antiAnalysisCheck filters.anti raw env.now).2 = true ∧
    staticCheck raw = true ∧ kernelFilterCheck filters.kernel raw = true

instance (env : InboundEnv) (filters : Filters) (p : PacketBuf) :
    Decidable (PassesFilters env filters p) :=
  decidable_of_iff
    ((packetParse p).any fun raw =>
      (offensiveCheck filters.offensive raw env.now).2 &&
      (antiAnalysisCheck filters.anti raw env.now).2 &&
      staticCheck raw && kernelFilterCheck filters.kernel raw) <| by
      simp [PassesFilters, Option.any_eq_true, and_assoc]

/-- Packet `p` reaches the cipher with view `view` and session `sess'`. -/
structure PassesGates
    (env : InboundEnv) (filters : Filters) (sess : Session) (p : PacketBuf)
    (view : PacketView) (sess' : Session) : Prop where
  parsed : ∃ raw, packetParse p = some raw ∧
    (offensiveCheck filters.offensive raw env.now).2 = true ∧
    (antiAnalysisCheck filters.anti raw env.now).2 = true ∧
    staticCheck raw = true ∧
    kernelFilterCheck filters.kernel raw = true ∧
    sessionCheck sess raw = some view
  resilient :
    resilienceCheck view sess env.dataBuf env.parityBuf = (sess', true)

/-- The verdicts of the stages in front of the cipher. -/
def PipelineResult.beforeCipher : PipelineResult → Bool
  | .ok | .dropSessionEnc | .dropSeq | .dropDemux => false
  | _ => true

/-- What `pipeline_inbound_pre_crypto` can do. -/
theorem pipelineInboundPreCrypto_cases
    (env : InboundEnv) (filters : Filters) (sess : Option Session)
    (p : PacketBuf) :
    let pre := pipelineInboundPreCrypto env filters sess p
    (pre.result.beforeCipher = true ∧ pre.view = none ∧
        Option.Rel Reassembles sess pre.sess) ∨
      ∃ s view s',
        sess = some s ∧ pre.result = .ok ∧ pre.view = some view ∧
          pre.sess = some s' ∧ PassesGates env filters s p view s' := by
  have same : Option.Rel Reassembles sess sess := by
    cases sess with
    | none =>
        exact Option.Rel.none
    | some s =>
        exact Option.Rel.some (Reassembles.refl s)
  unfold pipelineInboundPreCrypto
  cases parsed : packetParse p with
  | none =>
      exact Or.inl ⟨rfl, rfl, same⟩
  | some raw =>
      dsimp only
      split
      · exact Or.inl ⟨rfl, rfl, same⟩
      · rename_i offensive
        split
        · exact Or.inl ⟨rfl, rfl, same⟩
        · rename_i anti
          split
          · exact Or.inl ⟨rfl, rfl, same⟩
          · rename_i static
            split
            · exact Or.inl ⟨rfl, rfl, same⟩
            · rename_i kernel
              cases sess with
              | none =>
                  exact Or.inl ⟨rfl, rfl, same⟩
              | some s =>
                  dsimp only
                  cases checked : sessionCheck s raw with
                  | none =>
                      exact Or.inl ⟨rfl, rfl, same⟩
                  | some view =>
                      dsimp only
                      have moved := reassembles_resilienceCheck view s
                        env.dataBuf env.parityBuf
                      split
                      · exact Or.inl ⟨rfl, rfl, Option.Rel.some moved⟩
                      · rename_i resilient
                        refine Or.inr ⟨s, view, _, rfl, rfl, rfl, rfl, ?_⟩
                        exact
                          { parsed :=
                              ⟨raw, parsed, by simpa using offensive,
                                by simpa using anti, by simpa using static,
                                by simpa using kernel, checked⟩
                            resilient :=
                              Prod.ext rfl (by simpa using resilient) }

theorem PassesGates.preCrypto
    {env : InboundEnv} {filters : Filters} {sess : Session} {p : PacketBuf}
    {view : PacketView} {sess' : Session}
    (gates : PassesGates env filters sess p view sess') :
    (pipelineInboundPreCrypto env filters (some sess) p).view = some view ∧
      (pipelineInboundPreCrypto env filters (some sess) p).sess =
        some sess' := by
  obtain ⟨⟨raw, parsed, offensive, anti, static, kernel, checked⟩,
    resilient⟩ := gates
  simp [pipelineInboundPreCrypto, parsed, offensive, anti, static, kernel,
    checked, resilient]

theorem PassesGates.reassembles
    {env : InboundEnv} {filters : Filters} {sess : Session} {p : PacketBuf}
    {view : PacketView} {sess' : Session}
    (gates : PassesGates env filters sess p view sess') :
    Reassembles sess sess' := by
  have moved :=
    reassembles_resilienceCheck view sess env.dataBuf env.parityBuf
  rwa [gates.resilient] at moved

/-- A packet that the filters or the session gate refuse goes no further, and
the session stays as it is. -/
theorem preCrypto_refused
    {env : InboundEnv} {filters : Filters} {s : Session} {p : PacketBuf}
    (refused :
      ∀ raw, packetParse p = some raw → PassesFilters env filters p →
        sessionCheck s raw = none) :
    (pipelineInboundPreCrypto env filters (some s) p).view = none ∧
      (pipelineInboundPreCrypto env filters (some s) p).sess = some s := by
  unfold pipelineInboundPreCrypto
  cases parsed : packetParse p with
  | none =>
      exact ⟨rfl, rfl⟩
  | some raw =>
      dsimp only
      split
      · exact ⟨rfl, rfl⟩
      · rename_i offensive
        split
        · exact ⟨rfl, rfl⟩
        · rename_i anti
          split
          · exact ⟨rfl, rfl⟩
          · rename_i static
            split
            · exact ⟨rfl, rfl⟩
            · rename_i kernel
              have passes : PassesFilters env filters p :=
                ⟨raw, parsed, by simpa using offensive, by simpa using anti,
                  by simpa using static, by simpa using kernel⟩
              simp only [refused raw parsed passes]
              exact ⟨trivial, trivial⟩

theorem PassesFilters.nonempty
    {env : InboundEnv} {filters : Filters} {p : PacketBuf} {v : PacketView}
    (passes : PassesFilters env filters p) (parsed : packetParse p = some v) :
    1 ≤ v.payloadBytes.length := by
  obtain ⟨raw, parsed', -, -, static, -⟩ := passes
  rw [parsed] at parsed'
  cases parsed'
  rw [PacketView.payloadBytes, length_memSlice]
  exact nonempty_of_staticCheck static

/-- Whatever the verdict, the gates touch the metrics and the reassembly
only. -/
theorem reassembles_pipelineInboundPreCrypto
    (env : InboundEnv) (filters : Filters) (sess : Option Session)
    (p : PacketBuf) :
    Option.Rel Reassembles sess
      (pipelineInboundPreCrypto env filters sess p).sess := by
  rcases pipelineInboundPreCrypto_cases env filters sess p with
    ⟨-, -, moved⟩ | ⟨s, view, s', same, -, -, kept, gates⟩
  · exact moved
  · rw [same, ← same, kept, same]
    exact Option.Rel.some gates.reassembles

/-- What `session_check` can let through. -/
theorem sessionCheck_cases
    {s : Session} {v view : PacketView}
    (checked : sessionCheck s v = some view) :
    (v.channelId = chControl ∧ view = v) ∨
      v.channelId ≠ chControl ∧
        ((s.resilience.multipathEnabled = true ∧
            ∃ i, matchPath s (sinPort v.buf.addr) = some i ∧
              view = { v with pathIdx := i }) ∨
          s.resilience.multipathEnabled ≠ true ∧
            view = { v with pathIdx := 0 }) := by
  unfold sessionCheck at checked
  by_cases control : v.channelId = chControl
  · rw [if_pos control] at checked
    refine Or.inl ⟨control, ?_⟩
    split at checked
    · exact (Option.some.inj checked).symm
    · split at checked
      · exact (Option.some.inj checked).symm
      · cases checked
  · rw [if_neg control] at checked
    refine Or.inr ⟨control, ?_⟩
    by_cases open' : s.state ≠ .locked
    · rw [if_pos open'] at checked
      cases checked
    rw [if_neg open'] at checked
    by_cases noAddr : s.addrLen = 0
    · rw [if_pos noAddr] at checked
      cases checked
    rw [if_neg noAddr] at checked
    by_cases foreign : s.sessionId ≠ 0 ∧ v.sessionId ≠ s.sessionId
    · rw [if_pos foreign] at checked
      cases checked
    rw [if_neg foreign] at checked
    by_cases size : v.buf.addrLen ≠ s.addrLen
    · rw [if_pos size] at checked
      cases checked
    rw [if_neg size] at checked
    by_cases family : sinFamily v.buf.addr ≠ sinFamily s.addr
    · rw [if_pos family] at checked
      cases checked
    rw [if_neg family] at checked
    by_cases host : sin6Addr v.buf.addr ≠ sin6Addr s.addr
    · rw [if_pos host] at checked
      cases checked
    rw [if_neg host] at checked
    by_cases multipath : s.resilience.multipathEnabled = true
    · rw [if_pos multipath] at checked
      obtain ⟨i, found, view⟩ := Option.map_eq_some_iff.mp checked
      exact Or.inl ⟨multipath, i, found, view.symm⟩
    · rw [if_neg multipath] at checked
      by_cases port : sinPort v.buf.addr ≠ sinPort s.addr
      · rw [if_pos port] at checked
        cases checked
      rw [if_neg port] at checked
      exact Or.inr ⟨multipath, (Option.some.inj checked).symm⟩

/-- `session_check` changes nothing of a view but its path index. -/
theorem sessionCheck_view
    {s : Session} {v view : PacketView}
    (checked : sessionCheck s v = some view) :
    view = { v with pathIdx := view.pathIdx } := by
  rcases sessionCheck_cases checked with
    ⟨_, rfl⟩ | ⟨_, ⟨_, i, _, rfl⟩ | ⟨_, rfl⟩⟩
  · rfl
  · rfl
  · rfl

/-- The view that reaches the cipher is the parse of the packet. -/
theorem PassesGates.view_eq
    {env : InboundEnv} {filters : Filters} {sess : Session} {p : PacketBuf}
    {view : PacketView} {sess' : Session}
    (gates : PassesGates env filters sess p view sess') :
    ∃ raw,
      packetParse p = some raw ∧ view = { raw with pathIdx := view.pathIdx } := by
  obtain ⟨raw, parsed, _, _, _, _, checked⟩ := gates.parsed
  exact ⟨raw, parsed, sessionCheck_view checked⟩

/-! ## Acceptance -/

section

variable (C : CryptoSuite) (env : InboundEnv) (filters : Filters)
  (sess : Session) (rxq : RxQueues) (p : PacketBuf)

/-- The packet carries a tag that verifies under the session key. -/
def Authenticated : Prop :=
  ∃ v, packetParse p = some v ∧ v.encrypted = true ∧ TagVerifies C sess v

/-- Every layer other than the cipher lets the packet through. -/
def AcceptedPlain : Prop :=
  ∃ view sess', PassesGates env filters sess p view sess' ∧
    (seqCheck (drainRecovered C sess').1 view).2 = true ∧
    (rxDemuxPush rxq view.buf view.channelId).1 = true

theorem pipelineInboundProcess_ok_iff :
    (pipelineInboundProcess C env filters sess rxq p).1 = .ok ↔
      ∃ view sess', PassesGates env filters sess p view sess' ∧
        (pipelineInboundPostCrypto C sess' rxq view).result = .ok := by
  unfold pipelineInboundProcess
  constructor
  · intro ok
    rcases pipelineInboundPreCrypto_cases env filters (some sess) p with
      ⟨early, noView, _⟩ | ⟨s, view, sess', same, _, reached, kept, gates⟩
    · have refused :
          (pipelineInboundPreCrypto env filters (some sess) p).result ≠
            .ok := by
        intro passed
        rw [passed] at early
        cases early
      simp only [noView] at ok
      cases kept : (pipelineInboundPreCrypto env filters (some sess) p).sess
      · exact absurd (by simpa only [kept] using ok) refused
      · exact absurd (by simpa only [kept] using ok) refused
    · cases same
      simp only [reached, kept] at ok
      exact ⟨view, sess', gates, ok⟩
  · rintro ⟨view, sess', gates, ok⟩
    obtain ⟨reached, kept⟩ := gates.preCrypto
    simpa only [reached, kept] using ok

theorem pipelineInboundPostCrypto_plain
    {view : PacketView} (plain : view.encrypted = false) :
    (pipelineInboundPostCrypto C sess rxq view).result = .ok ↔
      (seqCheck (drainRecovered C sess).1 view).2 = true ∧
        (rxDemuxPush rxq view.buf view.channelId).1 = true := by
  simp only [pipelineInboundPostCrypto, plain, Bool.false_eq_true, if_false]
  cases (seqCheck (drainRecovered C sess).1 view).2 <;>
    cases (rxDemuxPush rxq view.buf view.channelId).1 <;> simp

theorem pipelineInboundPostCrypto_encrypted
    {view : PacketView} (encrypted : view.encrypted = true)
    (ok : (pipelineInboundPostCrypto C sess rxq view).result = .ok) :
    ∃ view', (sessionEncCheck C view (drainRecovered C sess).1).2 =
      some view' := by
  simp only [pipelineInboundPostCrypto, encrypted, if_true] at ok
  cases checked : (sessionEncCheck C view (drainRecovered C sess).1).2 with
  | none =>
      simp [checked] at ok
  | some view' =>
      exact ⟨view', rfl⟩

/-- On a data channel of a locked session, whatever the pipeline accepts is
authenticated exactly when the packet carries the encrypted flag or another
layer refuses it. -/
theorem pipelineInboundProcess_authenticated_iff
    (locked : sess.state = .locked) (data : p.data 14 ≠ chControl) :
    ((pipelineInboundProcess C env filters sess rxq p).1 = .ok →
        Authenticated C sess p) ↔
      (p.data 5 &&& packetFlagEncrypted ≠ 0 ∨
        ¬ AcceptedPlain C env filters sess rxq p) := by
  rw [pipelineInboundProcess_ok_iff]
  constructor
  · intro sound
    by_cases flagged : p.data 5 &&& packetFlagEncrypted ≠ 0
    · exact Or.inl flagged
    · refine Or.inr fun accepted => flagged ?_
      obtain ⟨view, sess', gates, fresh, room⟩ := accepted
      obtain ⟨raw, parsed, viewEq⟩ := gates.view_eq
      have fields := parsedAs_of_packetParse parsed
      have plain : view.encrypted = false := by
        rw [viewEq]
        simpa using mt fields.encrypted.mp flagged
      obtain ⟨v, parsed', encrypted, _⟩ :=
        sound ⟨view, sess', gates,
          (pipelineInboundPostCrypto_plain C sess' rxq plain).mpr
            ⟨fresh, room⟩⟩
      exact (parsedAs_of_packetParse parsed').encrypted.mp encrypted
  · rintro condition ⟨view, sess', gates, ok⟩
    obtain ⟨raw, parsed, viewEq⟩ := gates.view_eq
    have fields := parsedAs_of_packetParse parsed
    have sameFlag : view.encrypted = raw.encrypted := by
      rw [viewEq]
    have core : SameCore sess (drainRecovered C sess').1 := by
      exact gates.reassembles.untouched.toSameCore.trans
        (drainRecovered_core C sess')
    cases encrypted : view.encrypted with
    | true =>
        obtain ⟨view', checked⟩ :=
          pipelineInboundPostCrypto_encrypted C sess' rxq encrypted ok
        have onData : view.channelId ≠ chControl := by
          rw [viewEq]
          simpa [fields.channelId] using data
        have verified := tagVerifies_of_sessionEncCheck
          (core.state.trans locked) onData checked
        refine ⟨raw, parsed, sameFlag.symm.trans encrypted, ?_⟩
        rw [viewEq] at verified
        simpa only [TagVerifies, PacketView.payloadBytes, core.keys]
          using verified
    | false =>
        exfalso
        rcases condition with flagged | refused
        · have set := fields.encrypted.mpr flagged
          rw [← sameFlag, encrypted] at set
          cases set
        · have rest :=
            (pipelineInboundPostCrypto_plain C sess' rxq encrypted).mp ok
          exact refused ⟨view, sess', gates, rest⟩

end

end PqComm
