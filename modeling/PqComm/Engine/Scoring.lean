import PqComm.Engine.Poll

/-!
# The score of a source

`anti_analysis_check` counts the anomalous packets of a source and drops what
it sends while ten points for each of them, less one point for each packet in
order since the last, make fifty or more.  It takes channel 6 and the two
flags together for anomalies, which `static_check` accepts, and decoys of the
peer count as well.
-/

namespace PqComm

open Lib

abbrev Source := Bytes × UInt16

/-- The datagram of a packet is a decoy. -/
def IsDecoy (v : PacketView) : Prop :=
  ∃ buf noise target,
    packetParse v.buf = some v ∧
      v.buf.wire = (offensiveBuildDecoy buf noise target).wire

/-- Packets with the time of their check. -/
abbrev Arrivals := List (PacketView × UInt64)

/-- All that the source sends is accepted by `static_check` or a decoy. -/
def Legitimate (src : Source) (arrivals : Arrivals) : Prop :=
  ∀ arrival ∈ arrivals, packetSource arrival.1.buf = some src →
    staticCheck arrival.1 = true ∨ IsDecoy arrival.1

/-- No packet of the source that `static_check` accepts is refused. -/
def Spares (src : Source) : AntiAnalysis → Arrivals → Prop
  | _, [] => True
  | aa, (v, now) :: rest =>
      (packetSource v.buf = some src → staticCheck v = true →
        (antiAnalysisCheck aa v now).2 = true) ∧
      Spares src (antiAnalysisCheck aa v now).1 rest

instance decidableSpares (src : Source) :
    (aa : AntiAnalysis) → (arrivals : Arrivals) →
      Decidable (Spares src aa arrivals)
  | _, [] => isTrue trivial
  | aa, (v, now) :: rest =>
      @instDecidableAnd _ _
        (inferInstance :
          Decidable
            (packetSource v.buf = some src → staticCheck v = true →
              (antiAnalysisCheck aa v now).2 = true))
        (decidableSpares src (antiAnalysisCheck aa v now).1 rest)

/-! ## What a source has sent -/

/-- The anomalous packets of a source, and the others since the last one. -/
structure Tally where
  bad : Nat := 0
  goodSince : Nat := 0

def Tally.note (t : Tally) (v : PacketView) : Tally :=
  if isBad v then
    { bad := t.bad + 1, goodSince := 0 }
  else
    { t with goodSince := t.goodSince + 1 }

/-- The tally after a packet. -/
def Tally.after (t : Tally) (src : Source) (v : PacketView) : Tally :=
  if packetSource v.buf = some src then t.note v else t

/-- Four anomalous packets are tolerated, and after more of them ten others
for each one beyond five. -/
def Tally.Tolerates (t : Tally) (v : PacketView) : Prop :=
  if isBad v then t.bad < 4 else 10 * t.bad ≤ 50 + t.goodSince

instance (t : Tally) (v : PacketView) : Decidable (t.Tolerates v) :=
  inferInstanceAs
    (Decidable (if isBad v then t.bad < 4 else 10 * t.bad ≤ 50 + t.goodSince))

/-- What the source has sent before makes none of its packets that
`static_check` accepts one too many. -/
def Tolerable (src : Source) : Tally → Arrivals → Prop
  | _, [] => True
  | t, (v, _) :: rest =>
      (packetSource v.buf = some src → staticCheck v = true →
        t.Tolerates v) ∧
      Tolerable src (t.after src v) rest

instance decidableTolerable (src : Source) :
    (t : Tally) → (arrivals : Arrivals) →
      Decidable (Tolerable src t arrivals)
  | _, [] => isTrue trivial
  | t, (v, _) :: rest =>
      @instDecidableAnd _ _
        (inferInstance :
          Decidable
            (packetSource v.buf = some src → staticCheck v = true →
              t.Tolerates v))
        (decidableTolerable src (t.after src v) rest)

/-! ## The table -/

def AaSource.key (s : AaSource) : Source :=
  (s.addr, s.port)

/-- Each source has one entry. -/
def DistinctKeys (sources : List AaSource) : Prop :=
  ∀ (i j : Nat) (s t : AaSource), sources[i]? = some s → sources[j]? = some t →
    s.key = t.key → i = j

/-- What the entry of a source owes to its tally. -/
structure Charged (t : Tally) (s : AaSource) : Prop where
  bad : s.badPackets.toNat ≤ t.bad
  score : s.score.toNat ≤ 10 * t.bad - t.goodSince

structure ScoreInv (src : Source) (t : Tally) (sources : List AaSource) :
    Prop where
  distinct : DistinctKeys sources
  charged : ∀ s ∈ sources, s.key = src → Charged t s

/-- An eviction moves the last entry and drops one. -/
theorem evictAt_get
    {α : Type} {entries : List α} {i j : Nat} {x : α}
    (found : (evictAt entries i)[j]? = some x) :
    entries[if j = i then entries.length - 1 else j]? = some x ∧
      j < entries.length - 1 := by
  unfold evictAt at found
  split at found
  · rename_i empty
    rw [List.getLast?_eq_none_iff.mp empty] at found
    cases found
  · rename_i last latest
    rw [List.getElem?_dropLast, List.length_set] at found
    split at found
    · rename_i inside
      refine ⟨?_, inside⟩
      by_cases moved : j = i
      · subst moved
        rw [List.getElem?_set_self (by omega)] at found
        rw [if_pos rfl, ← List.getLast?_eq_getElem?, latest]
        exact found
      · rw [List.getElem?_set_ne (Ne.symm moved)] at found
        rw [if_neg moved]
        exact found
    · cases found

section

variable {src : Source} {t : Tally} {sources : List AaSource}

theorem ScoreInv.evicted (inv : ScoreInv src t sources) (i : Nat) :
    ScoreInv src t (evictAt sources i) where
  distinct := by
    intro j k s u first second same
    obtain ⟨first, inside⟩ := evictAt_get first
    obtain ⟨second, inside'⟩ := evictAt_get second
    have places := inv.distinct _ _ s u first second same
    split at places
    · split at places
      · omega
      · omega
    · split at places
      · omega
      · exact places
  charged := by
    intro s member mine
    obtain ⟨j, found⟩ := List.mem_iff_getElem?.mp member
    obtain ⟨found, -⟩ := evictAt_get found
    exact inv.charged s (List.mem_of_getElem? found) mine

/-- A new source has an empty entry. -/
theorem ScoreInv.created
    (inv : ScoreInv src t sources) {s : AaSource}
    (fresh : ∀ u ∈ sources, u.key ≠ s.key) (bad : s.badPackets = 0)
    (score : s.score = 0) : ScoreInv src t (sources ++ [s]) where
  distinct := by
    intro j k u w first second same
    by_cases old : j < sources.length
    · rw [List.getElem?_append_left old] at first
      by_cases old' : k < sources.length
      · rw [List.getElem?_append_left old'] at second
        exact inv.distinct j k u w first second same
      · have new : w = s := by
          rw [List.getElem?_append_right (Nat.not_lt.mp old')] at second
          exact List.mem_singleton.mp (List.mem_of_getElem? second)
        subst new
        exact absurd same (fresh u (List.mem_of_getElem? first))
    · have bound := (List.getElem?_eq_some_iff.mp first).1
      rw [List.length_append, List.length_singleton] at bound
      rw [List.getElem?_append_right (Nat.not_lt.mp old)] at first
      have new : u = s :=
        List.mem_singleton.mp (List.mem_of_getElem? first)
      subst new
      by_cases old' : k < sources.length
      · rw [List.getElem?_append_left old'] at second
        exact absurd same.symm (fresh w (List.mem_of_getElem? second))
      · have bound' := (List.getElem?_eq_some_iff.mp second).1
        rw [List.length_append, List.length_singleton] at bound'
        omega
  charged := by
    intro u member mine
    rcases List.mem_append.mp member with old | new
    · exact inv.charged u old mine
    · rw [List.mem_singleton.mp new]
      exact ⟨by rw [bad]; exact Nat.zero_le _,
        by rw [score]; exact Nat.zero_le _⟩

/-- `aa_find_or_create` keeps the entries and gives the index of the one of
its source, unless it has none. -/
theorem ScoreInv.found
    {aa : AntiAnalysis} (inv : ScoreInv src t aa.sources) (addr : Bytes)
    (port : UInt16) (now : UInt64) :
    ScoreInv src t (aaFindOrCreate aa addr port now).1.sources ∧
      match (aaFindOrCreate aa addr port now).2 with
      | some i =>
          ∃ s, (aaFindOrCreate aa addr port now).1.sources[i]? = some s ∧
            s.key = (addr, port)
      | none =>
          ∀ u ∈ (aaFindOrCreate aa addr port now).1.sources,
            u.key ≠ (addr, port) := by
  unfold aaFindOrCreate
  split
  · rename_i i present
    refine ⟨inv, ?_⟩
    dsimp only
    obtain ⟨inside, matching, -⟩ :=
      List.findIdx?_eq_some_iff_getElem.mp present
    refine ⟨aa.sources[i], List.getElem?_eq_getElem inside, ?_⟩
    rw [Bool.and_eq_true, beq_iff_eq, beq_iff_eq] at matching
    exact Prod.ext matching.1 matching.2
  · rename_i absent
    have fresh : ∀ u ∈ aa.sources, u.key ≠ (addr, port) := by
      intro u member same
      have differs := List.findIdx?_eq_none_iff.mp absent u member
      rw [Bool.and_eq_false_iff] at differs
      rcases differs with addr' | port'
      · exact absurd (congrArg Prod.fst same) (beq_eq_false_iff_ne.mp addr')
      · exact absurd (congrArg Prod.snd same) (beq_eq_false_iff_ne.mp port')
    extract_lets evicted
    have kept :
        ScoreInv src t evicted.sources ∧
          ∀ u ∈ evicted.sources, u ∈ aa.sources := by
      dsimp only [evicted]
      split
      · refine ⟨inv.evicted _, ?_⟩
        intro u member
        obtain ⟨j, here⟩ := List.mem_iff_getElem?.mp member
        exact List.mem_of_getElem? (evictAt_get here).1
      · exact ⟨inv, fun u member => member⟩
    clear_value evicted
    split
    · exact ⟨kept.1, fun u member => fresh u (kept.2 u member)⟩
    · refine ⟨kept.1.created (fun u member => fresh u (kept.2 u member))
        rfl rfl, ?_⟩
      exact ⟨_, List.getElem?_concat_length, rfl⟩

/-! ## One packet -/

/-- An anomalous packet costs ten points for each so far; any other pays one
back. -/
theorem Charged.scored
    {s : AaSource} (charged : Charged t s) (v : PacketView) (now : UInt64) :
    Charged (t.note v) (aaScore s v now) := by
  have bad := charged.bad
  have score := charged.score
  unfold aaScore Tally.note
  by_cases anomalous : isBad v = true
  · rw [if_pos anomalous]
    dsimp only
    rw [if_pos anomalous]
    have counted : (s.badPackets + 1).toNat ≤ t.bad + 1 := by
      rw [UInt32.toNat_add]
      exact Nat.le_trans (Nat.mod_le _ _) (Nat.add_le_add_right bad 1)
    refine ⟨counted, ?_⟩
    change ((s.badPackets + 1) * 10).toNat ≤ 10 * (t.bad + 1) - 0
    rw [UInt32.toNat_mul]
    have product : (s.badPackets + 1).toNat * 10 ≤ 10 * (t.bad + 1) := by
      omega
    exact Nat.le_trans (Nat.mod_le _ _) product
  · rw [if_neg anomalous]
    dsimp only
    rw [if_neg anomalous]
    split
    · rename_i positive
      refine ⟨bad, ?_⟩
      have one : (1 : UInt32) ≤ s.score := by
        rw [UInt32.le_iff_toNat_le]
        exact positive
      change (s.score - 1).toNat ≤ 10 * t.bad - (t.goodSince + 1)
      rw [UInt32.toNat_sub_of_le _ _ one]
      change s.score.toNat - 1 ≤ _
      omega
    · rename_i spent
      refine ⟨bad, ?_⟩
      have zero : s.score.toNat = 0 := by
        have small := UInt32.not_lt.mp spent
        exact Nat.le_zero.mp (UInt32.le_iff_toNat_le.mp small)
      change s.score.toNat ≤ _
      omega

theorem aaScore_key (s : AaSource) (v : PacketView) (now : UInt64) :
    (aaScore s v now).key = s.key := by
  unfold aaScore
  dsimp only
  split
  · rfl
  · split
    · rfl
    · rfl

/-- A tolerated packet is not refused for its score. -/
theorem Charged.passes
    {s : AaSource} {v : PacketView} {now : UInt64}
    (charged : Charged (t.note v) (aaScore s v now))
    (tolerated : t.Tolerates v) :
    (!(decide ((aaScore s v now).score ≥ 100) ||
      decide ((aaScore s v now).score ≥ 50))) = true := by
  have small : (aaScore s v now).score.toNat < 50 := by
    have score := charged.score
    unfold Tally.note at score
    unfold Tally.Tolerates at tolerated
    split at tolerated
    · rename_i anomalous
      rw [if_pos anomalous] at score
      dsimp only at score
      omega
    · rename_i anomalous
      rw [if_neg anomalous] at score
      dsimp only at score
      omega
  have below (limit : UInt32) (large : 50 ≤ limit.toNat) :
      ¬ (aaScore s v now).score ≥ limit := by
    intro reached
    have reached := UInt32.le_iff_toNat_le.mp reached
    omega
  rw [decide_eq_false (below 100 (by decide)),
    decide_eq_false (below 50 (by decide))]
  rfl

/-- The entry at `i` is replaced by its new score. -/
theorem ScoreInv.set
    (inv : ScoreInv src t sources) {i : Nat} {s : AaSource}
    (here : sources[i]? = some s) {v : PacketView} (now : UInt64)
    (source : packetSource v.buf = some s.key) :
    ScoreInv src (t.after src v) (sources.set i (aaScore s v now)) where
  distinct := by
    -- The keys are where they were.
    have kept : ∀ (j : Nat) (u : AaSource),
        (sources.set i (aaScore s v now))[j]? = some u →
          ∃ w : AaSource, sources[j]? = some w ∧ w.key = u.key := by
      intro j u found
      by_cases mine : i = j
      · subst mine
        rw [List.getElem?_set_self (List.getElem?_eq_some_iff.mp here).1]
          at found
        cases found
        exact ⟨s, here, (aaScore_key s v now).symm⟩
      · rw [List.getElem?_set_ne mine] at found
        exact ⟨u, found, rfl⟩
    intro j k u w first second same
    obtain ⟨u', first, key⟩ := kept j u first
    obtain ⟨w', second, key'⟩ := kept k w second
    exact inv.distinct j k u' w' first second
      (key.trans (same.trans key'.symm))
  charged := by
    intro u member mine
    obtain ⟨j, found⟩ := List.mem_iff_getElem?.mp member
    unfold Tally.after
    by_cases same : i = j
    · subst same
      rw [List.getElem?_set_self (List.getElem?_eq_some_iff.mp here).1]
        at found
      cases found
      rw [aaScore_key] at mine
      rw [source, mine, if_pos rfl]
      exact (inv.charged s (List.mem_of_getElem? here) mine).scored v now
    · rw [List.getElem?_set_ne same] at found
      have other : s.key ≠ src := by
        intro key
        exact same
          (inv.distinct i j s u here found (key.trans mine.symm))
      rw [source, if_neg (fun equal => other (Option.some.inj equal))]
      exact inv.charged u (List.mem_of_getElem? found) mine

/-- One check keeps the table in line with the tally, and lets a tolerated
packet pass. -/
theorem ScoreInv.checked
    {aa : AntiAnalysis} (inv : ScoreInv src t aa.sources) (v : PacketView)
    (now : UInt64) :
    ScoreInv src (t.after src v) (antiAnalysisCheck aa v now).1.sources ∧
      (packetSource v.buf = some src → t.Tolerates v →
        (antiAnalysisCheck aa v now).2 = true) := by
  unfold antiAnalysisCheck
  cases source : packetSource v.buf with
  | none =>
      refine ⟨?_, fun mine => by cases mine⟩
      unfold Tally.after
      rw [source, if_neg nofun]
      exact inv
  | some origin =>
      obtain ⟨addr, port⟩ := origin
      have found := inv.found addr port now
      dsimp only
      generalize aaFindOrCreate aa addr port now = result at found
      obtain ⟨next, index⟩ := result
      cases index with
      | none =>
          obtain ⟨kept, absent⟩ := found
          refine ⟨⟨kept.distinct, ?_⟩, fun _ _ => rfl⟩
          intro u member mine
          have other : (addr, port) ≠ src := by
            intro same
            exact absent u member (mine.trans same.symm)
          unfold Tally.after
          rw [source, if_neg (fun equal => other (Option.some.inj equal))]
          exact kept.charged u member mine
      | some i =>
          obtain ⟨kept, s, here, key⟩ := found
          dsimp only at kept here ⊢
          rw [here]
          dsimp only
          refine ⟨kept.set here now (by rw [source, key]), ?_⟩
          intro mine tolerated
          have mine := Option.some.inj mine
          have charged :=
            kept.charged s (List.mem_of_getElem? here) (key.trans mine)
          exact (charged.scored v now).passes tolerated

/-! ## Runs -/

theorem ScoreInv.spares
    {aa : AntiAnalysis} (inv : ScoreInv src t aa.sources)
    {arrivals : Arrivals} (tolerable : Tolerable src t arrivals) :
    Spares src aa arrivals := by
  induction arrivals generalizing aa t with
  | nil =>
      trivial
  | cons arrival rest hypothesis =>
      obtain ⟨v, now⟩ := arrival
      obtain ⟨kept, passes⟩ := inv.checked v now
      refine ⟨fun mine accepted => ?_, hypothesis kept tolerable.2⟩
      exact passes mine (tolerable.1 mine accepted)

end

/-- In every run in which a source sends no packet beyond what its tally
tolerates, none of its packets that `static_check` accepts is refused. -/
theorem tolerable_source_spared
    (src : Source) (arrivals : Arrivals)
    (tolerable : Tolerable src {} arrivals) : Spares src {} arrivals := by
  have start : ScoreInv src {} ({} : AntiAnalysis).sources := by
    refine ⟨?_, ?_⟩
    · intro i j s t here
      cases here
    · intro s member
      cases member
  exact start.spares tolerable

/-- Packets of one peer on a channel. -/
def peerPacket (channel : UInt8) (seq : UInt32) : PacketBuf :=
  (buildPacket default true 0 77 channel seq [1]).setAddr
    (resolvePeer (some (List.replicate 16 1)) 9000) sockaddrIn6Size

def peerArrivals (packets : List PacketBuf) : Arrivals :=
  packets.filterMap fun p => (packetParse p).map fun v => (v, 5000)

def peerSource : Source :=
  (List.replicate 16 1, 9000)

theorem tolerable_source_spared_call :
    Tolerable peerSource {}
        (peerArrivals
          [peerPacket chVideo 1, peerPacket chVideo 2, peerPacket chChat 3,
            peerPacket chVideo 4, peerPacket chAudio 5,
            peerPacket chVideo 6, peerPacket chChat 7]) ∧
      Spares peerSource {}
        (peerArrivals
          [peerPacket chVideo 1, peerPacket chVideo 2, peerPacket chChat 3,
            peerPacket chVideo 4, peerPacket chAudio 5,
            peerPacket chVideo 6, peerPacket chChat 7]) := by
  have tolerable :
      Tolerable peerSource {}
        (peerArrivals
          [peerPacket chVideo 1, peerPacket chVideo 2, peerPacket chChat 3,
            peerPacket chVideo 4, peerPacket chAudio 5,
            peerPacket chVideo 6, peerPacket chChat 7]) := by
    decide +kernel
  exact ⟨tolerable, tolerable_source_spared peerSource _ tolerable⟩

/-- Five video packets. -/
def videoArrivals : Arrivals :=
  peerArrivals ((List.range 5).map fun i =>
    peerPacket chVideo (UInt32.ofNat (i + 1)))

/-- The fifth video packet of a call is refused. -/
theorem fifth_video_packet_refused :
    ¬ ∀ (src : Source) (arrivals : Arrivals),
        Legitimate src arrivals → Spares src {} arrivals := by
  intro spares
  have accepted :
      (videoArrivals.all fun arrival => staticCheck arrival.1) = true := by
    decide +kernel
  have spared :=
    spares peerSource videoArrivals fun arrival member _ =>
      Or.inl (List.all_eq_true.mp accepted arrival member)
  exact absurd spared (by decide +kernel)

end PqComm
