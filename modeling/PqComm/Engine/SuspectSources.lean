import PqComm.Engine.Scoring
import PqComm.Layers.SourceLimiter

/-!
# The exact verdicts of the score

`Engine.Scoring` bounds the score of a source from above by all that it has
sent.  Here the score is read off exactly: it depends on the packets that came
from the source since its entry was made, and on nothing else.  When the table
is full, a source that is not in it passes.
-/

namespace PqComm

open Lib

def aaStep (aa : AntiAnalysis) (call : PacketView × UInt64) : AntiAnalysis :=
  (antiAnalysisCheck aa call.1 call.2).1

/-- The table that `anti_analysis_init` and some calls leave. -/
def aaTable (calls : Arrivals) : List AaSource :=
  (calls.foldl aaStep {}).sources

theorem foldl_aaStep_concat (calls : Arrivals) (call : PacketView × UInt64) :
    (calls ++ [call]).foldl aaStep {} =
      aaStep (calls.foldl aaStep {}) call := by
  rw [List.foldl_concat]

/-! ## What the score should be -/

/-- Which packets of a source were bad, in their order. -/
def badFlags (key : Source) (calls : Arrivals) : List Bool :=
  (calls.filter fun call =>
    decide (packetSource call.1.buf = some key)).map fun call => isBad call.1

/-- Ten for each bad packet, less one for each good one after the last of
them. -/
def scoreOf (flags : List Bool) : Nat :=
  10 * flags.count true % 2 ^ 32 - (flags.reverse.takeWhile (!·)).length

/-- The source has had an entry ever since the first packet of `during`, and
had none before. -/
structure ListedSince (key : Source) (before during : Arrivals) :
    Prop where
  absent : ∀ e ∈ aaTable before, e.key ≠ key
  listed : ∀ part, part ≠ [] → part <+: during →
    ∃ e ∈ aaTable (before ++ part), e.key = key

theorem badFlags_concat (key : Source) (calls : Arrivals)
    (call : PacketView × UInt64) :
    badFlags key (calls ++ [call]) =
      badFlags key calls ++
        if packetSource call.1.buf = some key then [isBad call.1] else [] := by
  unfold badFlags
  rw [List.filter_append, List.map_append]
  congr 1
  by_cases own : packetSource call.1.buf = some key
  · rw [if_pos own, List.filter_cons_of_pos (by simp [own])]
    rfl
  · rw [if_neg own, List.filter_cons_of_neg (by simp [own])]
    rfl

theorem scoreOf_bad (flags : List Bool) :
    scoreOf (flags ++ [true]) = 10 * (flags.count true + 1) % 2 ^ 32 := by
  unfold scoreOf
  rw [List.count_append, List.reverse_append]
  rfl

theorem scoreOf_good (flags : List Bool) :
    scoreOf (flags ++ [false]) = scoreOf flags - 1 := by
  unfold scoreOf
  rw [List.count_append, List.reverse_append]
  change 10 * (flags.count true + 0) % 2 ^ 32 -
    ((flags.reverse.takeWhile (!·)).length + 1) = _
  omega

/-- The entry of a source after a call extends what it stands for. -/
theorem ListedSince.extend
    {key : Source} {before during : Arrivals}
    (since : ListedSince key before during) {call : PacketView × UInt64}
    (still : ∃ e ∈ aaTable (before ++ (during ++ [call])), e.key = key) :
    ListedSince key before (during ++ [call]) where
  absent := since.absent
  listed := by
    intro part nonempty early
    rcases List.prefix_concat_iff.mp early with whole | inside
    · rw [whole]
      exact still
    · exact since.listed part nonempty inside

/-! ## One call -/

/-- The entry of a source that is new at `now`. -/
def aaFresh (key : Source) (now : UInt64) : AaSource :=
  { addr := key.1, port := key.2, lastSeenMs := now }

/-- What `aa_find_or_create` finds: the entry that the call works with, and
the others that are in the table then. -/
inductive AaLocated (entries : List AaSource) (key : Source)
    (now : UInt64) : AaSource → List AaSource → Prop where
  | found {s others} (held : entries.Perm (s :: others)) (own : s.key = key) :
      AaLocated entries key now s others
  | created {others} (absent : ∀ e ∈ entries, e.key ≠ key)
      (held : others.Subperm entries) (room : others.length < aaMaxSources) :
      AaLocated entries key now (aaFresh key now) others

/-- What a call does to the table, and its verdict. -/
theorem antiAnalysisCheck_spec
    {aa : AntiAnalysis} (fits : aa.sources.length ≤ aaMaxSources)
    {v : PacketView} {key : Source} (now : UInt64)
    (source : packetSource v.buf = some key) :
    ((∀ e ∈ aa.sources, e.key ≠ key) ∧
        antiAnalysisCheck aa v now = (aa, true)) ∨
      ∃ s others, AaLocated aa.sources key now s others ∧
        (antiAnalysisCheck aa v now).1.sources.Perm
          (aaScore s v now :: others) ∧
        (antiAnalysisCheck aa v now).2 =
          decide ((aaScore s v now).score < 50) := by
  have verdict (score : UInt32) :
      (!(decide (score ≥ 100) || decide (score ≥ 50))) =
        decide (score < 50) := by
    rw [Bool.eq_iff_iff]
    simp only [Bool.not_eq_true', Bool.or_eq_false_iff, decide_eq_false_iff_not,
      decide_eq_true_eq, UInt32.not_le, ge_iff_le]
    exact ⟨fun both => both.2, fun low => ⟨UInt32.lt_trans low (by decide), low⟩⟩
  unfold antiAnalysisCheck aaFindOrCreate
  rw [source]
  dsimp only
  cases place : aa.sources.findIdx? fun s =>
      s.addr == key.1 && s.port == key.2 with
  | some i =>
      obtain ⟨inside, same, -⟩ := List.findIdx?_eq_some_iff_getElem.mp place
      rw [Bool.and_eq_true, beq_iff_eq, beq_iff_eq] at same
      refine Or.inr ⟨aa.sources[i], aa.sources.eraseIdx i,
        AaLocated.found (List.getElem_cons_eraseIdx_perm inside).symm
          (Prod.ext same.1 same.2), ?_⟩
      dsimp only
      rw [List.getElem?_eq_getElem inside]
      exact ⟨List.set_perm_cons_eraseIdx inside _, verdict _⟩
  | none =>
      have absent : ∀ e ∈ aa.sources, e.key ≠ key := by
        intro e member same
        have differs := List.findIdx?_eq_none_iff.mp place e member
        rw [← same] at differs
        simp [AaSource.key] at differs
      -- A new entry is appended to the table and found at its end.
      have appended (table : AntiAnalysis)
          (held : table.sources.Subperm aa.sources)
          (room : ¬ table.sources.length ≥ aaMaxSources) :
          ∃ s others, AaLocated aa.sources key now s others ∧
            ((table.sources ++ [aaFresh key now]).set table.sources.length
              (aaScore (aaFresh key now) v now)).Perm
                (aaScore s v now :: others) ∧
            (aaScore (aaFresh key now) v now).score =
              (aaScore s v now).score := by
        refine ⟨_, table.sources,
          AaLocated.created absent held (Nat.not_le.mp room), ?_, rfl⟩
        rw [List.set_append_right _ _ (Nat.le_refl _), Nat.sub_self,
          List.set_cons_zero]
        exact List.perm_append_singleton _ _
      dsimp only
      by_cases evicts : aa.sources.length ≥ aaMaxSources ∧
          now - aa.lastEvictMs ≥ aa.evictIntervalMs
      · have filled : aa.sources ≠ [] := List.ne_nil_of_length_pos
          (Nat.lt_of_lt_of_le (by decide) evicts.1)
        obtain ⟨old, held, -⟩ :=
          evictAt_oldestIdx AaSource.lastSeenMs filled
        have smaller :
            (evictAt aa.sources
              (oldestIdx AaSource.lastSeenMs aa.sources)).length + 1 =
                aa.sources.length := by
          rw [held.length_eq]
          rfl
        have room :
            ¬ (evictAt aa.sources
              (oldestIdx AaSource.lastSeenMs aa.sources)).length ≥
                aaMaxSources := by
          omega
        obtain ⟨s, others, located, perm, score⟩ :=
          appended
            { aa with
              sources :=
                evictAt aa.sources (oldestIdx AaSource.lastSeenMs aa.sources)
              lastEvictMs := now }
            ((List.sublist_cons_self _ _).subperm.trans held.symm.subperm) room
        refine Or.inr ⟨s, others, located, ?_⟩
        simp only [if_pos evicts, if_neg room, List.getElem?_concat_length,
          verdict, ← score]
        exact ⟨perm, rfl⟩
      · by_cases full : aa.sources.length ≥ aaMaxSources
        · refine Or.inl ⟨absent, ?_⟩
          simp only [if_neg evicts, if_pos full]
        · obtain ⟨s, others, located, perm, score⟩ :=
            appended aa (List.Subperm.refl _) full
          refine Or.inr ⟨s, others, located, ?_⟩
          simp only [if_neg evicts, if_neg full, List.getElem?_concat_length,
            verdict, ← score]
          exact ⟨perm, rfl⟩

theorem antiAnalysisCheck_of_no_source
    (aa : AntiAnalysis) {v : PacketView} (now : UInt64)
    (none : packetSource v.buf = none) :
    antiAnalysisCheck aa v now = (aa, true) := by
  unfold antiAnalysisCheck
  rw [none]

/-- The others are entries of the table, and none of them is the source. -/
theorem AaLocated.others
    {entries others : List AaSource} {key : Source} {now : UInt64}
    {s : AaSource} (located : AaLocated entries key now s others)
    (distinct : (entries.map AaSource.key).Nodup) :
    s.key = key ∧ (others.map AaSource.key).Nodup ∧
      ∀ e ∈ others, e ∈ entries ∧ e.key ≠ key := by
  cases located with
  | found held own =>
      have both := (held.map AaSource.key).nodup_iff.mp distinct
      obtain ⟨fresh, rest⟩ := List.nodup_cons.mp both
      refine ⟨own, rest, fun e member => ⟨?_, fun same => fresh ?_⟩⟩
      · exact held.mem_iff.mpr (List.mem_cons_of_mem _ member)
      · rw [own, ← same]
        exact List.mem_map_of_mem member
  | created absent held room =>
      refine ⟨rfl, ?_, fun e member =>
        ⟨held.subset member, absent e (held.subset member)⟩⟩
      obtain ⟨ordered, perm, sublist⟩ := held
      rw [← (perm.map AaSource.key).nodup_iff]
      exact distinct.sublist (sublist.map _)

/-! ## Whole runs -/

/-- The counts of an entry are those of the packets that came from its source
since it was made. -/
def EntryScored (calls : Arrivals) (e : AaSource) : Prop :=
  ∃ before during, calls = before ++ during ∧
    ListedSince e.key before during ∧
    e.badPackets.toNat = (badFlags e.key during).count true % 2 ^ 32 ∧
    e.score.toNat = scoreOf (badFlags e.key during)

/-- The table after `calls`. -/
structure AaScored (calls : Arrivals) : Prop where
  fits : (aaTable calls).length ≤ aaMaxSources
  distinct : ((aaTable calls).map AaSource.key).Nodup
  scored : ∀ e ∈ aaTable calls, EntryScored calls e

section

variable {calls : Arrivals} {call : PacketView × UInt64} {e s : AaSource}
  {key : Source}

/-- A packet of another source leaves an entry that stays in the table. -/
theorem EntryScored.other
    (scored : EntryScored calls e)
    (elsewhere : packetSource call.1.buf ≠ some e.key)
    (stays : e ∈ aaTable (calls ++ [call])) :
    EntryScored (calls ++ [call]) e := by
  obtain ⟨before, during, split, since, bad, score⟩ := scored
  refine ⟨before, during ++ [call], ?_, ?_, ?_, ?_⟩
  · rw [split, List.append_assoc]
  · apply since.extend
    rw [← List.append_assoc, ← split]
    exact ⟨e, stays, rfl⟩
  · rw [badFlags_concat, if_neg elsewhere, List.append_nil, bad]
  · rw [badFlags_concat, if_neg elsewhere, List.append_nil, score]

/-- What a packet adds to the counts of its source. -/
theorem aaScore_counts
    {flags : List Bool}
    (bad : s.badPackets.toNat = flags.count true % 2 ^ 32)
    (score : s.score.toNat = scoreOf flags) (v : PacketView) (now : UInt64) :
    (aaScore s v now).badPackets.toNat =
        (flags ++ [isBad v]).count true % 2 ^ 32 ∧
      (aaScore s v now).score.toNat = scoreOf (flags ++ [isBad v]) := by
  unfold aaScore
  dsimp only
  cases verdict : isBad v with
  | true =>
      have count : (flags ++ [true]).count true = flags.count true + 1 :=
        List.count_append
      rw [scoreOf_bad, count]
      simp only [if_true, UInt32.toNat_add, UInt32.toNat_mul, bad]
      change (flags.count true % 2 ^ 32 + 1) % 2 ^ 32 = _ ∧
        (flags.count true % 2 ^ 32 + 1) % 2 ^ 32 * 10 % 2 ^ 32 = _
      omega
  | false =>
      have count : (flags ++ [false]).count true = flags.count true :=
        List.count_append
      rw [scoreOf_good, count, ← score]
      by_cases positive : s.score > 0
      · have least : (1 : UInt32) ≤ s.score := by
          rw [UInt32.le_iff_toNat_le]
          exact UInt32.lt_iff_toNat_lt.mp positive
        simp only [if_pos positive, Bool.false_eq_true, if_false]
        exact ⟨bad, UInt32.toNat_sub_of_le _ _ least⟩
      · have zero : s.score.toNat = 0 := by
          have below := mt UInt32.lt_iff_toNat_lt.mpr positive
          exact Nat.eq_zero_of_not_pos below
        simp only [if_neg positive, Bool.false_eq_true, if_false]
        exact ⟨bad, by rw [zero]⟩

theorem aaTable_concat :
    aaTable (calls ++ [call]) =
      (antiAnalysisCheck (calls.foldl aaStep {}) call.1 call.2).1.sources := by
  rw [aaTable, foldl_aaStep_concat]
  rfl

/-- The entry of the packet that has just been checked. -/
theorem EntryScored.own
    {others : List AaSource} (inv : AaScored calls)
    (source : packetSource call.1.buf = some key)
    (located : AaLocated (aaTable calls) key call.2 s others)
    (stays : aaScore s call.1 call.2 ∈ aaTable (calls ++ [call])) :
    EntryScored (calls ++ [call]) (aaScore s call.1 call.2) := by
  have own := (located.others inv.distinct).1
  have entry : ∃ before during, calls ++ [call] = before ++ (during ++ [call]) ∧
      ListedSince key before (during ++ [call]) ∧
      s.badPackets.toNat = (badFlags key during).count true % 2 ^ 32 ∧
      s.score.toNat = scoreOf (badFlags key during) := by
    have listed : ∃ e ∈ aaTable (calls ++ [call]), e.key = key :=
      ⟨_, stays, (aaScore_key _ _ _).trans own⟩
    cases located with
    | found held own =>
        obtain ⟨before, during, split, since, bad, score⟩ :=
          inv.scored s (held.mem_iff.mpr List.mem_cons_self)
        rw [own] at since bad score
        refine ⟨before, during, ?_, ?_, bad, score⟩
        · rw [split, List.append_assoc]
        · apply since.extend
          rwa [← List.append_assoc, ← split]
    | created absent held room =>
        refine ⟨calls, [], rfl, ⟨absent, ?_⟩, rfl, rfl⟩
        intro part nonempty early
        rcases List.prefix_concat_iff.mp early with whole | inside
        · rw [whole]
          exact listed
        · exact absurd (List.prefix_nil.mp inside) nonempty
  obtain ⟨before, during, split, since, bad, score⟩ := entry
  obtain ⟨bad', score'⟩ := aaScore_counts bad score call.1 call.2
  refine ⟨before, during ++ [call], split, ?_, ?_, ?_⟩
  · rw [aaScore_key, own]
    exact since
  · rw [aaScore_key, own, badFlags_concat, if_pos source, bad']
  · rw [aaScore_key, own, badFlags_concat, if_pos source, score']

theorem AaScored.step (inv : AaScored calls) : AaScored (calls ++ [call]) := by
  have unchanged
      (same :
        antiAnalysisCheck (calls.foldl aaStep {}) call.1 call.2 =
          (calls.foldl aaStep {}, true))
      (elsewhere :
        ∀ e ∈ aaTable calls, packetSource call.1.buf ≠ some e.key) :
      AaScored (calls ++ [call]) := by
    have table : aaTable (calls ++ [call]) = aaTable calls := by
      rw [aaTable_concat, same]
      rfl
    refine ⟨by rw [table]; exact inv.fits, by rw [table]; exact inv.distinct,
      fun e member => ?_⟩
    have before : e ∈ aaTable calls := by
      rwa [table] at member
    exact (inv.scored e before).other (elsewhere e before) member
  cases source : packetSource call.1.buf with
  | none =>
      exact unchanged (antiAnalysisCheck_of_no_source _ _ source)
        fun e _ => by rw [source]; exact nofun
  | some key =>
      rcases antiAnalysisCheck_spec inv.fits call.2 source with
        ⟨absent, same⟩ | ⟨s, others, located, perm, -⟩
      · refine unchanged same fun e member own => absent e member ?_
        rw [source] at own
        exact (Option.some.inj own).symm
      · rw [← aaTable_concat] at perm
        obtain ⟨own, distinct, apart⟩ := located.others inv.distinct
        constructor
        · rw [perm.length_eq]
          cases located with
          | found held _ =>
              exact Nat.le_trans (Nat.le_of_eq held.length_eq.symm) inv.fits
          | created _ _ room =>
              exact room
        · rw [(perm.map AaSource.key).nodup_iff, List.map_cons,
            List.nodup_cons]
          refine ⟨fun member => ?_, distinct⟩
          obtain ⟨e, inside, same⟩ := List.mem_map.mp member
          exact (apart e inside).2 (same.trans ((aaScore_key _ _ _).trans own))
        · intro e member
          rcases List.mem_cons.mp (perm.mem_iff.mp member) with head | tail
          · rw [head] at member ⊢
            exact EntryScored.own inv source located member
          · refine (inv.scored e (apart e tail).1).other ?_ member
            rw [source]
            intro same
            exact (apart e tail).2 (Option.some.inj same).symm

end

theorem aaScored_run (calls : Arrivals) : AaScored calls := by
  induction calls using List.reverseRecOn with
  | nil =>
      exact ⟨Nat.zero_le _, List.nodup_nil, nofun⟩
  | append_singleton calls call inductionHypothesis =>
      exact inductionHypothesis.step

/-- After any calls, the table holds at most 256 entries of different sources.
A packet of a source that is not in it then passes; otherwise the verdict is
whether ten for each bad packet, less one for each good one since the last of
them, is below fifty, over the packets of the source since it was listed. -/
theorem antiAnalysis_verdict
    (calls : Arrivals) (call : PacketView × UInt64) :
    ((aaTable calls).length ≤ aaMaxSources ∧
        ((aaTable calls).map AaSource.key).Nodup) ∧
      ∀ key, packetSource call.1.buf = some key →
        let verdict :=
          (antiAnalysisCheck (calls.foldl aaStep {}) call.1 call.2).2
        ((∀ e ∈ aaTable (calls ++ [call]), e.key ≠ key) ∧
            verdict = true) ∨
          ∃ before during, calls ++ [call] = before ++ during ∧
            ListedSince key before during ∧
            verdict = decide (scoreOf (badFlags key during) < 50) := by
  have inv := aaScored_run calls
  refine ⟨⟨inv.fits, inv.distinct⟩, fun key source => ?_⟩
  dsimp only
  rcases antiAnalysisCheck_spec inv.fits call.2 source with
    ⟨absent, same⟩ | ⟨s, others, located, perm, verdict⟩
  · refine Or.inl ⟨?_, by rw [same]⟩
    rw [aaTable_concat, same]
    exact absent
  · right
    rw [← aaTable_concat] at perm
    have own := (located.others inv.distinct).1
    obtain ⟨before, during, split, since, -, score⟩ :=
      EntryScored.own inv source located
        (perm.mem_iff.mpr List.mem_cons_self)
    rw [aaScore_key, own] at since score
    refine ⟨before, during, split, since, ?_⟩
    rw [verdict, ← score]
    congr 1

/-- The fifth packet with number zero is dropped, and the table has one entry
for its source. -/
theorem antiAnalysis_verdict_fifth :
    (antiAnalysisCheck
        ((List.replicate 4 (sampleUnknown 0)).foldl aaStep {})
        (sampleUnknown 0).1 (sampleUnknown 0).2).2 = false ∧
      (aaTable (List.replicate 4 (sampleUnknown 0))).length ≤ aaMaxSources :=
  ⟨by decide +kernel,
    (antiAnalysis_verdict (List.replicate 4 (sampleUnknown 0))
      (sampleUnknown 0)).1.1⟩

end PqComm
