import Mathlib.Data.List.Induction
import Mathlib.Data.List.Nodup
import Mathlib.Data.List.Perm.Basic
import PqComm.Layers.Filters

/-!
# The rate limiter of the sources

`offensive_check` keeps a table of sources.  Entries move when one is evicted,
so the lemmas speak of the table up to a permutation: it is the entry of the
packet, as the call leaves it, and the others.
-/

namespace PqComm

open Lib

/-! ## Eviction -/

section

variable {α : Type} {entries : List α}

/-- What `evictAt` takes out is the entry at the index. -/
theorem evictAt_perm
    {i : Nat} {old : α} (place : entries[i]? = some old) :
    entries.Perm (old :: evictAt entries i) := by
  obtain ⟨inside, rfl⟩ := List.getElem?_eq_some_iff.mp place
  have filled : entries ≠ [] := List.ne_nil_of_length_pos (by omega)
  obtain ⟨front, last, rfl⟩ : ∃ front last, entries = front ++ [last] :=
    ⟨entries.dropLast, entries.getLast filled,
      (List.dropLast_append_getLast filled).symm⟩
  unfold evictAt
  rw [List.getLast?_concat]
  dsimp only
  rw [List.length_append, List.length_singleton] at inside
  by_cases early : i < front.length
  · rw [List.set_append_left _ _ early, List.dropLast_concat,
      List.getElem_append_left early]
    have replaced := List.set_perm_cons_eraseIdx early last
    have erased := List.getElem_cons_eraseIdx_perm early
    calc
      (front ++ [last]).Perm (last :: front) := List.perm_append_singleton _ _
      _ |>.Perm (last :: front[i] :: front.eraseIdx i) :=
        erased.symm.cons last
      _ |>.Perm (front[i] :: last :: front.eraseIdx i) := List.Perm.swap _ _ _
      _ |>.Perm (front[i] :: front.set i last) := replaced.symm.cons _
  · have final : i = front.length := by
      omega
    subst final
    rw [List.set_append_right _ _ (Nat.le_refl _), Nat.sub_self,
      List.set_cons_zero, List.dropLast_concat,
      List.getElem_concat_length rfl]
    exact List.perm_append_singleton _ _

/-- One entry in the loop of `oldestIdx`. -/
def oldestStep (stamp : α → UInt64) (state : Nat × Nat × Option UInt64)
    (entry : α) : Nat × Nat × Option UInt64 :=
  let (i, oldest, best) := state
  match best with
  | none => (i + 1, i, some (stamp entry))
  | some time =>
      if stamp entry < time then
        (i + 1, i, some (stamp entry))
      else
        (i + 1, oldest, best)

/-- The loop of `oldestIdx` ends at an entry with the least stamp. -/
theorem oldestStep_fold
    (stamp : α → UInt64) (filled : entries ≠ []) :
    ∃ i old, entries[i]? = some old ∧
      entries.foldl (oldestStep stamp) (0, 0, none) =
        (entries.length, i, some (stamp old)) ∧
      ∀ entry ∈ entries, stamp old ≤ stamp entry := by
  induction entries using List.reverseRecOn with
  | nil => exact absurd rfl filled
  | append_singleton earlier entry inductionHypothesis =>
      rw [List.foldl_concat, List.length_append, List.length_singleton]
      by_cases first : earlier = []
      · subst first
        refine ⟨0, entry, rfl, rfl, fun other member => ?_⟩
        rw [List.mem_singleton.mp member]
        exact UInt64.le_refl _
      · obtain ⟨i, old, place, fold, least⟩ := inductionHypothesis first
        rw [fold, oldestStep]
        by_cases older : stamp entry < stamp old
        · refine ⟨earlier.length, entry, List.getElem?_concat_length, ?_,
            fun other member => ?_⟩
          · rw [if_pos older]
          · rcases List.mem_append.mp member with before | last
            · exact UInt64.le_trans (UInt64.le_of_lt older) (least other before)
            · rw [List.mem_singleton.mp last]
              exact UInt64.le_refl _
        · obtain ⟨inside, -⟩ := List.getElem?_eq_some_iff.mp place
          refine ⟨i, old, ?_, ?_, fun other member => ?_⟩
          · rw [List.getElem?_append_left inside, place]
          · rw [if_neg older]
          · rcases List.mem_append.mp member with before | last
            · exact least other before
            · rw [List.mem_singleton.mp last]
              exact UInt64.not_lt.mp older

/-- To evict the oldest entry takes out one with the least stamp. -/
theorem evictAt_oldestIdx (stamp : α → UInt64) (filled : entries ≠ []) :
    ∃ old, entries.Perm (old :: evictAt entries (oldestIdx stamp entries)) ∧
      ∀ entry ∈ entries, stamp old ≤ stamp entry := by
  obtain ⟨i, old, place, fold, least⟩ := oldestStep_fold stamp filled
  have same : oldestIdx stamp entries = i :=
    congrArg (fun state => state.2.1) fold
  rw [same]
  exact ⟨old, evictAt_perm place, least⟩

end

/-! ## One call -/

def OffSource.key (s : OffSource) : Bytes × UInt16 :=
  (s.addr, s.port)

/-- The entry of a source that is new at `now`. -/
def offFresh (key : Bytes × UInt16) (now : UInt64) : OffSource :=
  { addr := key.1, port := key.2, windowStartMs := now }

/-- The headers that `offensive_check` trusts. -/
def offTrusted (v : PacketView) : Prop :=
  v.sessionId ≠ 0 ∧ v.channelId ≥ 1 ∧ v.channelId ≤ 6 ∧
    v.magic = protoMagic ∧ v.version = 1

instance (v : PacketView) : Decidable (offTrusted v) :=
  inferInstanceAs (Decidable (_ ∧ _))

/-- What `off_find_or_create` does: the entry that the call works with, and
the others that are in the table then. -/
inductive Located (o : Offensive) (key : Bytes × UInt16) (now : UInt64) :
    OffSource → Offensive → Prop where
  | found {s others} (held : o.Perm (s :: others)) (own : s.key = key) :
      Located o key now s others
  | created (absent : ∀ e ∈ o, e.key ≠ key) (room : o.length < offMaxSources) :
      Located o key now (offFresh key now) o
  | evicted {old others} (absent : ∀ e ∈ o, e.key ≠ key)
      (full : offMaxSources ≤ o.length) (held : o.Perm (old :: others))
      (least : ∀ e ∈ o, old.windowStartMs ≤ e.windowStartMs) :
      Located o key now (offFresh key now) others

section

variable {o others : Offensive} {key : Bytes × UInt16} {now : UInt64}
  {s : OffSource}

theorem offFindOrCreate_located
    (o : Offensive) (key : Bytes × UInt16) (now : UInt64) :
    ∃ s others, Located o key now s others ∧
      (offFindOrCreate o key.1 key.2 now).1[
          (offFindOrCreate o key.1 key.2 now).2]? = some s ∧
      ∀ s', ((offFindOrCreate o key.1 key.2 now).1.set
        (offFindOrCreate o key.1 key.2 now).2 s').Perm (s' :: others) := by
  -- A new entry is appended to a table and found at its end.
  have appended (table : Offensive) :
      (table ++ [offFresh key now])[table.length]? =
          some (offFresh key now) ∧
        ∀ s', ((table ++ [offFresh key now]).set table.length s').Perm
          (s' :: table) := by
    refine ⟨List.getElem?_concat_length, fun s' => ?_⟩
    rw [List.set_append_right _ _ (Nat.le_refl _), Nat.sub_self,
      List.set_cons_zero]
    exact List.perm_append_singleton _ _
  unfold offFindOrCreate
  cases place : o.findIdx? fun s => s.addr == key.1 && s.port == key.2 with
  | some i =>
      obtain ⟨inside, same, -⟩ := List.findIdx?_eq_some_iff_getElem.mp place
      rw [Bool.and_eq_true, beq_iff_eq, beq_iff_eq] at same
      refine ⟨o[i], o.eraseIdx i, Located.found ?_ (Prod.ext same.1 same.2),
        List.getElem?_eq_getElem inside, fun s' => ?_⟩
      · exact (List.getElem_cons_eraseIdx_perm inside).symm
      · exact List.set_perm_cons_eraseIdx inside s'
  | none =>
      have absent : ∀ e ∈ o, e.key ≠ key := by
        intro e member same
        have differs := List.findIdx?_eq_none_iff.mp place e member
        rw [← same] at differs
        simp [OffSource.key] at differs
      by_cases full : o.length ≥ offMaxSources
      · have filled : o ≠ [] := List.ne_nil_of_length_pos
          (Nat.lt_of_lt_of_le (by decide) full)
        obtain ⟨old, held, least⟩ :=
          evictAt_oldestIdx OffSource.windowStartMs filled
        dsimp only
        rw [if_pos full]
        exact ⟨_, _, Located.evicted absent full held least, appended _⟩
      · dsimp only
        rw [if_neg full]
        exact ⟨_, _, Located.created absent (Nat.lt_of_not_le full),
          appended o⟩

/-- The entry of a packet after the call. -/
def offTouched (v : PacketView) (now : UInt64) (s : OffSource) : OffSource :=
  if offTrusted v then s else (offRateLimited s now).1

/-- Whether a packet passes, by the entry of its source. -/
def offPasses (v : PacketView) (now : UInt64) (s : OffSource) : Bool :=
  decide (offTrusted v) || !(offRateLimited s now).2

/-- What a call does to the table, and its verdict. -/
theorem offensiveCheck_spec
    (o : Offensive) {v : PacketView} (now : UInt64)
    (source : packetSource v.buf = some key) :
    ∃ s others, Located o key now s others ∧
      (offensiveCheck o v now).1.Perm (offTouched v now s :: others) ∧
      (offensiveCheck o v now).2 = offPasses v now s := by
  obtain ⟨s, others, located, place, change⟩ :=
    offFindOrCreate_located o key now
  refine ⟨s, others, located, ?_⟩
  unfold offTouched offPasses
  by_cases trusted : offTrusted v
  · have call :
        offensiveCheck o v now =
          ((offFindOrCreate o key.1 key.2 now).1, true) := by
      unfold offensiveCheck
      rw [source]
      exact if_pos trusted
    obtain ⟨inside, same⟩ := List.getElem?_eq_some_iff.mp place
    have unchanged := change s
    rw [← same, List.set_getElem_self inside, same] at unchanged
    rw [call, if_pos trusted, decide_eq_true trusted]
    exact ⟨unchanged, rfl⟩
  · have call :
        offensiveCheck o v now =
          ((offFindOrCreate o key.1 key.2 now).1.set
            (offFindOrCreate o key.1 key.2 now).2 (offRateLimited s now).1,
            !(offRateLimited s now).2) := by
      unfold offensiveCheck
      rw [source]
      dsimp only
      rw [if_neg (show ¬ (_ ∧ _) from trusted), place]
    rw [call, if_neg trusted, decide_eq_false trusted]
    exact ⟨change _, rfl⟩

theorem offensiveCheck_of_no_source
    (o : Offensive) {v : PacketView} (now : UInt64)
    (none : packetSource v.buf = none) : offensiveCheck o v now = (o, true) := by
  unfold offensiveCheck
  rw [none]

theorem offRateLimited_key (s : OffSource) (now : UInt64) :
    (offRateLimited s now).1.key = s.key := by
  unfold offRateLimited
  dsimp only
  split
  · rfl
  · rfl

theorem offTouched_key (v : PacketView) (now : UInt64) (s : OffSource) :
    (offTouched v now s).key = s.key := by
  unfold offTouched
  split
  · rfl
  · exact offRateLimited_key s now

theorem Located.key_eq (located : Located o key now s others) :
    s.key = key := by
  cases located with
  | found held own => exact own
  | created absent room => rfl
  | evicted absent full held least => rfl

/-- The other entries were in the table before. -/
theorem Located.others_subset (located : Located o key now s others) :
    ∀ e ∈ others, e ∈ o := by
  intro e member
  cases located with
  | found held own => exact held.mem_iff.mpr (List.mem_cons_of_mem _ member)
  | created absent room => exact member
  | evicted absent full held least =>
      exact held.mem_iff.mpr (List.mem_cons_of_mem _ member)

/-- At most 256 entries, and no source has two. -/
structure OffTable (o : Offensive) : Prop where
  fits : o.length ≤ offMaxSources
  distinct : (o.map OffSource.key).Nodup

theorem OffTable.perm
    {o' : Offensive} (table : OffTable o) (same : o.Perm o') : OffTable o' :=
  ⟨same.length_eq ▸ table.fits,
    (same.map OffSource.key).nodup_iff.mp table.distinct⟩

/-- The others and one entry of the source make a table. -/
theorem Located.table
    (located : Located o key now s others) (table : OffTable o)
    {entry : OffSource} (own : entry.key = key) :
    OffTable (entry :: others) := by
  have joined {others : Offensive} (absent : ∀ e ∈ others, e.key ≠ key)
      (room : others.length < offMaxSources)
      (distinct : (others.map OffSource.key).Nodup) :
      OffTable (entry :: others) := by
    refine ⟨room, ?_⟩
    rw [List.map_cons, List.nodup_cons]
    refine ⟨fun member => ?_, distinct⟩
    obtain ⟨e, inside, same⟩ := List.mem_map.mp member
    exact absent e inside (same.trans own)
  cases located with
  | found held same =>
      have before := table.perm held
      refine ⟨before.fits, ?_⟩
      have distinct := before.distinct
      rw [List.map_cons, same, ← own] at distinct
      exact distinct
  | created absent room => exact joined absent room table.distinct
  | evicted absent full held least =>
      have before := table.perm held
      refine joined (fun e member => absent e ?_) before.fits
        (List.nodup_cons.mp before.distinct).2
      exact held.mem_iff.mpr (List.mem_cons_of_mem _ member)

/-- In a table the entry in front is the only one of its source. -/
theorem OffTable.head_unique
    {entry : OffSource} (table : OffTable (entry :: others)) :
    ∀ e ∈ others, e.key ≠ entry.key := by
  intro e member same
  have apart := (List.nodup_cons.mp table.distinct).1
  exact apart (List.mem_map.mpr ⟨e, member, same⟩)

end

/-! ## Windows -/

/-- A packet and the time of the call. -/
abbrev OffCall := PacketView × UInt64

def offStep (o : Offensive) (call : OffCall) : Offensive :=
  (offensiveCheck o call.1 call.2).1

/-- The call creates the entry of the source, or a packet without trusted
headers finds that its window is over and sets it back. -/
def OpensWindow (key : Bytes × UInt16) (o : Offensive) (call : OffCall) :
    Prop :=
  packetSource call.1.buf = some key ∧
    ((∀ e ∈ o, e.key ≠ key) ∨
      ¬ offTrusted call.1 ∧
        ∃ e ∈ o, e.key = key ∧ call.2 - e.windowStartMs > offWindowMs)

instance (key : Bytes × UInt16) (o : Offensive) (call : OffCall) :
    Decidable (OpensWindow key o call) :=
  inferInstanceAs (Decidable (_ ∧ _))

/-- The packet is from the source and has no trusted headers. -/
def CountsFor (key : Bytes × UInt16) (call : OffCall) : Prop :=
  packetSource call.1.buf = some key ∧ ¬ offTrusted call.1

instance (key : Bytes × UInt16) (call : OffCall) :
    Decidable (CountsFor key call) :=
  inferInstanceAs (Decidable (_ ∧ _))

/-- Beside the table, the verdicts on the packets of a source without trusted
headers since its window was opened. -/
def windowStep (key : Bytes × UInt16) (st : Offensive × List Bool)
    (call : OffCall) : Offensive × List Bool :=
  let current := if OpensWindow key st.1 call then [] else st.2
  (offStep st.1 call,
    if CountsFor key call then
      current ++ [(offensiveCheck st.1 call.1 call.2).2]
    else
      current)

/-- The entry of the source counts the verdicts, and the first hundred of
these are passes. -/
structure WindowLog (key : Bytes × UInt16) (st : Offensive × List Bool) :
    Prop where
  table : OffTable st.1
  counted : ∀ e ∈ st.1, e.key = key → e.rateCount.toNat = st.2.length
  verdicts :
    ∀ (i : Nat) (verdict : Bool), st.2[i]? = some verdict →
      (verdict = true ↔ i < 100)

section

variable {key : Bytes × UInt16} {st : Offensive × List Bool} {call : OffCall}

theorem WindowLog.init (key : Bytes × UInt16) : WindowLog key ([], []) where
  table := ⟨Nat.zero_le _, List.nodup_nil⟩
  counted := fun _ member => absurd member List.not_mem_nil
  verdicts := fun _ _ found => by cases found

/-- The count that `off_rate_limited` goes on from. -/
def offBase (s : OffSource) (now : UInt64) : UInt32 :=
  if now - s.windowStartMs > offWindowMs then 0 else s.rateCount

theorem offRateLimited_count (s : OffSource) (now : UInt64) :
    (offRateLimited s now).1.rateCount = offBase s now + 1 ∧
      (offRateLimited s now).2 = decide (offBase s now + 1 > offThreshold) := by
  unfold offRateLimited offBase
  split
  · exact ⟨rfl, rfl⟩
  · exact ⟨rfl, rfl⟩

theorem offBase_fresh (key : Bytes × UInt16) (now : UInt64) :
    offBase (offFresh key now) now = 0 := by
  unfold offBase offFresh
  split
  · rfl
  · rfl

/-- When a packet is counted, the verdicts of the window are as many as the
count it goes on from. -/
theorem WindowLog.current_length
    (log : WindowLog key st) {s : OffSource} {others : Offensive}
    (source : packetSource call.1.buf = some key)
    (located : Located st.1 key call.2 s others)
    (unknown : ¬ offTrusted call.1) :
    (if OpensWindow key st.1 call then [] else st.2).length =
      (offBase s call.2).toNat := by
  have fresh (absent : ∀ e ∈ st.1, e.key ≠ key) :
      (if OpensWindow key st.1 call then [] else st.2).length =
        (offBase (offFresh key call.2) call.2).toNat := by
    rw [if_pos ⟨source, Or.inl absent⟩, offBase_fresh]
    rfl
  cases located with
  | created absent room => exact fresh absent
  | evicted absent full held least => exact fresh absent
  | found held own =>
      have member : s ∈ st.1 := held.mem_iff.mpr List.mem_cons_self
      unfold offBase
      by_cases ended : call.2 - s.windowStartMs > offWindowMs
      · rw [if_pos ⟨source, Or.inr ⟨unknown, s, member, own, ended⟩⟩,
          if_pos ended]
        rfl
      · have stays : ¬ OpensWindow key st.1 call := by
          rintro ⟨-, absent | ⟨-, e, inside, same, late⟩⟩
          · exact absent s member own
          · rcases List.mem_cons.mp (held.mem_iff.mp inside) with head | tail
            · rw [head] at late
              exact ended late
            · exact (log.table.perm held).head_unique e tail
                (same.trans own.symm)
        rw [if_neg stays, if_neg ended, log.counted s member own]

/-- A packet without trusted headers adds its verdict. -/
theorem WindowLog.count
    (log : WindowLog key st) {s : OffSource} {others : Offensive}
    (source : packetSource call.1.buf = some key)
    (located : Located st.1 key call.2 s others)
    (unknown : ¬ offTrusted call.1) (few : st.2.length + 1 < 2 ^ 32)
    (e : OffSource) (own : e = offTouched call.1 call.2 s) :
    let seen := (if OpensWindow key st.1 call then [] else st.2) ++
      [offPasses call.1 call.2 s]
    e.rateCount.toNat = seen.length ∧
      ∀ (i : Nat) (verdict : Bool), seen[i]? = some verdict →
        (verdict = true ↔ i < 100) := by
  intro seen
  have length := log.current_length source located unknown
  obtain ⟨count, verdict⟩ := offRateLimited_count s call.2
  have short : (if OpensWindow key st.1 call then [] else st.2).length ≤
      st.2.length := by
    split
    · exact Nat.zero_le _
    · exact Nat.le_refl _
  have next :
      (offBase s call.2 + 1).toNat = (offBase s call.2).toNat + 1 := by
    rw [UInt32.toNat_add]
    exact Nat.mod_eq_of_lt (by change _ + 1 < _; omega)
  refine ⟨?_, fun i verdict' found => ?_⟩
  · rw [own, offTouched, if_neg unknown, count, next, ← length,
      List.length_append]
    rfl
  · by_cases earlier :
        i < (if OpensWindow key st.1 call then [] else st.2).length
    · rw [List.getElem?_append_left earlier] at found
      split at found
      · cases found
      · exact log.verdicts i verdict' found
    · have last : i =
          (if OpensWindow key st.1 call then [] else st.2).length := by
        obtain ⟨inside, -⟩ := List.getElem?_eq_some_iff.mp found
        rw [List.length_append, List.length_singleton] at inside
        omega
      rw [last, List.getElem?_concat_length, Option.some_inj] at found
      rw [last, length, ← found, offPasses, decide_eq_false unknown, verdict,
        Bool.false_or, Bool.not_eq_true', decide_eq_false_iff_not, gt_iff_lt,
        UInt32.lt_iff_toNat_lt, next]
      have threshold : offThreshold.toNat = 100 := rfl
      rw [threshold]
      omega

/-- A packet with trusted headers counts nowhere; its entry is new or stays. -/
theorem WindowLog.trust
    (log : WindowLog key st) {s : OffSource} {others : Offensive}
    (source : packetSource call.1.buf = some key)
    (located : Located st.1 key call.2 s others)
    (trusted : offTrusted call.1) :
    s.rateCount.toNat =
      (if OpensWindow key st.1 call then [] else st.2).length := by
  cases located with
  | created absent room =>
      rw [if_pos ⟨source, Or.inl absent⟩]
      rfl
  | evicted absent full held least =>
      rw [if_pos ⟨source, Or.inl absent⟩]
      rfl
  | found held own =>
      have member : s ∈ st.1 := held.mem_iff.mpr List.mem_cons_self
      have stays : ¬ OpensWindow key st.1 call := by
        rintro ⟨-, absent | ⟨unknown, -⟩⟩
        · exact absent s member own
        · exact unknown trusted
      rw [if_neg stays]
      exact log.counted s member own

theorem WindowLog.current_verdicts
    (log : WindowLog key st) (i : Nat) (verdict : Bool)
    (found :
      (if OpensWindow key st.1 call then [] else st.2)[i]? = some verdict) :
    verdict = true ↔ i < 100 := by
  split at found
  · cases found
  · exact log.verdicts i verdict found

/-- A packet of another source, or of none, leaves the log as it is. -/
theorem WindowLog.foreign
    (log : WindowLog key st) {call : OffCall}
    (other : packetSource call.1.buf ≠ some key) :
    WindowLog key (windowStep key st call) := by
  unfold windowStep offStep
  dsimp only
  rw [if_neg fun opens : OpensWindow key st.1 call => other opens.1,
    if_neg fun counts : CountsFor key call => other counts.1]
  cases source : packetSource call.1.buf with
  | none =>
      rw [offensiveCheck_of_no_source st.1 call.2 source]
      exact log
  | some sender =>
      obtain ⟨s, others, located, perm, verdict⟩ :=
        offensiveCheck_spec st.1 call.2 source
      have touched : (offTouched call.1 call.2 s).key = sender :=
        (offTouched_key _ _ _).trans located.key_eq
      have after := located.table log.table touched
      refine ⟨after.perm perm.symm, fun e member same => ?_, log.verdicts⟩
      rcases List.mem_cons.mp (perm.mem_iff.mp member) with head | tail
      · rw [head, touched] at same
        rw [source, same] at other
        exact absurd rfl other
      · exact log.counted e (located.others_subset e tail) same

/-- A packet of the source goes on with the count, or opens a window. -/
theorem WindowLog.own
    (log : WindowLog key st) {call : OffCall}
    (source : packetSource call.1.buf = some key)
    (few : st.2.length + 1 < 2 ^ 32) :
    WindowLog key (windowStep key st call) := by
  obtain ⟨s, others, located, perm, verdict⟩ :=
    offensiveCheck_spec st.1 call.2 source
  have touched : (offTouched call.1 call.2 s).key = key :=
    (offTouched_key _ _ _).trans located.key_eq
  have after := located.table log.table touched
  -- The only entry of the source is the one that the call works with.
  have only : ∀ e ∈ (offensiveCheck st.1 call.1 call.2).1,
      e.key = key → e = offTouched call.1 call.2 s := by
    intro e member same
    rcases List.mem_cons.mp (perm.mem_iff.mp member) with head | tail
    · exact head
    · exact absurd (same.trans touched.symm) (after.head_unique e tail)
  unfold windowStep offStep
  dsimp only
  by_cases trusted : offTrusted call.1
  · rw [if_neg fun counts : CountsFor key call => counts.2 trusted]
    refine ⟨after.perm perm.symm, fun e member same => ?_,
      log.current_verdicts⟩
    rw [only e member same, offTouched, if_pos trusted]
    exact log.trust source located trusted
  · have counted := log.count source located trusted few _ rfl
    have counts : CountsFor key call := ⟨source, trusted⟩
    rw [if_pos counts, verdict]
    refine ⟨after.perm perm.symm, fun e member same => ?_, counted.2⟩
    rw [only e member same]
    exact counted.1

theorem WindowLog.step
    (log : WindowLog key st) (call : OffCall)
    (few : st.2.length + 1 < 2 ^ 32) :
    WindowLog key (windowStep key st call) := by
  by_cases source : packetSource call.1.buf = some key
  · exact log.own source few
  · exact log.foreign source

theorem length_windowStep_le
    (key : Bytes × UInt16) (st : Offensive × List Bool) (call : OffCall) :
    (windowStep key st call).2.length ≤ st.2.length + 1 := by
  have current : (if OpensWindow key st.1 call then [] else st.2).length ≤
      st.2.length := by
    split
    · exact Nat.zero_le _
    · exact Nat.le_refl _
  unfold windowStep
  dsimp only
  split
  · rw [List.length_append]
    exact Nat.succ_le_succ current
  · exact Nat.le_succ_of_le current

theorem WindowLog.run
    (log : WindowLog key st) (calls : List OffCall)
    (few : st.2.length + calls.length < 2 ^ 32) :
    WindowLog key (calls.foldl (windowStep key) st) := by
  induction calls generalizing st with
  | nil => exact log
  | cons call rest inductionHypothesis =>
      rw [List.length_cons] at few
      have longer := length_windowStep_le key st call
      exact inductionHypothesis (log.step call (by omega)) (by omega)

end

/-! ## The whole table -/

theorem OffTable.step
    {o : Offensive} (table : OffTable o) (call : OffCall) :
    OffTable (offStep o call) := by
  unfold offStep
  cases source : packetSource call.1.buf with
  | none =>
      rw [offensiveCheck_of_no_source o call.2 source]
      exact table
  | some key =>
      obtain ⟨s, others, located, perm, -⟩ :=
        offensiveCheck_spec o call.2 source
      have own : (offTouched call.1 call.2 s).key = key :=
        (offTouched_key _ _ _).trans located.key_eq
      exact (located.table table own).perm perm.symm

theorem OffTable.run
    {o : Offensive} (table : OffTable o) (calls : List OffCall) :
    OffTable (calls.foldl offStep o) := by
  induction calls generalizing o with
  | nil => exact table
  | cons call rest inductionHypothesis =>
      exact inductionHypothesis (table.step call)

section

variable {o : Offensive} {call : OffCall}

/-- A packet with trusted headers passes, and no count changes. -/
theorem OffTable.trusted_passes
    (table : OffTable o) (trusted : offTrusted call.1) :
    (offensiveCheck o call.1 call.2).2 = true ∧
      ∀ e ∈ o, ∀ e' ∈ offStep o call, e'.key = e.key →
        e'.rateCount = e.rateCount := by
  have unchanged : ∀ e ∈ o, ∀ e' ∈ o, e'.key = e.key →
      e'.rateCount = e.rateCount := by
    intro e member e' member' same
    rw [List.inj_on_of_nodup_map table.distinct member' member same]
  unfold offStep
  cases source : packetSource call.1.buf with
  | none =>
      rw [offensiveCheck_of_no_source o call.2 source]
      exact ⟨rfl, unchanged⟩
  | some key =>
      obtain ⟨s, others, located, perm, verdict⟩ :=
        offensiveCheck_spec o call.2 source
      refine ⟨?_, fun e member e' member' same => ?_⟩
      · rw [verdict, offPasses, decide_eq_true trusted, Bool.true_or]
      · rw [perm.mem_iff, offTouched, if_pos trusted, List.mem_cons]
          at member'
        rcases member' with head | tail
        · cases located with
          | found held own =>
              have inside : s ∈ o := held.mem_iff.mpr List.mem_cons_self
              exact unchanged e member e' (head ▸ inside) same
          | created absent room =>
              rw [head] at same
              exact absurd same.symm (absent e member)
          | evicted absent full held least =>
              rw [head] at same
              exact absurd same.symm (absent e member)
        · exact unchanged e member e' (located.others_subset e' tail) same

/-- Whose entry is gone after a call was the oldest; all others stay. -/
theorem evicted_oldest
    {e : OffSource} (member : e ∈ o)
    (gone : ∀ e' ∈ offStep o call, e'.key ≠ e.key) :
    (∀ other ∈ o, e.windowStartMs ≤ other.windowStartMs) ∧
      ∀ other ∈ o, other.key ≠ e.key → other ∈ offStep o call := by
  unfold offStep at gone ⊢
  cases source : packetSource call.1.buf with
  | none =>
      rw [offensiveCheck_of_no_source o call.2 source] at gone
      exact absurd rfl (gone e member)
  | some key =>
      obtain ⟨s, others, located, perm, -⟩ :=
        offensiveCheck_spec o call.2 source
      have kept : ∀ other ∈ others,
          other ∈ (offensiveCheck o call.1 call.2).1 := fun other inside =>
        perm.mem_iff.mpr (List.mem_cons_of_mem _ inside)
      have touched : (offTouched call.1 call.2 s).key = s.key :=
        offTouched_key _ _ _
      have worked : offTouched call.1 call.2 s ∈
          (offensiveCheck o call.1 call.2).1 :=
        perm.mem_iff.mpr List.mem_cons_self
      cases located with
      | found held own =>
          rcases List.mem_cons.mp (held.mem_iff.mp member) with head | tail
          · exact absurd (touched.trans (by rw [head])) (gone _ worked)
          · exact absurd rfl (gone e (kept e tail))
      | created absent room => exact absurd rfl (gone e (kept e member))
      | evicted absent full held least =>
          rcases List.mem_cons.mp (held.mem_iff.mp member) with head | tail
          · refine ⟨head ▸ least, fun other inside apart => kept other ?_⟩
            rcases List.mem_cons.mp (held.mem_iff.mp inside) with same | stays
            · rw [same, head] at apart
              exact absurd rfl apart
            · exact stays
          · exact absurd rfl (gone e (kept e tail))

end

/-- After any calls from an empty table the table has at most 256 entries of
different sources; of the packets of a source without trusted headers exactly
the first hundred of a window pass; a packet with trusted headers passes and
changes no count; and a call takes out no entry but the oldest one, of which
it leaves all others as they are. -/
theorem source_limiter (calls : List OffCall) (few : calls.length < 2 ^ 32) :
    ((calls.foldl offStep []).length ≤ offMaxSources ∧
        ((calls.foldl offStep []).map OffSource.key).Nodup) ∧
      (∀ key i verdict,
        (calls.foldl (windowStep key) ([], [])).2[i]? = some verdict →
          (verdict = true ↔ i < 100)) ∧
      ∀ before call after, calls = before ++ call :: after →
        let o := before.foldl offStep []
        (offTrusted call.1 →
          (offensiveCheck o call.1 call.2).2 = true ∧
            ∀ e ∈ o, ∀ e' ∈ offStep o call, e'.key = e.key →
              e'.rateCount = e.rateCount) ∧
        ∀ e ∈ o, (∀ e' ∈ offStep o call, e'.key ≠ e.key) →
          (∀ other ∈ o, e.windowStartMs ≤ other.windowStartMs) ∧
            ∀ other ∈ o, other.key ≠ e.key → other ∈ offStep o call := by
  have empty : OffTable [] := ⟨Nat.zero_le _, List.nodup_nil⟩
  have table := empty.run calls
  refine ⟨⟨table.fits, table.distinct⟩, fun key i verdict found => ?_,
    fun before call after _ => ?_⟩
  · have log := (WindowLog.init key).run calls (by rwa [List.length_nil,
      Nat.zero_add])
    exact log.verdicts i verdict found
  · exact ⟨fun trusted => (empty.run before).trusted_passes trusted,
      fun e member gone => evicted_oldest member gone⟩

/-- A packet without a session, from the source of zeros. -/
def sampleUnknown (seq : UInt32) : OffCall :=
  (builtView { (default : PacketBuf) with addrLen := 28 } true 0 0 1 seq [],
    5)

/-- Two packets of one source: one entry and two passes. -/
theorem source_limiter_two_packets :
    ([sampleUnknown 3, sampleUnknown 4].foldl offStep []).length ≤
        offMaxSources ∧
      ([sampleUnknown 3, sampleUnknown 4].foldl (windowStep (zeros 16, 0))
        ([], [])).2 = [true, true] :=
  ⟨(source_limiter [sampleUnknown 3, sampleUnknown 4] (by decide)).1.1, by
    decide +kernel⟩

end PqComm
