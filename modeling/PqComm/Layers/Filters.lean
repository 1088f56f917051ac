import PqComm.Core.Session

/-!
# The filters in front of the session gate

`offensive_check`, `anti_analysis_check` and `kernel_filter_check`.  Each
keeps a global table, which is passed in and returned, and decides whether the
packet goes on.  Counters that only feed the statistics are left out.
-/

namespace PqComm

open Lib

/-- The source address and port the three filters extract.  A short address is
read as a `sockaddr_in`, sixteen bytes from its `sin_addr` on. -/
def packetSource (p : PacketBuf) : Option (Bytes × UInt16) :=
  if p.addrLen ≥ sockaddrIn6Size then
    some (sin6Addr p.addr, ntohs (sinPort p.addr))
  else if p.addrLen ≥ sockaddrInSize then
    some ((p.addr.drop 4).take 16, ntohs (sinPort p.addr))
  else
    none

/-- The index of the first entry with the smallest time stamp. -/
def oldestIdx {α : Type} (stamp : α → UInt64) (entries : List α) : Nat :=
  (entries.foldl
    (fun (state : Nat × Nat × Option UInt64) entry =>
      let (i, oldest, best) := state
      match best with
      | none => (i + 1, i, some (stamp entry))
      | some time =>
          if stamp entry < time then
            (i + 1, i, some (stamp entry))
          else
            (i + 1, oldest, best))
    (0, 0, none)).2.1

/-- `entries[i] = entries[count - 1]; count--`. -/
def evictAt {α : Type} (entries : List α) (i : Nat) : List α :=
  match entries.getLast? with
  | none => entries
  | some last => (entries.set i last).dropLast

/-! ## `offensive.c` -/

def offMaxSources : Nat := 256
def offThreshold : UInt32 := 100
def offWindowMs : UInt64 := 1000

structure OffSource where
  addr : Bytes
  port : UInt16
  rateCount : UInt32 := 0
  windowStartMs : UInt64

/-- The sources of `g_offensive`. -/
abbrev Offensive := List OffSource

/-- `off_find_or_create`: the table and the index of the entry. -/
def offFindOrCreate
    (o : Offensive) (addr : Bytes) (port : UInt16) (now : UInt64) :
    Offensive × Nat :=
  match o.findIdx? fun s => s.addr == addr && s.port == port with
  | some i => (o, i)
  | none =>
      let o :=
        if o.length ≥ offMaxSources then
          evictAt o (oldestIdx OffSource.windowStartMs o)
        else
          o
      (o ++ [{ addr := addr, port := port, windowStartMs := now }], o.length)

/-- `off_rate_limited`, the new entry and the verdict. -/
def offRateLimited (s : OffSource) (now : UInt64) : OffSource × Bool :=
  let s :=
    if now - s.windowStartMs > offWindowMs then
      { s with rateCount := 0, windowStartMs := now }
    else
      s
  let s := { s with rateCount := s.rateCount + 1 }
  (s, decide (s.rateCount > offThreshold))

/-- `offensive_check`; `false` stands for -1. -/
def offensiveCheck (o : Offensive) (v : PacketView) (now : UInt64) :
    Offensive × Bool :=
  match packetSource v.buf with
  | none => (o, true)
  | some (addr, port) =>
      let (o, i) := offFindOrCreate o addr port now
      if v.sessionId ≠ 0 ∧ v.channelId ≥ 1 ∧ v.channelId ≤ 6 ∧
          v.magic = protoMagic ∧ v.version = 1 then
        (o, true)
      else
        match o[i]? with
        | none => (o, true)
        | some s =>
            let (s, limited) := offRateLimited s now
            (o.set i s, !limited)

/-! ## `anti_analysis.c` -/

def aaMaxSources : Nat := 256

structure AaSource where
  addr : Bytes
  port : UInt16
  score : UInt32 := 0
  lastSeenMs : UInt64
  badPackets : UInt32 := 0

/-- `anti_analysis_t`, as `anti_analysis_init` leaves it. -/
structure AntiAnalysis where
  sources : List AaSource := []
  lastEvictMs : UInt64 := 0
  evictIntervalMs : UInt64 := 10000

/-- `aa_find_or_create`: no index when the table stays full. -/
def aaFindOrCreate
    (aa : AntiAnalysis) (addr : Bytes) (port : UInt16) (now : UInt64) :
    AntiAnalysis × Option Nat :=
  match aa.sources.findIdx? fun s => s.addr == addr && s.port == port with
  | some i => (aa, some i)
  | none =>
      let aa :=
        if aa.sources.length ≥ aaMaxSources ∧
            now - aa.lastEvictMs ≥ aa.evictIntervalMs then
          { aa with
            sources :=
              evictAt aa.sources (oldestIdx AaSource.lastSeenMs aa.sources)
            lastEvictMs := now }
        else
          aa
      if aa.sources.length ≥ aaMaxSources then
        (aa, none)
      else
        ({ aa with
            sources :=
              aa.sources ++ [{ addr := addr, port := port, lastSeenMs := now }] },
          some aa.sources.length)

/-- The header anomalies the score counts.  Channel 6 is one of them. -/
def isBad (v : PacketView) : Bool :=
  v.magic != protoMagic || v.version != 1 ||
    (v.flags != 0 && v.flags != packetFlagEncrypted && v.flags != 0x02) ||
    (decide (v.channelId < 1) || decide (v.channelId > 5)) || v.seq == 0

/-- The new entry of a source that sent `v`. -/
def aaScore (s : AaSource) (v : PacketView) (now : UInt64) : AaSource :=
  let s := { s with lastSeenMs := now }
  if isBad v then
    { s with
      badPackets := s.badPackets + 1
      score := (s.badPackets + 1) * 10 }
  else if s.score > 0 then
    { s with score := s.score - 1 }
  else
    s

/-- `anti_analysis_check`; `false` stands for -1. -/
def antiAnalysisCheck (aa : AntiAnalysis) (v : PacketView) (now : UInt64) :
    AntiAnalysis × Bool :=
  match packetSource v.buf with
  | none => (aa, true)
  | some (addr, port) =>
      match aaFindOrCreate aa addr port now with
      | (aa, none) => (aa, true)
      | (aa, some i) =>
          match aa.sources[i]? with
          | none => (aa, true)
          | some s =>
              let s := aaScore s v now
              ({ aa with sources := aa.sources.set i s },
                !(decide (s.score ≥ 100) || decide (s.score ≥ 50)))

/-! ## `kernel_filter.c` -/

/-- `kernel_filter_t`; the entries of both lists are all valid. -/
structure KernelFilter where
  whitelist : List Bytes := []
  blocklist : List Bytes := []
  boundPort : UInt16 := 0

/-- `kernel_filter_check`; `false` stands for -1. -/
def kernelFilterCheck (kf : KernelFilter) (v : PacketView) : Bool :=
  if v.buf.len < 24 ∨ v.buf.len > maxPacketSize then
    false
  else
    match packetSource v.buf with
    | none => true
    | some (addr, port) =>
        if !kf.whitelist.isEmpty && !kf.whitelist.contains addr then
          false
        else if kf.blocklist.contains addr then
          false
        else
          !(decide (kf.boundPort > 0) && decide (port > 0) &&
            port != kf.boundPort)

/-- The global tables of the three filters. -/
structure Filters where
  offensive : Offensive := []
  anti : AntiAnalysis := {}
  kernel : KernelFilter := {}

end PqComm
