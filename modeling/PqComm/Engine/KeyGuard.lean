import PqComm.Layers.Integrity
import PqComm.Lib.SpinLock

/-!
# The guard of the session keys

`derive_rekey_keys` replaces the keys of a locked session while the crypto
worker may be decrypting under them.  Both take `keys_guard`, a test-and-set
lock.  Here every access to a byte of `session_keys_t` is a step of its own:
the wipe and the copies of the one, and the bytes of the channel key and of
the session key that the other reads.

Whatever the interleaving, each packet is decrypted under the keys of one
epoch, those of the last rotation that was finished before it.  The functions
that wipe a session without the guard are not among the sections.
-/

namespace PqComm

open Lib

/-! ## The keys in memory -/

/-- `session_keys_t` as the bytes at its address. -/
def keysOf (mem : Mem) : SessionKeys where
  sessionKey := memSlice mem 0 32
  channelKeys := (List.range 6).map fun i => memSlice mem (32 + 32 * i) 32
  keyEpoch := UInt64.ofNat (leNat (memSlice mem 224 8))

/-- Keys of the sizes of `session_keys_t`. -/
structure SizedKeys where
  keys : SessionKeys
  sessionKey : keys.sessionKey.length = 32
  channelCount : keys.channelKeys.length = 6
  channelKey : ∀ key ∈ keys.channelKeys, key.length = 32

/-- Their bytes in the order in which `derive_rekey_keys` copies them. -/
def SizedKeys.bytes (k : SizedKeys) : Bytes :=
  k.keys.sessionKey ++
    (k.keys.channelKeys.flatten ++ leBytes 8 k.keys.keyEpoch.toNat)

/-- What the worker has read: bytes of the channel key and of the session
key. -/
structure GatheredKeys where
  mask : Bytes := []
  key : Bytes := []
  deriving DecidableEq

/-- A step on the bytes of the keys. -/
abbrev KeyStep : Type := Mem × GatheredKeys → Mem × GatheredKeys

def writeByte (off : Nat) (byte : UInt8) : KeyStep :=
  fun state => (memWrite state.1 off [byte], state.2)

def readMask (off : Nat) : KeyStep :=
  fun state =>
    (state.1, { state.2 with mask := state.2.mask ++ [state.1 off] })

def readKey (off : Nat) : KeyStep :=
  fun state =>
    (state.1, { state.2 with key := state.2.key ++ [state.1 off] })

/-- The locked part of `derive_rekey_keys`: the wipe of all 232 bytes, then the
copies. -/
def rekeySection (k : SizedKeys) : LockSection Mem GatheredKeys where
  start := {}
  steps :=
    ((List.range 232).map fun i => writeByte i 0) ++
      (List.range 232).map fun i => writeByte i (k.bytes.getD i 0)

/-- What `session_enc_check` reads of the keys of a locked session: for the
associated data the first bytes of the channel key, then the session key. -/
def decryptSection (channel : UInt8) : LockSection Mem GatheredKeys where
  start := {}
  steps :=
    if channel = chControl then
      []
    else
      (if channel < 6 then
        (List.range 24).map fun i => readMask (32 + 32 * channel.toNat + i)
      else
        []) ++ (List.range 32).map readKey

/-- A job on the keys: a rotation, or a packet for the worker. -/
inductive KeyJob where
  | rekey (k : SizedKeys)
  | decrypt (v : PacketView)

def KeyJob.section : KeyJob → LockSection Mem GatheredKeys
  | .rekey k => rekeySection k
  | .decrypt v => decryptSection v.channelId

/-- What `session_enc_check` makes of a packet with the bytes it has read. -/
def decryptGathered (C : CryptoSuite) (g : GatheredKeys) (v : PacketView) :
    Option PacketBuf :=
  if v.channelId = chControl then
    some v.buf
  else
    (aeadDecrypt C g.key v.nonce (xorBytes (aadHeader v.buf.data) g.mask)
      v.payloadBytes v.tag).map fun plain =>
        { v.buf with data := memWrite v.buf.data v.payload plain }

/-- The keys after some jobs: those of the last rotation. -/
def keysAfter (initial : SessionKeys) : List KeyJob → SessionKeys
  | [] => initial
  | .rekey k :: jobs => keysAfter k.keys jobs
  | .decrypt _ :: jobs => keysAfter initial jobs

/-! ## A section on its own -/

section

variable (mem : Mem) (g : GatheredKeys)

theorem runSteps_writes (n : Nat) (f : Nat → UInt8) :
    runSteps ((List.range n).map fun i => writeByte i (f i)) (mem, g) =
      (memWrite mem 0 ((List.range n).map f), g) := by
  induction n with
  | zero =>
      rw [show (mem, g) = (memWrite mem 0 [], g) from
        congrArg (·, g) (funext fun i => (memWrite_after (Nat.zero_le i)).symm)]
      rfl
  | succ n inductionHypothesis =>
      rw [List.range_succ, List.map_append, List.map_append,
        runSteps_append, inductionHypothesis, memWrite_append,
        List.length_map, List.length_range, Nat.zero_add]
      rfl

theorem memSlice_succ (off n : Nat) :
    memSlice mem off (n + 1) = memSlice mem off n ++ [mem (off + n)] := by
  rw [memSlice_append]
  rfl

theorem runSteps_readMask (off n : Nat) :
    runSteps ((List.range n).map fun i => readMask (off + i)) (mem, g) =
      (mem, { g with mask := g.mask ++ memSlice mem off n }) := by
  induction n with
  | zero =>
      simp [runSteps, memSlice]
  | succ n inductionHypothesis =>
      rw [List.range_succ, List.map_append, runSteps_append,
        inductionHypothesis, memSlice_succ, ← List.append_assoc]
      rfl

theorem runSteps_readKey (n : Nat) :
    runSteps ((List.range n).map readKey) (mem, g) =
      (mem, { g with key := g.key ++ memSlice mem 0 n }) := by
  induction n with
  | zero =>
      simp [runSteps, memSlice]
  | succ n inductionHypothesis =>
      rw [List.range_succ, List.map_append, runSteps_append,
        inductionHypothesis, memSlice_succ, Nat.zero_add,
        ← List.append_assoc]
      rfl

/-- The bytes of a block of equal parts. -/
theorem flatten_block
    {blocks : List Bytes} {size : Nat}
    (sizes : ∀ block ∈ blocks, block.length = size) {i : Nat}
    (inside : i < blocks.length) :
    (blocks.flatten.drop (size * i)).take size = blocks[i] := by
  induction blocks generalizing i with
  | nil =>
      cases inside
  | cons block blocks inductionHypothesis =>
      have length := sizes block List.mem_cons_self
      cases i with
      | zero =>
          rw [Nat.mul_zero, List.drop_zero, List.flatten_cons,
            List.take_left' length]
          rfl
      | succ i =>
          have later :=
            inductionHypothesis
              (fun other member => sizes other (List.mem_cons_of_mem _ member))
              (Nat.lt_of_succ_lt_succ inside)
          rw [Nat.mul_succ, Nat.add_comm, ← List.drop_drop,
            List.flatten_cons, List.drop_left' length, later]
          rfl

theorem length_flatten_sized
    {blocks : List Bytes} {size : Nat}
    (sizes : ∀ block ∈ blocks, block.length = size) :
    blocks.flatten.length = size * blocks.length := by
  induction blocks with
  | nil =>
      rfl
  | cons block blocks inductionHypothesis =>
      rw [List.flatten_cons, List.length_append, List.length_cons,
        sizes block List.mem_cons_self,
        inductionHypothesis fun other member =>
          sizes other (List.mem_cons_of_mem _ member), Nat.mul_succ,
        Nat.add_comm]

end

theorem SizedKeys.length_bytes (k : SizedKeys) : k.bytes.length = 232 := by
  rw [SizedKeys.bytes, List.length_append, List.length_append,
    length_leBytes, length_flatten_sized k.channelKey, k.sessionKey,
    k.channelCount]

/-- What was copied is read back. -/
theorem keysOf_memWrite (mem : Mem) (k : SizedKeys) :
    keysOf (memWrite mem 0 k.bytes) = k.keys := by
  have total := k.length_bytes
  have middle : k.keys.channelKeys.flatten.length = 192 := by
    rw [length_flatten_sized k.channelKey, k.channelCount]
  have read {off n : Nat} (inside : off + n ≤ 232) :
      memSlice (memWrite mem 0 k.bytes) off n = (k.bytes.drop off).take n := by
    rw [memSlice_memWrite_within (Nat.zero_le off) (by omega), Nat.sub_zero]
  have session : memSlice (memWrite mem 0 k.bytes) 0 32 =
      k.keys.sessionKey := by
    rw [read (by decide), List.drop_zero, SizedKeys.bytes,
      List.take_left' k.sessionKey]
  have channels :
      ((List.range 6).map fun i =>
          memSlice (memWrite mem 0 k.bytes) (32 + 32 * i) 32) =
        k.keys.channelKeys := by
    apply List.ext_getElem
    · rw [List.length_map, List.length_range, k.channelCount]
    · intro i small inside
      rw [List.length_map, List.length_range] at small
      rw [List.getElem_map, List.getElem_range, read (by omega),
        SizedKeys.bytes, ← List.drop_drop, List.drop_left' k.sessionKey,
        List.drop_append_of_le_length (by omega),
        List.take_append_of_le_length (by rw [List.length_drop]; omega),
        flatten_block k.channelKey inside]
  have epoch : UInt64.ofNat (leNat (memSlice (memWrite mem 0 k.bytes) 224 8)) =
      k.keys.keyEpoch := by
    have split : (224 : Nat) = 32 + 192 := rfl
    rw [read (by decide), SizedKeys.bytes, split, ← List.drop_drop,
      List.drop_left' k.sessionKey, List.drop_left' middle,
      List.take_of_length_le (by simp), uint64_leNat_leBytes]
  rw [keysOf, session, channels, epoch]

/-- A rotation on its own leaves its keys. -/
theorem rekeySection_alone (k : SizedKeys) (mem : Mem) :
    keysOf ((rekeySection k).alone mem).1 = k.keys := by
  have bytes : ((List.range 232).map fun i => k.bytes.getD i 0) = k.bytes := by
    apply List.ext_getElem
    · rw [List.length_map, List.length_range, k.length_bytes]
    · intro i _ inside
      rw [List.getElem_map, List.getElem_range,
        List.getD_eq_getElem _ _ inside]
  unfold LockSection.alone rekeySection
  dsimp only
  rw [runSteps_append, runSteps_writes mem {} 232 fun _ => 0,
    runSteps_writes, bytes]
  exact keysOf_memWrite _ k

/-- The worker on its own leaves the keys and has read those that are
there. -/
theorem decryptSection_alone
    (channel : UInt8) (data : channel ≠ chControl) (mem : Mem) :
    (decryptSection channel).alone mem =
      (mem,
        { mask :=
            if channel < 6 then
              ((keysOf mem).channelKeys.getD channel.toNat []).take 24
            else
              []
          key := (keysOf mem).sessionKey }) := by
  unfold LockSection.alone decryptSection
  dsimp only
  rw [if_neg data]
  by_cases small : channel < 6
  · have below : channel.toNat < 6 := UInt8.lt_iff_toNat_lt.mp small
    have block :
        ((keysOf mem).channelKeys.getD channel.toNat []).take 24 =
          memSlice mem (32 + 32 * channel.toNat) 24 := by
      rw [keysOf, List.getD_eq_getElem _ _ (by simpa using below),
        List.getElem_map, List.getElem_range, take_memSlice]
      rfl
    rw [if_pos small, if_pos small, block, runSteps_append,
      runSteps_readMask, runSteps_readKey]
    rfl
  · rw [if_neg small, if_neg small, List.nil_append, runSteps_readKey]
    rfl

/-! ## Decryption with what was read -/

theorem xorBytes_take (left right : Bytes) :
    xorBytes left (right.take left.length) = xorBytes left right := by
  induction left generalizing right with
  | nil =>
      rfl
  | cons byte rest inductionHypothesis =>
      cases right with
      | nil =>
          rfl
      | cons other others =>
          rw [List.length_cons, List.take_succ_cons, xorBytes, xorBytes,
            inductionHypothesis]

/-- The bytes that were read on their own decrypt as the keys do. -/
theorem decryptGathered_alone
    (C : CryptoSuite) (mem : Mem) (v : PacketView) {s : Session}
    (locked : s.state = .locked) (under : s.keys = keysOf mem) :
    decryptGathered C ((decryptSection v.channelId).alone mem).2 v =
      (sessionEncCheck C v s).2.map (·.buf) := by
  unfold decryptGathered sessionEncCheck
  rw [if_neg (show ¬ s.state ≠ .locked from not_not.mpr locked)]
  by_cases control : v.channelId = chControl
  · rw [if_pos control, if_pos control]
    rfl
  rw [if_neg control, if_neg control, under,
    decryptSection_alone v.channelId control]
  have aad :
      xorBytes (aadHeader v.buf.data)
          (if v.channelId < 6 then
            ((keysOf mem).channelKeys.getD v.channelId.toNat []).take 24
          else
            []) =
        buildAad (keysOf mem) v.channelId v.buf.data := by
    have length : (aadHeader v.buf.data).length = 24 := length_memSlice _ _ _
    unfold buildAad
    dsimp only
    split
    · rw [← length, xorBytes_take]
      rfl
    · exact xorBytes_take _ []
  dsimp only
  rw [aad]
  cases aeadDecrypt C (keysOf mem).sessionKey v.nonce
      (buildAad (keysOf mem) v.channelId v.buf.data) v.payloadBytes v.tag with
  | none => rfl
  | some plain => rfl

/-! ## Every interleaving -/

theorem decryptSection_data (channel : UInt8) (mem : Mem) :
    ((decryptSection channel).alone mem).1 = mem := by
  by_cases control : channel = chControl
  · rw [LockSection.alone, decryptSection, if_pos control]
    rfl
  · rw [decryptSection_alone channel control]

/-- The keys that jobs leave, one after the other. -/
theorem keysOf_serialData {Tid : Type} (mem : Mem)
    (order : List (Tid × KeyJob)) :
    keysOf
        (serialData mem
          (order.map fun entry => (entry.1, entry.2.section))) =
      keysAfter (keysOf mem) (order.map Prod.snd) := by
  induction order generalizing mem with
  | nil =>
      rfl
  | cons first order inductionHypothesis =>
      have later := inductionHypothesis (first.2.section.alone mem).1
      obtain ⟨t, job⟩ := first
      cases job with
      | rekey k =>
          rw [show (KeyJob.rekey k).section = rekeySection k from rfl,
            rekeySection_alone] at later
          exact later
      | decrypt v =>
          rw [show (KeyJob.decrypt v).section = decryptSection v.channelId
            from rfl, decryptSection_data] at later
          refine Eq.trans ?_ later
          change keysOf (serialData ((decryptSection v.channelId).alone mem).1
            _) = _
          rw [decryptSection_data]

/-- Threads with jobs on the keys of one session, under a schedule. -/
def keyWorld {Tid : Type} [DecidableEq Tid] (mem : Mem)
    (jobs : Tid → List KeyJob) (schedule : List Tid) :
    LockWorld Tid Mem GatheredKeys :=
  (LockWorld.start mem fun t => (jobs t).map KeyJob.section).run schedule

/-- The sections of some jobs. -/
def sectionsOf {Tid : Type} (order : List (Tid × KeyJob)) :
    List (Tid × LockSection Mem GatheredKeys) :=
  order.map fun entry => (entry.1, entry.2.section)

/-- The finished jobs took effect in this order.  It respects each thread and
holds exactly the jobs that the threads have finished, with the results they
have there one after the other; every packet was decrypted as
`session_enc_check` does it under the keys of the last rotation before it, and
whenever nobody holds the guard the keys are those of the last rotation. -/
structure KeyOrder {Tid : Type} [DecidableEq Tid] (C : CryptoSuite)
    (s : Session) (mem : Mem) (jobs : Tid → List KeyJob)
    (w : LockWorld Tid Mem GatheredKeys) (order : List (Tid × KeyJob)) :
    Prop where
  follows : ∀ t, ∃ left, jobs t = ofThread t order ++ left
  finished : ∀ t,
    (w.threads t).results.length = (ofThread t order).length
  results : ∀ t,
    (w.threads t).results = ofThread t (serialResults mem (sectionsOf order))
  decrypts : ∀ before t v after, order = before ++ (t, .decrypt v) :: after →
    ∃ g, (w.threads t).results[(ofThread t before).length]? = some g ∧
      decryptGathered C g v =
        (sessionEncCheck C v
          { s with
            keys := keysAfter (keysOf mem) (before.map Prod.snd) }).2.map
              (·.buf)
  keys : w.flag = false →
    keysOf w.data = keysAfter (keysOf mem) (order.map Prod.snd)

section

variable {Tid : Type} [DecidableEq Tid]

theorem length_ofThread_sectionsOf (t : Tid) (order : List (Tid × KeyJob)) :
    (ofThread t (sectionsOf order)).length = (ofThread t order).length := by
  simp [sectionsOf, ofThread, List.filter_map, Function.comp_def]

/-- Sections that have taken effect one after the other are jobs that have. -/
theorem keyOrder_of_serial
    (C : CryptoSuite) {s : Session} (locked : s.state = .locked) {mem : Mem}
    {jobs : Tid → List KeyJob} {w : LockWorld Tid Mem GatheredKeys}
    {order : List (Tid × KeyJob)}
    (serial :
      w.Serial mem (fun t => (jobs t).map KeyJob.section) (sectionsOf order))
    (follows : ∀ t, ∃ left, jobs t = ofThread t order ++ left) :
    KeyOrder C s mem jobs w order where
  follows := follows
  finished t := by
    rw [serial.results t, length_ofThread_serialResults,
      length_ofThread_sectionsOf]
  results := serial.results
  decrypts := by
    intro before t v after split
    refine ⟨((decryptSection v.channelId).alone
      (serialData mem (sectionsOf before))).2, ?_, ?_⟩
    · have results := serial.results t
      rw [split, sectionsOf, List.map_append, List.map_cons] at results
      rw [results, ← length_ofThread_sectionsOf]
      exact ofThread_serialResults _ _ _ _ _
    · apply decryptGathered_alone
      · exact locked
      · exact (keysOf_serialData mem before).symm
  keys := by
    intro free
    rw [← keysOf_serialData]
    exact congrArg keysOf (serial.free free).1

/-- Every interleaving of any number of threads has such an order, and what
was finished at an earlier moment is in front of what was finished later. -/
theorem key_guard_serializes
    (C : CryptoSuite) {s : Session} (locked : s.state = .locked) (mem : Mem)
    (jobs : Tid → List KeyJob) (schedule : List Tid) :
    ∃ order,
      KeyOrder C s mem jobs (keyWorld mem jobs schedule) order ∧
        ∀ earlier later, schedule = earlier ++ later →
          ∃ before, before <+: order ∧
            KeyOrder C s mem jobs (keyWorld mem jobs earlier) before := by
  obtain ⟨sections, serial, moments⟩ :=
    (LockWorld.serial_start mem
      fun t => (jobs t).map KeyJob.section).run schedule
  obtain ⟨order, made, follows⟩ := exists_jobs KeyJob.section serial.program
  rw [show sections = sectionsOf order from made] at serial moments
  refine ⟨order, keyOrder_of_serial C locked serial follows, ?_⟩
  intro earlier later split
  obtain ⟨front, inFront, done⟩ := moments earlier later split
  -- The jobs of the sections in front are the jobs in front.
  obtain ⟨behind, parts⟩ := inFront
  obtain ⟨before, rest, cut, same, -⟩ := List.map_eq_append_iff.mp parts.symm
  rw [← show sectionsOf before = front from same] at done
  refine ⟨before, ⟨rest, cut.symm⟩, keyOrder_of_serial C locked done ?_⟩
  intro t
  obtain ⟨left, whole⟩ := follows t
  refine ⟨ofThread t rest ++ left, ?_⟩
  rw [whole, cut, ofThread, List.filter_append, List.map_append,
    List.append_assoc]
  rfl

end

/-! ## A worker with one packet -/

def sampleWorker : Bool → List KeyJob
  | true => [.decrypt sampleChatView]
  | false => []

theorem key_guard_serializes_sample :
    let schedule := List.replicate 59 true
    ((keyWorld (fun _ => 1) sampleWorker schedule).threads true).results =
        [{ mask := List.replicate 24 1, key := List.replicate 32 1 }] ∧
      ∃ order,
        KeyOrder sampleSuite sampleKeyed (fun _ => 1) sampleWorker
            (keyWorld (fun _ => 1) sampleWorker schedule) order ∧
          ∀ earlier later, schedule = earlier ++ later →
            ∃ before, before <+: order ∧
              KeyOrder sampleSuite sampleKeyed (fun _ => 1) sampleWorker
                (keyWorld (fun _ => 1) sampleWorker earlier) before :=
  ⟨by decide +kernel,
    key_guard_serializes sampleSuite rfl (fun _ => 1) sampleWorker
      (List.replicate 59 true)⟩

end PqComm
