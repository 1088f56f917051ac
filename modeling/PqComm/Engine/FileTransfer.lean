import PqComm.Engine.Egress
import PqComm.Engine.SessionMoves

/-!
# Files from end to end

The receiving half of `file_transfer.c`, and what becomes of a file that is
given to `transport_engine_send_file`.

`file_send_start` sets the flag of the meta data and not the flag of the
transfer, which is the one `file_send_chunk` looks at.  So the engine never
pushes a chunk, whatever is called afterwards, and a receiver that was told of
the file has nothing to put together.
-/

namespace PqComm

open Lib

/-! ## `file_transfer.c`, receiving -/

def fileMaxChunks : Nat := 4194304

/-- `file_recv_t`.  `part` is the file at `path`, and `none` as long as no
chunk has named it. -/
structure FileRecv where
  details : FileMeta
  part : Option Bytes := none
  chunksRecvd : UInt32 := 0
  active : Bool := true

/-- `fseek` and `fwrite`; a gap before `off` is filled with zeros. -/
def writeAt (content : Bytes) (off : Nat) (data : Bytes) : Bytes :=
  (content ++ zeros (off - content.length)).take off ++ data ++
    content.drop (off + data.length)

/-- `file_recv_start`: the table with the new transfer at its end. -/
def fileRecvStart (recvs : List FileRecv) (info : FileMeta) :
    Option (List FileRecv) :=
  if recvs.length ≥ fileTransferMax ∨ info.totalChunks.toNat > fileMaxChunks
  then
    none
  else
    some (recvs ++ [{ details := info }])

/-- `file_recv_chunk`.  `left` is what a file of that name holds from an
earlier transfer. -/
def fileRecvChunk (recvs : List FileRecv) (idx : Nat) (left data : Bytes)
    (chunkSeq : UInt32) : Int × List FileRecv :=
  match recvs[idx]? with
  | none => (-1, recvs)
  | some r =>
      if !r.active || decide (chunkSeq ≥ r.details.totalChunks) then
        (-1, recvs)
      else
        let part := writeAt (r.part.getD left) (chunkSeq * 1024).toNat data
        let recvd := r.chunksRecvd + 1
        (if recvd ≥ r.details.totalChunks then 1 else 0,
          recvs.set idx { r with part := some part, chunksRecvd := recvd })

/-- `file_recv_finish`: the file it leaves in the download directory, or
`none` for -1. -/
def fileRecvFinish (recvs : List FileRecv) (idx : Nat) : Option Bytes :=
  match recvs[idx]? with
  | none => none
  | some r =>
      if !r.active || decide (r.chunksRecvd < r.details.totalChunks) then
        none
      else
        match r.part with
        | none => none
        | some part =>
            let read := part.take r.details.totalSize.toNat
            if read.length < r.details.totalSize.toNat then
              none
            else if fileChecksumLoop read.length read 0 ≠ r.details.checksum
            then
              none
            else
              some part

/-- The payload of a CH_FILE packet goes to `file_recv_chunk`: the number of
the chunk, then its bytes. -/
def feedChunk (left : Bytes) (idx : Nat) (recvs : List FileRecv)
    (payload : Bytes) : List FileRecv :=
  if payload.length < 4 then
    recvs
  else
    (fileRecvChunk recvs idx left (payload.drop 4)
      (UInt32.ofNat (leNat (payload.take 4)))).2

/-! ## What arrives -/

/-- The payloads of the chunks pushed between two states. -/
def newChunks (before after : Engine) : List Bytes :=
  (after.chunks.drop before.chunks.length).map TxItem.body

/-- A receiver that starts a transfer with `info` and is given the new chunks
in any order ends with `content`. -/
def FileArrives (before after : Engine) (info : FileMeta)
    (content : Bytes) : Prop :=
  ∃ recvs started, fileRecvStart recvs info = some started ∧
    ∀ (left : Bytes) (order : List Bytes),
      order.Perm (newChunks before after) →
      fileRecvFinish
        (order.foldl (feedChunk left recvs.length) started)
        recvs.length = some content

/-- Without a chunk there is no file, whatever was announced. -/
theorem fileRecvFinish_started
    {recvs started : List FileRecv} {info : FileMeta}
    (start : fileRecvStart recvs info = some started) :
    fileRecvFinish started recvs.length = none := by
  unfold fileRecvStart at start
  split at start
  · cases start
  · cases start
    have found :
        (recvs ++ [({ details := info } : FileRecv)])[recvs.length]? =
          some { details := info } := by
      simp
    unfold fileRecvFinish
    rw [found]
    dsimp only
    split
    · rfl
    · rfl

theorem not_fileArrives_of_chunks
    {before after : Engine} (same : after.chunks = before.chunks)
    (info : FileMeta) (content : Bytes) :
    ¬FileArrives before after info content := by
  rintro ⟨recvs, started, start, finishes⟩
  have none' : newChunks before after = [] := by
    rw [newChunks, same, List.drop_length, List.map_nil]
  have finished := finishes [] [] (by rw [none'])
  rw [List.foldl_nil, fileRecvFinish_started start] at finished
  cases finished

section

variable (C : CryptoSuite)

/-- No file that any engine sends arrives, whatever is called before and
after, and whatever the receiver was told of it. -/
theorem file_never_arrives
    (config : EngineConfig) (audio video : Bool)
    (acts later : List EngineAct) (file : DiskFile) (buf : Option PacketBuf)
    (info : FileMeta) :
    ¬FileArrives ((transportEngineInit config audio video).run C acts)
      ((transportEngineSendFile (some file) buf
        ((transportEngineInit config audio video).run C acts)).2.run C later)
      info file.content := by
  have before :=
    Advances.run (C := C) (filesIdle_init config audio video) acts
  have idle := before.idle (filesIdle_init config audio video)
  generalize (transportEngineInit config audio video).run C acts = e at idle
  have sent := Advances.sendFile (C := C) (e := e) (some file) buf
  have after := Advances.run (C := C) (sent.idle idle) later
  apply not_fileArrives_of_chunks
  exact after.chunks.trans sent.chunks

end

/-- A file of three bytes. -/
def sampleFile : DiskFile :=
  { basename := asciiBytes ['a', '.', 't', 'x', 't'], content := [1, 2, 3] }

/-- A poll that can read the file and has a buffer for a chunk. -/
def filePoll : EngineAct :=
  .poll
    { samplePoll with
      fileContent := some sampleFile.content, fileBuf := some default }

/-- On a locked engine the file is announced, and nine polls later no chunk of
it has left. -/
theorem sampleFile_never_leaves :
    let e :=
      (transportEngineInit sampleConfig false false).run sampleSuite
        lockingActs
    let sent := transportEngineSendFile (some sampleFile) (some default) e
    let after := sent.2.run sampleSuite (List.replicate 9 filePoll)
    (e.sessionIsLocked = true ∧ sent.1 = 0 ∧ after.curFileSendIdx = some 0) ∧
      (newChunks e after).length = 0 ∧
      ∀ send ∈ after.sends, ∀ started ∈ fileRecvStart [] send.details,
        fileRecvFinish started 0 = none := by
  decide +kernel

end PqComm
