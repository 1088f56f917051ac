import PqComm.Core.Session

/-!
# Control messages of a locked session

`heartbeat.c`, `reconnect.c`, `port_hop.c` and `conn_request.c`.  A function
that may push a packet on the control queue returns it as `out`; whether the
queue has room is decided by the caller of the model, as `ring_push` decides
it in the source.
-/

namespace PqComm

open Lib

/-- What a control function leaves: its result, the session, the sequence
counter and the packet it pushes. -/
structure CtlOut where
  ret : Int
  sess : Session
  seq : UInt32
  out : Option PacketBuf := none

/-- The byte where the handlers look for the opcode. -/
def PacketBuf.opcode (p : PacketBuf) : UInt8 :=
  p.data headerSize

/-- `memcpy(&id, p->data + 25, 8)`. -/
def PacketBuf.word (p : PacketBuf) : UInt64 :=
  UInt64.ofNat (leNat (memSlice p.data 25 8))

/-- `memcpy(p->addr, addr, sizeof(struct sockaddr_in6))` with its length. -/
def PacketBuf.sendTo (p : PacketBuf) (addr : Bytes) : PacketBuf :=
  p.setAddr (overlay p.addr (addr.take sockaddrIn6Size)) sockaddrIn6Size

/-- A message on the control channel. -/
def controlPacket
    (buf : PacketBuf) (clear : Bool) (sessionId : UInt64) (seq : UInt32)
    (payload : Bytes) : PacketBuf :=
  buildPacket buf clear 0 sessionId chControl seq payload

def sessionIdBytes (s : Session) : Bytes :=
  leBytes 8 s.sessionId.toNat

/-- Every path was heard of at `now`. -/
def Session.touchPaths (s : Session) (now : UInt64) : Session :=
  { s with
    resilience :=
      s.resilience.setPaths fun path => { path with lastActivityMs := now } }

/-! ## `heartbeat.c` -/

/-- `heartbeat_send`. -/
def heartbeatSend
    (s : Session) (buf : Option PacketBuf) (seq : UInt32) (now : UInt64) :
    CtlOut :=
  if s.state ≠ .locked then
    { ret := 0, sess := s, seq := seq }
  else
    match buf with
    | none => { ret := -1, sess := s, seq := seq }
    | some buf =>
        let payload :=
          ctrlHeartbeat :: (sessionIdBytes s ++ leBytes 8 now.toNat)
        { ret := 0
          sess :=
            { s with resilience := { s.resilience with lastHeartbeatMs := now } }
          seq := seq + 1
          out :=
            some
              ((controlPacket buf true s.sessionId seq payload).setAddr s.addr
                s.addrLen) }

/-- The session has heard a heartbeat. -/
def Session.heardHeartbeat (s : Session) (now : UInt64) : Session :=
  { s.touchPaths now with lastHeartbeatRxMs := now }

/-- `heartbeat_handle`. -/
def heartbeatHandle
    (p : PacketBuf) (s : Session) (buf : Option PacketBuf) (seq : UInt32)
    (now : UInt64) : CtlOut :=
  if p.len < 25 then
    { ret := 0, sess := s, seq := seq }
  else if p.opcode = ctrlHeartbeat then
    if p.len < 41 then
      { ret := -1, sess := s, seq := seq }
    else
      let s := s.heardHeartbeat now
      match buf with
      | none => { ret := 0, sess := s, seq := seq }
      | some buf =>
          let payload :=
            ctrlHeartbeatAck :: (sessionIdBytes s ++ memSlice p.data 33 8)
          { ret := 1
            sess := s
            seq := seq + 1
            out :=
              some
                ((controlPacket buf true s.sessionId seq payload).setAddr
                  p.addr p.addrLen) }
  else if p.opcode = ctrlHeartbeatAck then
    { ret := 1, sess := s.heardHeartbeat now, seq := seq }
  else
    { ret := 0, sess := s, seq := seq }

/-- `heartbeat_tick`. -/
def heartbeatTick
    (s : Session) (buf : Option PacketBuf) (seq : UInt32) (now : UInt64) :
    CtlOut :=
  if s.state ≠ .locked then
    { ret := 0, sess := s, seq := seq }
  else if now - s.resilience.lastHeartbeatMs ≥
      s.resilience.heartbeatIntervalMs.toUInt64 then
    { heartbeatSend s buf seq now with ret := 1 }
  else
    { ret := 0
      sess := { s with resilience := resilienceTick s.resilience now }
      seq := seq }

/-! ## `reconnect.c` -/

def reconnectRetryMs : UInt64 := 2000

/-- `reconnect_send_request`. -/
def reconnectSendRequest
    (s : Session) (buf : Option PacketBuf) (seq : UInt32) : CtlOut :=
  match buf with
  | none => { ret := -1, sess := s, seq := seq }
  | some buf =>
      let payload :=
        ctrlReconnect :: (sessionIdBytes s ++ leBytes 8 s.lastSeq.toNat)
      { ret := 0
        sess :=
          { s with
            reconnectAttempts := s.reconnectAttempts + 1
            reconnectStartMs := 0 }
        seq := seq + 1
        out :=
          some
            ((controlPacket buf true s.sessionId seq payload).setAddr s.addr
              s.addrLen) }

/-- `reconnect_send_ack`. -/
def reconnectSendAck
    (s : Session) (buf : Option PacketBuf) (seq : UInt32) (dest : Bytes) :
    CtlOut :=
  match buf with
  | none => { ret := -1, sess := s, seq := seq }
  | some buf =>
      { ret := 0
        sess := s
        seq := seq + 1
        out :=
          some
            ((controlPacket buf true s.sessionId seq
              (ctrlReconnectAck :: sessionIdBytes s)).sendTo dest) }

/-- The session has been reached again. -/
def Session.reached (s : Session) (now : UInt64) : Session :=
  { s with
    resilience :=
      s.resilience.setPaths fun path =>
        { path with state := .active, lastActivityMs := now }
    reconnectAttempts := 0
    reconnectPending := false }

/-- `reconnect_handle`. -/
def reconnectHandle
    (p : PacketBuf) (s : Session) (buf : Option PacketBuf) (seq : UInt32)
    (now : UInt64) : CtlOut :=
  if p.len < 25 then
    { ret := 0, sess := s, seq := seq }
  else if p.opcode = ctrlReconnect then
    if p.word ≠ s.sessionId ∨ s.state ≠ .locked then
      { ret := 0, sess := s, seq := seq }
    else
      { reconnectSendAck (s.reached now) buf seq p.addr with ret := 1 }
  else if p.opcode = ctrlReconnectAck then
    if p.word ≠ s.sessionId ∨ s.state ≠ .locked then
      { ret := 0, sess := s, seq := seq }
    else
      { ret := 1, sess := s.reached now, seq := seq }
  else
    { ret := 0, sess := s, seq := seq }

/-- `reconnect_tick`. -/
def reconnectTick
    (s : Session) (buf : Option PacketBuf) (seq : UInt32) (now : UInt64) :
    CtlOut :=
  if s.state ≠ .locked then
    { ret := 0, sess := s, seq := seq }
  else if (List.range s.resilience.pathCount).all fun i =>
      (s.resilience.paths i).state != .down then
    { ret := 0, sess := s, seq := seq }
  else if s.reconnectAttempts ≥ s.resilience.maxReconnectAttempts then
    { ret := -1
      sess := { sessionZeroSecrets s with state := .idle }
      seq := seq }
  else if s.reconnectStartMs = 0 then
    { reconnectSendRequest { s with reconnectStartMs := now } buf seq with
      ret := 1 }
  else if now - s.reconnectStartMs ≥ reconnectRetryMs then
    { reconnectSendRequest s buf seq with ret := 1 }
  else
    { ret := 0, sess := s, seq := seq }

/-! ## `port_hop.c` -/

/-- `port_hop_send_request`. -/
def portHopSendRequest
    (s : Session) (buf : Option PacketBuf) (seq : UInt32) (peerAddr : Bytes)
    (newPort : UInt16) : CtlOut :=
  match buf with
  | none => { ret := -1, sess := s, seq := seq }
  | some buf =>
      { ret := 0
        sess := { s with hopTargetPort := newPort }
        seq := seq + 1
        out :=
          some
            ((controlPacket buf true s.sessionId seq
              (ctrlPortHop :: (htons newPort ++ sessionIdBytes s))).sendTo
                peerAddr) }

/-- `port_hop_send_ack`. -/
def portHopSendAck
    (s : Session) (buf : Option PacketBuf) (seq : UInt32) (dest : Bytes) :
    CtlOut :=
  match buf with
  | none => { ret := -1, sess := s, seq := seq }
  | some buf =>
      { ret := 0
        sess := s
        seq := seq + 1
        out :=
          some
            ((controlPacket buf true s.sessionId seq
              (ctrlPortHopAck :: sessionIdBytes s)).sendTo dest) }

/-- The address of the session with the port of a PORT_HOP, which is in
network order on the wire already. -/
def hopAddr (s : Session) (port : Bytes) : Bytes :=
  setSinPort (s.addr.take sockaddrIn6Size) port

/-- `port_hop_handle`: the result and the session. -/
def portHopHandle (p : PacketBuf) (s : Session) : Int × Session :=
  if p.len < 25 then
    (0, s)
  else if p.opcode = ctrlPortHop then
    if p.len < 35 then
      (-1, s)
    else
      let port := memSlice p.data 25 2
      let newAddr := hopAddr s port
      let t := sessionRegisterPath s s.resilience.pathCount newAddr
      (1,
        { t with
          hopTargetPort := ntohs port
          resilience :=
            { t.resilience with
              pathCount :=
                if t.resilience.pathCount < resilienceMaxPaths then
                  t.resilience.pathCount + 1
                else
                  t.resilience.pathCount }
          addr := overlay t.addr newAddr
          addrLen := sockaddrIn6Size })
  else if p.opcode = ctrlPortHopAck then
    if p.len < 33 then
      (-1, s)
    else
      (2, s)
  else
    (0, s)

/-! ## `conn_request.c` -/

/-- `pending_request_t`; a request that is not active is not in the table. -/
structure PendingRequest where
  addr : Bytes
  port : UInt16
  username : Bytes
  displayName : Bytes
  timestampMs : UInt64

def connRequestMaxPending : Nat := 8

/-- `g_conn_requests.requests`. -/
def ConnRequestTable : Type := Nat → Option PendingRequest

instance : Inhabited ConnRequestTable :=
  ⟨fun _ => none⟩

/-- `conn_request_build`, for a session that exists. -/
def connRequestBuild
    (s : Session) (buf : Option PacketBuf) (seq : UInt32)
    (username displayName : Bytes) : CtlOut :=
  if username.length > 31 ∨ displayName.length > 63 then
    { ret := -1, sess := s, seq := seq }
  else
    match buf with
    | none => { ret := -1, sess := s, seq := seq }
    | some buf =>
        let payload :=
          ctrlConnectRequest :: UInt8.ofNat username.length ::
            (username ++
              UInt8.ofNat displayName.length :: displayName)
        { ret := 0
          sess := s
          seq := seq + 1
          out :=
            some
              ((controlPacket buf false s.sessionId seq payload).sendTo
                s.addr) }

/-- The common end of `conn_request_send_accept` and
`conn_request_send_decline`. -/
def connRequestReply
    (s : Session) (buf : Option PacketBuf) (seq : UInt32)
    (peerAddr payload : Bytes) : CtlOut :=
  match buf with
  | none => { ret := -1, sess := s, seq := seq }
  | some buf =>
      { ret := 0
        sess := s
        seq := seq + 1
        out :=
          some
            ((controlPacket buf false s.sessionId seq payload).sendTo
              peerAddr) }

/-- `conn_request_send_accept`. -/
def connRequestSendAccept
    (s : Session) (buf : Option PacketBuf) (seq : UInt32) (peerAddr : Bytes) :
    CtlOut :=
  connRequestReply s buf seq peerAddr [ctrlConnectAccept]

/-- `conn_request_send_decline`, which cuts the reason at 63 bytes. -/
def connRequestSendDecline
    (s : Session) (buf : Option PacketBuf) (seq : UInt32)
    (peerAddr reason : Bytes) : CtlOut :=
  let reason := reason.take 63
  connRequestReply s buf seq peerAddr
    (ctrlConnectDecline :: UInt8.ofNat reason.length :: reason)

/-- The first free place of the table. -/
def ConnRequestTable.free (table : ConnRequestTable) : Option Nat :=
  (List.range connRequestMaxPending).find? fun i => (table i).isNone

/-- `conn_request_handle`; `txq` says whether the queue pointer is given. -/
def connRequestHandle
    (table : ConnRequestTable) (p : PacketBuf) (txq isResponder : Bool)
    (now : UInt64) : Int × ConnRequestTable :=
  if !txq then
    (-1, table)
  else if p.opcode = ctrlConnectRequest then
    if !isResponder then
      (0, table)
    else
      let unameLen := (p.data 25).toNat
      if unameLen > 31 then
        (0, table)
      else
        match table.free with
        | none => (0, table)
        | some slot =>
            let dnameLen := min (p.data (26 + unameLen)).toNat 63
            let request : PendingRequest :=
              { addr := sin6Addr p.addr
                port := ntohs (sinPort p.addr)
                username := memSlice p.data 26 unameLen
                displayName := memSlice p.data (27 + unameLen) dnameLen
                timestampMs := now }
            (1, fun i => if i = slot then some request else table i)
  else if p.opcode = ctrlConnectAccept then
    (2, table)
  else if p.opcode = ctrlConnectDecline then
    (3, table)
  else
    (0, table)

/-- `conn_request_find`. -/
def connRequestFind (table : ConnRequestTable) (addr : Bytes) :
    Option PendingRequest :=
  ((List.range connRequestMaxPending).filterMap table).find? fun request =>
    request.addr == sin6Addr addr && request.port == ntohs (sinPort addr)

/-! ## What these functions leave alone -/

theorem untouched_heardHeartbeat (s : Session) (now : UInt64) :
    Untouched s (s.heardHeartbeat now) :=
  ⟨⟨rfl, rfl, rfl, rfl⟩, rfl⟩

theorem untouched_reached (s : Session) (now : UInt64) :
    Untouched s (s.reached now) :=
  ⟨⟨rfl, rfl, rfl, rfl⟩, rfl⟩

theorem untouched_heartbeatHandle
    (p : PacketBuf) (s : Session) (buf : Option PacketBuf) (seq : UInt32)
    (now : UInt64) :
    Untouched s (heartbeatHandle p s buf seq now).sess := by
  unfold heartbeatHandle
  split
  · exact Untouched.refl s
  · split
    · split
      · exact Untouched.refl s
      · cases buf with
        | none => exact untouched_heardHeartbeat s now
        | some buf => exact untouched_heardHeartbeat s now
    · split
      · exact untouched_heardHeartbeat s now
      · exact Untouched.refl s

theorem untouched_reconnectHandle
    (p : PacketBuf) (s : Session) (buf : Option PacketBuf) (seq : UInt32)
    (now : UInt64) :
    Untouched s (reconnectHandle p s buf seq now).sess := by
  unfold reconnectHandle
  split
  · exact Untouched.refl s
  · split
    · split
      · exact Untouched.refl s
      · cases buf with
        | none => exact untouched_reached s now
        | some buf => exact untouched_reached s now
    · split
      · split
        · exact Untouched.refl s
        · exact untouched_reached s now
      · exact Untouched.refl s

theorem untouched_registerPath (s : Session) (idx : Nat) (addr : Bytes) :
    Untouched s (sessionRegisterPath s idx addr) := by
  unfold sessionRegisterPath
  split
  · exact Untouched.refl s
  · exact ⟨⟨rfl, rfl, rfl, rfl⟩, rfl⟩

theorem untouched_portHopHandle (p : PacketBuf) (s : Session) :
    Untouched s (portHopHandle p s).2 := by
  unfold portHopHandle
  split
  · exact Untouched.refl s
  · split
    · split
      · exact Untouched.refl s
      · have core := untouched_registerPath s s.resilience.pathCount
          (hopAddr s (memSlice p.data 25 2))
        exact
          ⟨⟨core.state, core.role, core.sessionId, core.keys⟩, core.hs⟩
    · split
      · split <;> exact Untouched.refl s
      · exact Untouched.refl s

theorem untouched_portHopSendAck
    (s : Session) (buf : Option PacketBuf) (seq : UInt32) (dest : Bytes) :
    Untouched s (portHopSendAck s buf seq dest).sess := by
  cases buf with
  | none => exact Untouched.refl s
  | some buf => exact Untouched.refl s

theorem untouched_heartbeatTick
    (s : Session) (buf : Option PacketBuf) (seq : UInt32) (now : UInt64) :
    Untouched s (heartbeatTick s buf seq now).sess := by
  unfold heartbeatTick
  split
  · exact Untouched.refl s
  · split
    · unfold heartbeatSend
      cases buf with
      | none => split <;> exact ⟨⟨rfl, rfl, rfl, rfl⟩, rfl⟩
      | some buf => split <;> exact ⟨⟨rfl, rfl, rfl, rfl⟩, rfl⟩
    · exact ⟨⟨rfl, rfl, rfl, rfl⟩, rfl⟩

/-- Without a pointer to the queues nothing is handled. -/
theorem connRequestHandle_no_queue
    (table : ConnRequestTable) (p : PacketBuf) (isResponder : Bool)
    (now : UInt64) :
    connRequestHandle table p false isResponder now = (-1, table) :=
  rfl

end PqComm
