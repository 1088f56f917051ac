import PqComm.Engine.LockStability
import PqComm.Pipeline.Outbound
import PqComm.Relay.RouteTable

/-!
# Forwarding

`relay_forward_route` takes a packet for another node out of a packet on the
route channel and queues it again.  At most 1024 bytes go on.  What goes to
the control channel of the other node goes in the clear, as every control
packet does; the rest is sealed for the session that it came in on.
-/

namespace PqComm

open Lib

/-! ## What is forwarded -/

/-- `[CTRL_ROUTE_DATA, dest, inner_channel, inner_data]`. -/
def routeDataPayload (dest : UInt64) (channel : UInt8) (inner : Bytes) :
    Bytes :=
  ctrlRouteData :: (leBytes 8 dest.toNat ++ channel :: inner)

/-- The address field of the packet begins with this address. -/
def PacketBuf.AddressedTo (p : PacketBuf) (addr : Bytes) : Prop :=
  addr.take sockaddrIn6Size <+: p.addr ∧ p.addrLen = sockaddrIn6Size

/-- One packet more waits on the chat ring, and nothing else has changed in
the rings. -/
def EnqueuesOne (before after : Engine) (p : PacketBuf) : Prop :=
  after.tx =
    Function.update before.tx 0
      (Function.update (before.tx 0) .chat (before.tx 0 .chat ++ [p]))

/-- The packet is encrypted, and the check of the session opens it. -/
def Decrypts (C : CryptoSuite) (sess : Session) (p : PacketBuf)
    (channel : UInt8) (payload : Bytes) : Prop :=
  ∃ view opened : PacketView,
    packetParse p = some view ∧ view.encrypted = true ∧
      sessionEncCheck C view sess = (sess, some opened) ∧
      opened.channelId = channel ∧ opened.payloadBytes = payload

/-- The packet is not encrypted. -/
def SentClear (p : PacketBuf) (channel : UInt8) (payload : Bytes) : Prop :=
  ∃ view : PacketView,
    packetParse p = some view ∧ view.encrypted = false ∧
      view.channelId = channel ∧ view.payloadBytes = payload

/-- One packet to the address carries the data under the session. -/
def ForwardsSealed (C : CryptoSuite) (before after : Engine)
    (sess : Session) (addr : Bytes) (channel : UInt8) (inner : Bytes) :
    Prop :=
  ∃ p, EnqueuesOne before after p ∧ p.AddressedTo addr ∧
    Decrypts C sess p channel inner

/-- What `relay_forward_route` builds. -/
def relayedPacket (C : CryptoSuite) (buf : PacketBuf) (sess : Session)
    (seq : UInt32) (channel : UInt8) (inner : Bytes) : PacketBuf :=
  if channel = chControl then
    buildPacket buf true 0 sess.sessionId channel seq inner
  else
    outboundPacket C buf sess seq channel inner

/-! ## Reading the payload -/

section

variable {C : CryptoSuite} {v : PacketView} {dest : UInt64}
  {channel : UInt8} {inner : Bytes}

/-- The fields of a route payload are where `relay_forward_route` looks. -/
theorem routeDataPayload_fields
    (payload : v.payloadBytes = routeDataPayload dest channel inner) :
    v.length = 10 + inner.length ∧ v.payloadAt 0 = ctrlRouteData ∧
      memSlice v.buf.data (v.payload + 1) 8 = leBytes 8 dest.toNat ∧
      v.payloadAt 9 = channel ∧
      memSlice v.buf.data (v.payload + 10) inner.length = inner := by
  have length : v.length = 10 + inner.length := by
    have lengths := congrArg List.length payload
    rw [PacketView.payloadBytes, length_memSlice, routeDataPayload,
      List.length_cons, List.length_append, length_leBytes,
      List.length_cons] at lengths
    omega
  refine ⟨length, ?_⟩
  have split : 10 + inner.length = 1 + (8 + (1 + inner.length)) := by
    omega
  rw [PacketView.payloadBytes, length, split, memSlice_append,
    memSlice_append, memSlice_append] at payload
  change _ = [ctrlRouteData] ++
    (leBytes 8 dest.toNat ++ ([channel] ++ inner)) at payload
  obtain ⟨opcode, rest⟩ := List.append_inj payload rfl
  obtain ⟨node, rest⟩ := List.append_inj rest (by simp)
  obtain ⟨kind, data⟩ := List.append_inj rest rfl
  exact ⟨List.head_eq_of_cons_eq opcode, node, List.head_eq_of_cons_eq kind,
    data⟩

/-! ## What is queued -/

theorem relayForwardRoute_out_eq
    {s : Session} (locked : s.state = .locked)
    (payload : v.payloadBytes = routeDataPayload dest channel inner)
    (known : dest ≠ relayNodeIdUnknown) {routes : List RouteEntry}
    {entry : RouteEntry} (routed : routeTableFind routes dest = some entry)
    (buf : PacketBuf) (seq : UInt32) (peerAddr : Bytes) :
    (relayForwardRoute C v s routes (some buf) seq peerAddr).out =
      some
        ((relayedPacket C buf s seq channel (inner.take 1024)).sendTo
          peerAddr, channel, inner.take 1024) := by
  obtain ⟨length, opcode, node, kind, data⟩ := routeDataPayload_fields payload
  have target :
      UInt64.ofNat (leNat (memSlice v.buf.data (v.payload + 1) 8)) =
        dest := by
    rw [node, uint64_leNat_leBytes]
  have short : (inner.take 1024).length ≤ 1476 := by
    rw [List.length_take]
    omega
  have copied :
      memSlice v.buf.data (v.payload + 10) (min (v.length - 10) 1024) =
        inner.take 1024 := by
    rw [length, Nat.add_sub_cancel_left, Nat.min_comm, ← take_memSlice, data]
  have parsed :=
    packetParse_buildPacket buf true 0 s.sessionId channel seq
      (inner.take 1024) (by decide) short
  unfold relayForwardRoute
  dsimp only
  rw [if_neg (by omega), if_neg (not_not.mpr opcode), target,
    if_neg known, routed, kind, copied]
  dsimp only
  rw [parsed]
  dsimp only
  by_cases control : channel = chControl
  · have clear :
        sessionEncApply C
            (buildPacket buf true 0 s.sessionId channel seq (inner.take 1024))
            (builtView buf true 0 s.sessionId channel seq (inner.take 1024))
            s =
          (true,
            buildPacket buf true 0 s.sessionId channel seq
              (inner.take 1024)) := by
      rw [sessionEncApply, if_neg (not_not.mpr locked)]
      exact if_pos control
    rw [clear, relayedPacket, if_pos control]
    rfl
  · rw [sessionEncApply_buildPacket C buf true s.sessionId channel seq
      (inner.take 1024) s locked control short, relayedPacket,
      if_neg control]
    rfl

/-- The packet on the chat ring. -/
theorem relayRoute_enqueues
    {e : Engine} {env : HandlerEnv} {s : Session}
    (locked : s.state = .locked)
    (payload : v.payloadBytes = routeDataPayload dest channel inner)
    (known : dest ≠ relayNodeIdUnknown) {entry : RouteEntry}
    (routed : routeTableFind e.routes dest = some entry) {buf : PacketBuf}
    (taken : env.relayBuf = some buf)
    (room : ringFull (e.tx 0 .chat) = false) :
    EnqueuesOne e (e.relayRoute C env v s)
      ((relayedPacket C buf s e.seqCounter channel (inner.take 1024)).sendTo
        e.peerAddr) := by
  have out :=
    relayForwardRoute_out_eq (C := C) locked payload known routed buf
      e.seqCounter e.peerAddr
  have pushed :
      ringPush (e.tx 0 .chat)
          ((relayedPacket C buf s e.seqCounter channel
            (inner.take 1024)).sendTo e.peerAddr) =
        (true, e.tx 0 .chat ++ [_]) :=
    if_neg (by rw [room]; exact Bool.false_ne_true)
  rw [EnqueuesOne, Engine.relayRoute, taken, out]
  simp only [Engine.enqueue, pushed]

theorem wire_sendTo (p : PacketBuf) (addr : Bytes) :
    (p.sendTo addr).wire = p.wire :=
  rfl

theorem addressedTo_sendTo (p : PacketBuf) (addr : Bytes) :
    (p.sendTo addr).AddressedTo addr :=
  ⟨List.prefix_append _ _, rfl⟩

/-- A packet is addressed to one host only. -/
theorem PacketBuf.AddressedTo.unique
    {p : PacketBuf} {addr addr' : Bytes} (left : p.AddressedTo addr)
    (right : p.AddressedTo addr') (size : addr.length = sockaddrIn6Size)
    (size' : addr'.length = sockaddrIn6Size) : addr = addr' := by
  have here : addr <+: p.addr := by
    have front := left.1
    rwa [List.take_of_length_le (Nat.le_of_eq size)] at front
  have there : addr' <+: p.addr := by
    have front := right.1
    rwa [List.take_of_length_le (Nat.le_of_eq size')] at front
  have equal : addr.length = addr'.length :=
    size.trans size'.symm
  exact (List.prefix_of_prefix_length_le here there
    (Nat.le_of_eq equal)).eq_of_length equal

/-- The route that was found is not read again: the packet leaves for the peer
of the engine, also when the route has another address. -/
theorem relayRoute_leaves_for_peer
    {e : Engine} {env : HandlerEnv} {s : Session}
    (locked : s.state = .locked)
    (payload : v.payloadBytes = routeDataPayload dest channel inner)
    (known : dest ≠ relayNodeIdUnknown) {entry : RouteEntry}
    (routed : routeTableFind e.routes dest = some entry) {buf : PacketBuf}
    (taken : env.relayBuf = some buf)
    (room : ringFull (e.tx 0 .chat) = false)
    (peerSize : e.peerAddr.length = sockaddrIn6Size)
    (routeSize : entry.addr.length = sockaddrIn6Size)
    (elsewhere : entry.addr ≠ e.peerAddr) :
    ∃ p, EnqueuesOne e (e.relayRoute C env v s) p ∧
      p.AddressedTo e.peerAddr ∧ ¬ p.AddressedTo entry.addr := by
  have queued :=
    relayRoute_enqueues (C := C) locked payload known routed taken room
  refine ⟨_, queued, addressedTo_sendTo _ _, ?_⟩
  intro toRoute
  exact elsewhere
    (toRoute.unique (addressedTo_sendTo _ _) routeSize peerSize)

/-- On the data channels the packet is sealed. -/
theorem relayedPacket_decrypts
    (aead : AeadInverts C) {sender receiver : Session}
    (shares : SharesKeys sender receiver) (data : channel ≠ chControl)
    (fits : inner.length ≤ 1448) (buf : PacketBuf) (seq : UInt32)
    (addr : Bytes) :
    Decrypts C receiver
      ((relayedPacket C buf sender seq channel inner).sendTo addr) channel
      inner := by
  have wire := wire_sendTo (relayedPacket C buf sender seq channel inner) addr
  rw [relayedPacket, if_neg data] at wire ⊢
  obtain ⟨view, opened, parsed, same, checked, contents, _, _, kind, _⟩ :=
    outboundPacket_opened aead shares data (by omega) buf seq wire
  exact ⟨view, opened, parsed, same.encrypted, checked, kind, contents⟩

/-- On the control channel it is not. -/
theorem relayedPacket_clear
    (control : channel = chControl) (fits : inner.length ≤ 1476)
    (buf : PacketBuf) (sess : Session) (seq : UInt32) (addr : Bytes) :
    SentClear ((relayedPacket C buf sess seq channel inner).sendTo addr)
      channel inner := by
  have wire := wire_sendTo (relayedPacket C buf sess seq channel inner) addr
  rw [relayedPacket, if_pos control] at wire ⊢
  obtain ⟨view, parsed, same⟩ :=
    packetParse_same_wire
      (packetParse_buildPacket buf true 0 sess.sessionId channel seq inner
        (by decide) fits) wire
  exact ⟨view, parsed, same.encrypted, same.channelId,
    same.payload.trans (builtView_payloadBytes _ _ _ _ _ _ _)⟩

/-- A route payload for a node that has a route leaves as one packet with the
first 1024 bytes of its data.  It is sealed, and decrypts to the inner channel
and those bytes, unless the inner channel is the control channel, where it is
in the clear.  It goes to the address of the route when the engine has it for
its peer. -/
theorem relay_forwards_clamped
    (aead : AeadInverts C) {e : Engine} {calls : List RouteCall}
    (table : e.routes = (RouteTable.after calls).live) {s receiver : Session}
    (shares : SharesKeys s receiver)
    (payload : v.payloadBytes = routeDataPayload dest channel inner)
    {route : Route}
    (routed : (RouteTable.after calls).lookup dest = some route)
    {env : HandlerEnv} {buf : PacketBuf} (taken : env.relayBuf = some buf)
    (room : ringFull (e.tx 0 .chat) = false) :
    ∃ p, EnqueuesOne e (e.relayRoute C env v s) p ∧
      (route.addr = e.peerAddr → p.AddressedTo route.addr) ∧
      (channel ≠ chControl →
        Decrypts C receiver p channel (inner.take 1024)) ∧
      (channel = chControl → SentClear p channel (inner.take 1024)) := by
  obtain ⟨entry, found, known⟩ := RouteTable.route_of_lookup routed
  rw [← table] at found
  have short : (inner.take 1024).length ≤ 1024 :=
    List.length_take_le 1024 inner
  refine ⟨_,
    relayRoute_enqueues shares.senderLocked payload known found taken room,
    ?_, ?_, ?_⟩
  · intro same
    rw [same]
    exact addressedTo_sendTo _ _
  · intro data
    exact relayedPacket_decrypts aead shares data (by omega) _ _ _
  · intro control
    exact relayedPacket_clear control (by omega) _ _ _ _

end

/-! ## Two packets that arrive otherwise -/

theorem EnqueuesOne.unique
    {before after : Engine} {p q : PacketBuf}
    (left : EnqueuesOne before after p)
    (right : EnqueuesOne before after q) : p = q := by
  have chat := congrFun (congrFun (left.symm.trans right) 0) TxQueue.chat
  simp only [Function.update_self] at chat
  exact List.head_eq_of_cons_eq (List.append_cancel_left chat)

theorem Decrypts.unique
    {C : CryptoSuite} {sess : Session} {p : PacketBuf}
    {channel channel' : UInt8} {payload payload' : Bytes}
    (left : Decrypts C sess p channel payload)
    (right : Decrypts C sess p channel' payload') : payload = payload' := by
  obtain ⟨view, opened, parsed, _, checked, _, contents⟩ := left
  obtain ⟨view', opened', parsed', _, checked', _, contents'⟩ := right
  rw [parsed, Option.some_inj] at parsed'
  rw [← parsed', checked, Prod.mk.injEq, Option.some_inj] at checked'
  rw [← contents, ← contents', checked'.2]

theorem SentClear.not_decrypts
    {C : CryptoSuite} {sess : Session} {p : PacketBuf}
    {channel channel' : UInt8} {payload payload' : Bytes}
    (clear : SentClear p channel payload) :
    ¬ Decrypts C sess p channel' payload' := by
  rintro ⟨view, _, parsed, encrypted, _⟩
  obtain ⟨view', parsed', plain, _⟩ := clear
  rw [parsed, Option.some_inj] at parsed'
  rw [← parsed', encrypted] at plain
  cases plain

/-- An engine with a route to node 7, at the address of its peer. -/
def sampleRelayCalls : List RouteCall :=
  [.add 7 9 (zeros 28) 28]

def sampleRelay : Engine :=
  { lockedEngine false with
    routes := (RouteTable.after sampleRelayCalls).live }

/-- A packet for node 7 after decryption. -/
def sampleRouted (channel : UInt8) (inner : Bytes) : PacketView :=
  builtView default true 0 9 chRoute 5 (routeDataPayload 7 channel inner)

theorem sampleRelay_enqueues (channel : UInt8) (inner : Bytes) :
    EnqueuesOne sampleRelay
      (sampleRelay.relayRoute sampleSuite sampleHandlerEnv
        (sampleRouted channel inner) sampleEnd)
      ((relayedPacket sampleSuite default sampleEnd 1 channel
        (inner.take 1024)).sendTo (zeros 28)) :=
  relayRoute_enqueues rfl (builtView_payloadBytes _ _ _ _ _ _ _)
    (by decide : (7 : UInt64) ≠ relayNodeIdUnknown)
    (rfl : routeTableFind sampleRelay.routes 7 =
      some { nodeId := 7, sessionId := 9, addr := zeros 28, addrLen := 28 })
    rfl rfl

/-- Of 1025 bytes the last one is lost, and a packet for the control channel
is not encrypted. -/
theorem relay_shortens_or_clears :
    ¬ ForwardsSealed sampleSuite sampleRelay
        (sampleRelay.relayRoute sampleSuite sampleHandlerEnv
          (sampleRouted chChat (zeros 1025)) sampleEnd)
        sampleEnd (zeros 28) chChat (zeros 1025) ∧
      ¬ ForwardsSealed sampleSuite sampleRelay
        (sampleRelay.relayRoute sampleSuite sampleHandlerEnv
          (sampleRouted chControl [1]) sampleEnd)
        sampleEnd (zeros 28) chControl [1] := by
  have shares : SharesKeys sampleEnd sampleEnd :=
    ⟨rfl, rfl, rfl, rfl, rfl⟩
  have short : ((zeros 1025).take 1024).length = 1024 := by
    rw [List.length_take, length_zeros]
    rfl
  constructor
  · rintro ⟨p, queued, _, opens⟩
    rw [queued.unique (sampleRelay_enqueues chChat (zeros 1025))] at opens
    have shorter :=
      (relayedPacket_decrypts aeadInverts_sampleSuite shares
        (by decide : chChat ≠ chControl)
        (by omega : ((zeros 1025).take 1024).length ≤ 1448) default 1
        (zeros 28)).unique opens
    have lengths := congrArg List.length shorter
    rw [short, length_zeros] at lengths
    exact absurd lengths (by decide)
  · rintro ⟨p, queued, _, opens⟩
    rw [queued.unique (sampleRelay_enqueues chControl [1])] at opens
    exact (relayedPacket_clear rfl (by decide) default sampleEnd 1
      (zeros 28)).not_decrypts opens

/-- A chat message of two bytes goes on to node 7. -/
theorem relay_forwards_clamped_chat :
    ∃ p,
      EnqueuesOne sampleRelay
          (sampleRelay.relayRoute sampleSuite sampleHandlerEnv
            (sampleRouted chChat [104, 105]) sampleEnd) p ∧
        p.AddressedTo (zeros 28) ∧
        Decrypts sampleSuite sampleEnd p chChat [104, 105] := by
  obtain ⟨p, queued, addressed, opens, _⟩ :=
    relay_forwards_clamped aeadInverts_sampleSuite
      (rfl : sampleRelay.routes = (RouteTable.after sampleRelayCalls).live)
      (⟨rfl, rfl, rfl, rfl, rfl⟩ : SharesKeys sampleEnd sampleEnd)
      (builtView_payloadBytes default true 0 9 chRoute 5
        (routeDataPayload 7 chChat [104, 105]))
      (rfl : (RouteTable.after sampleRelayCalls).lookup 7 =
        some { sessionId := 9, addr := zeros 28, addrLen := 28 })
      (rfl : sampleHandlerEnv.relayBuf = some default)
      (rfl : ringFull (sampleRelay.tx 0 .chat) = false)
  exact ⟨p, queued, addressed rfl, opens (by decide)⟩

end PqComm
