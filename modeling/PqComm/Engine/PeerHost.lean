import Mathlib.Data.List.Induction
import PqComm.Engine.LockStability
import PqComm.Engine.ReceivePaths

/-!
# The host of a session

`port_hop_handle` moves the address of a session, and it asks nobody: a
PORT_HOP of any sender does.  It writes the port only.  Whatever control
packets arrive, the session stays with the host that it was set up with, data
is accepted from that host alone, and nothing is sent to a third one.
-/

namespace PqComm

open Lib

/-- `sockaddr_in6` of one host: what `session_check` compares besides the
port. -/
def SameHost (a b : Bytes) : Prop :=
  sinFamily a = sinFamily b ∧ sin6Addr a = sin6Addr b

theorem SameHost.refl (a : Bytes) : SameHost a a :=
  ⟨rfl, rfl⟩

theorem SameHost.symm {a b : Bytes} (same : SameHost a b) : SameHost b a :=
  ⟨same.1.symm, same.2.symm⟩

theorem SameHost.trans
    {a b c : Bytes} (first : SameHost a b) (second : SameHost b c) :
    SameHost a c :=
  ⟨first.1.trans second.1, first.2.trans second.2⟩

/-- The size of the address fields of the source. -/
def addrBytes : Nat := 32

/-- Behind the bytes of `src`, nothing of `dst` reaches family and address. -/
theorem sameHost_overlay
    {dst src : Bytes} (long : 24 ≤ src.length) :
    SameHost src (overlay dst src) := by
  have family : 2 ≤ src.length := by
    omega
  constructor
  · unfold sinFamily overlay
    rw [List.take_append_of_le_length family]
  · unfold sin6Addr overlay
    rw [List.drop_append_of_le_length (by omega),
      List.take_append_of_le_length (by rw [List.length_drop]; omega)]

theorem sameHost_take
    {a : Bytes} {n : Nat} (long : 24 ≤ n) : SameHost a (a.take n) := by
  constructor
  · unfold sinFamily
    rw [List.take_take, Nat.min_eq_left (by omega)]
  · unfold sin6Addr
    rw [List.drop_take, List.take_take, Nat.min_eq_left (by omega)]

/-- The answer to a packet goes to its source. -/
theorem sameHost_sendTo
    {a : Bytes} (size : a.length = addrBytes) (p : PacketBuf) :
    SameHost a (p.sendTo a).addr := by
  have long : 24 ≤ (a.take sockaddrIn6Size).length := by
    rw [List.length_take, size]
    decide
  exact (sameHost_take (by decide)).trans (sameHost_overlay long)

theorem sameHost_setSinPort
    {a port : Bytes} (size : 4 ≤ a.length) (two : port.length = 2) :
    SameHost a (setSinPort a port) := by
  have head : (a.take 2).length = 2 := by
    rw [List.length_take]
    omega
  constructor
  · unfold sinFamily setSinPort
    rw [List.append_assoc, List.take_left' head]
  · have front : (a.take 2 ++ port).length = 4 := by
      rw [List.length_append, head, two]
    have gone : (a.take 2 ++ port).drop 8 = [] :=
      List.drop_eq_nil_of_le (by rw [front]; decide)
    unfold sin6Addr setSinPort
    rw [List.drop_append, gone, front, List.nil_append, List.drop_drop]

theorem sinPort_setSinPort
    {a port : Bytes} (size : 4 ≤ a.length) (two : port.length = 2) :
    sinPort (setSinPort a port) = port := by
  have head : (a.take 2).length = 2 := by
    rw [List.length_take]
    omega
  unfold sinPort setSinPort
  rw [List.append_assoc, List.drop_left' head, List.take_left' two]

/-! ## One control packet -/

/-- The session has moved to another port of its host at most. -/
structure StaysHome (s s' : Session) : Prop where
  size : s'.addr.length = s.addr.length
  host : SameHost s.addr s'.addr

theorem StaysHome.of_addr
    {s s' : Session} (same : s'.addr = s.addr) : StaysHome s s' where
  size := by rw [same]
  host := by
    rw [same]
    exact SameHost.refl s.addr

theorem StaysHome.trans
    {s t u : Session} (first : StaysHome s t) (second : StaysHome t u) :
    StaysHome s u :=
  ⟨second.size.trans first.size, first.host.trans second.host⟩

/-- The session stays on its port, or has gone to that of a PORT_HOP. -/
def PortFrom (s : Session) (p : PacketBuf) (s' : Session) : Prop :=
  sinPort s'.addr = sinPort s.addr ∨
    p.opcode = ctrlPortHop ∧ sinPort s'.addr = memSlice p.data 25 2

/-- The packet goes to the host of the session or to that of `p`. -/
def GoesHome (s : Session) (p o : PacketBuf) : Prop :=
  SameHost s.addr o.addr ∨ SameHost p.addr o.addr

/-- What a control function does with the packet `p`. -/
structure ControlFrame (s : Session) (p : PacketBuf) (s' : Session)
    (out : Option PacketBuf) : Prop where
  home : StaysHome s s'
  port : PortFrom s p s'
  out : ∀ o ∈ out, GoesHome s p o

section

variable {s : Session} {p : PacketBuf}

theorem ControlFrame.of_addr
    {s' : Session} (same : s'.addr = s.addr) {out : Option PacketBuf}
    (home : ∀ o ∈ out, GoesHome s p o) : ControlFrame s p s' out where
  home := StaysHome.of_addr same
  port := Or.inl (by rw [same])
  out := home

theorem ControlFrame.quiet
    {s' : Session} (same : s'.addr = s.addr) : ControlFrame s p s' none :=
  ControlFrame.of_addr same fun _ none => nomatch none

theorem controlFrame_heartbeatHandle
    (buf : Option PacketBuf) (seq : UInt32) (now : UInt64) :
    let r := heartbeatHandle p s buf seq now
    ControlFrame s p r.sess r.out := by
  intro r
  simp only [r]
  unfold heartbeatHandle
  split
  · exact ControlFrame.quiet rfl
  · split
    · split
      · exact ControlFrame.quiet rfl
      · cases buf with
        | none =>
            exact ControlFrame.quiet rfl
        | some buf =>
            apply ControlFrame.of_addr
            · rfl
            · intro o sent
              cases sent
              exact Or.inr (SameHost.refl _)
    · split
      · exact ControlFrame.quiet rfl
      · exact ControlFrame.quiet rfl

theorem controlFrame_reconnectHandle
    (size : p.addr.length = addrBytes) (buf : Option PacketBuf)
    (seq : UInt32) (now : UInt64) :
    let r := reconnectHandle p s buf seq now
    ControlFrame s p r.sess r.out := by
  intro r
  simp only [r]
  unfold reconnectHandle
  split
  · exact ControlFrame.quiet rfl
  · split
    · split
      · exact ControlFrame.quiet rfl
      · cases buf with
        | none =>
            exact ControlFrame.quiet rfl
        | some buf =>
            apply ControlFrame.of_addr
            · rfl
            · intro o sent
              cases sent
              exact Or.inr (sameHost_sendTo size _)
    · split
      · split
        · exact ControlFrame.quiet rfl
        · exact ControlFrame.quiet rfl
      · exact ControlFrame.quiet rfl

theorem addr_sessionRegisterPath (s : Session) (idx : Nat) (addr : Bytes) :
    (sessionRegisterPath s idx addr).addr = s.addr := by
  unfold sessionRegisterPath
  split
  · rfl
  · rfl

/-- A hop writes the port of the address and nothing else. -/
theorem hop_address
    (home : s.addr.length = addrBytes) {port : Bytes}
    (two : port.length = 2) :
    let hopped := overlay s.addr (hopAddr s port)
    hopped.length = s.addr.length ∧ SameHost s.addr hopped ∧
      sinPort hopped = port := by
  have long : (s.addr.take sockaddrIn6Size).length = sockaddrIn6Size := by
    rw [List.length_take, home]
    decide
  have whole : (hopAddr s port).length = sockaddrIn6Size := by
    unfold hopAddr setSinPort
    rw [List.length_append, List.length_append, List.length_take,
      List.length_drop, two, long]
    decide
  have four : 4 ≤ (s.addr.take sockaddrIn6Size).length := by
    rw [long]
    decide
  refine ⟨?_, ?_, ?_⟩
  · unfold overlay
    rw [List.length_append, List.length_drop, whole, home]
    decide
  · have covered : SameHost (hopAddr s port) (overlay s.addr (hopAddr s port)) :=
      sameHost_overlay (by rw [whole]; decide)
    exact ((sameHost_take (by decide)).trans
      (sameHost_setSinPort four two)).trans covered
  · have same : sinPort (overlay s.addr (hopAddr s port)) =
        sinPort (hopAddr s port) := by
      unfold sinPort overlay
      rw [List.drop_append_of_le_length (by rw [whole]; decide),
        List.take_append_of_le_length
          (by rw [List.length_drop, whole]; decide)]
    rw [same]
    exact sinPort_setSinPort four two

theorem controlFrame_portHopStep
    (home : s.addr.length = addrBytes) (size : p.addr.length = addrBytes)
    (env : HandlerEnv) (seq : UInt32) :
    let r := portHopStep env p s seq
    ControlFrame s p r.sess r.out := by
  intro r
  have handled : ControlFrame s p (portHopHandle p s).2 none := by
    unfold portHopHandle
    split
    · exact ControlFrame.quiet rfl
    · split
      · rename_i hop
        split
        · exact ControlFrame.quiet rfl
        · dsimp only
          rw [addr_sessionRegisterPath]
          obtain ⟨size, host, port⟩ :=
            hop_address home (length_memSlice p.data 25 2)
          exact ⟨⟨size, host⟩, Or.inr ⟨hop, port⟩,
            fun _ none => nomatch none⟩
      · split
        · split
          · exact ControlFrame.quiet rfl
          · exact ControlFrame.quiet rfl
        · exact ControlFrame.quiet rfl
  simp only [r]
  unfold portHopStep
  dsimp only
  split
  · cases env.hopBuf with
    | none =>
        exact handled
    | some buf =>
        refine ⟨handled.home, handled.port, fun o sent => ?_⟩
        cases sent
        exact Or.inr (sameHost_sendTo size _)
  · exact handled

theorem controlFrame_rekeyHandle
    (C : CryptoSuite) (size : p.addr.length = addrBytes) (env : RekeyEnv)
    (seq : UInt32) :
    let r := rekeyHandle C env p s seq
    ControlFrame s p r.sess r.out := by
  intro r
  have cases' := rekeyHandle_cases C env p s seq
  simp only [r]
  generalize rekeyHandle C env p s seq = r at cases'
  cases cases' with
  | ignored => exact ControlFrame.quiet rfl
  | switched _ _ _ ciphertext secret _ ret out answer =>
      apply ControlFrame.of_addr
      · rfl
      · intro o sent
        obtain ⟨buf, -, -, rfl⟩ | ⟨-, -, rfl⟩ := answer
        · cases sent
          exact Or.inr (sameHost_sendTo size _)
        · cases sent
  | confirmed => exact ControlFrame.quiet rfl

theorem ControlFrame.trans
    {t u : Session} {out out' : Option PacketBuf}
    (first : ControlFrame s p t out) (second : ControlFrame t p u out') :
    ControlFrame s p u out' where
  home := first.home.trans second.home
  port := by
    rcases second.port with kept | hopped
    · exact first.port.imp kept.trans fun ⟨hop, port⟩ => ⟨hop, kept.trans port⟩
    · exact Or.inr hopped
  out := fun o sent => (second.out o sent).imp_left first.home.host.trans

/-- One function, then the rest of the handler. -/
theorem ControlFrame.orElse
    {r : CtlOut} {rest : Session → UInt32 → LockedOut}
    (first : ControlFrame s p r.sess r.out)
    (second :
      ControlFrame r.sess p (rest r.sess r.seq).sess
        (rest r.sess r.seq).out) :
    ControlFrame s p (r.orElse rest).sess (r.orElse rest).out := by
  unfold CtlOut.orElse
  split
  · exact first
  · exact first.trans second

theorem controlFrame_lockedInline (env : HandlerEnv) (seq : UInt32) :
    let r := lockedInline env p s seq
    ControlFrame s p r.sess r.out := by
  intro r
  simp only [r]
  unfold lockedInline
  split
  · exact ControlFrame.quiet rfl
  · split
    · exact ControlFrame.quiet rfl
    · split
      · exact ControlFrame.quiet rfl
      · exact ControlFrame.quiet rfl

/-- Whatever a control packet says, the session stays with its host, and the
answer goes there or to the sender. -/
theorem controlFrame_lockedControl
    (C : CryptoSuite) (home : s.addr.length = addrBytes)
    (size : p.addr.length = addrBytes) (env : HandlerEnv) (seq : UInt32) :
    let r := lockedControl C env p s seq
    ControlFrame s p r.sess r.out := by
  intro r
  simp only [r]
  unfold lockedControl
  have beat :=
    controlFrame_heartbeatHandle (s := s) (p := p) env.heartbeatBuf seq
      env.now
  refine beat.orElse ?_
  generalize heartbeatHandle p s env.heartbeatBuf seq env.now = a at beat
  have retried :=
    controlFrame_reconnectHandle (s := a.sess) size env.reconnectBuf a.seq
      env.now
  refine retried.orElse ?_
  generalize reconnectHandle p a.sess env.reconnectBuf a.seq env.now = b
    at retried
  have hopped :=
    controlFrame_portHopStep (s := b.sess)
      (retried.home.size.trans (beat.home.size.trans home)) size env b.seq
  refine hopped.orElse ?_
  refine (controlFrame_rekeyHandle C size env.rekey _).orElse ?_
  exact controlFrame_lockedInline env _

/-! ## One datagram -/

theorem addr_sessionEncCheck (C : CryptoSuite) (v : PacketView) :
    (sessionEncCheck C v s).1.addr = s.addr := by
  obtain ⟨hs, same⟩ := sessionEncCheck_session C v s
  rw [same]

theorem addr_seqCheck (v : PacketView) : (seqCheck s v).1.addr = s.addr := by
  unfold seqCheck
  split
  · rfl
  · split
    · rfl
    · rfl

theorem addr_drainRecovered (C : CryptoSuite) :
    (drainRecovered C s).1.addr = s.addr := by
  unfold drainRecovered
  split
  · rfl
  · rename_i rec _
    unfold processFecRecovered
    split
    · rfl
    · split
      · rfl
      · dsimp only
        split
        · exact addr_sessionEncCheck C _
        · rw [addr_seqCheck, addr_sessionEncCheck]

theorem addr_cipherStage (C : CryptoSuite) (v : PacketView) :
    (cipherStage C s v).1.addr = s.addr := by
  unfold cipherStage
  split
  · exact addr_sessionEncCheck C v
  · rfl

theorem addr_pipelineInboundPostCrypto
    (C : CryptoSuite) (rxq : RxQueues) (v : PacketView) :
    (pipelineInboundPostCrypto C s rxq v).sess.addr = s.addr := by
  obtain ⟨-, ⟨-, -, kept⟩ | ⟨view, -, kept, -⟩⟩ :=
    pipelineInboundPostCrypto_cases C s rxq v
  · rw [kept, addr_cipherStage, addr_drainRecovered]
  · rw [kept, addr_seqCheck, addr_cipherStage, addr_drainRecovered]

theorem Reassembles.addr
    {s' : Session} (moved : Reassembles s s') : s'.addr = s.addr := by
  rw [moved.rest]

theorem addr_pipelineInboundProcess
    (C : CryptoSuite) (env : InboundEnv) (filters : Filters)
    (rxq : RxQueues) :
    (pipelineInboundProcess C env filters s rxq p).2.2.sess.addr =
      s.addr := by
  rcases pipelineInboundProcess_cases C env filters s rxq p with
    ⟨-, -, moved⟩ | ⟨view, s', gates, -, kept⟩
  · exact moved.addr
  · rw [kept, addr_pipelineInboundPostCrypto, gates.reassembles.addr]

/-- The session gate lets data of the host of the session pass. -/
theorem sameHost_of_sessionCheck
    {v view : PacketView} (data : v.channelId ≠ chControl)
    (passed : sessionCheck s v = some view) :
    SameHost s.addr v.buf.addr := by
  constructor
  · by_contra other
    have differs : ¬ sinFamily v.buf.addr = sinFamily s.addr :=
      fun same => other same.symm
    simp [sessionCheck, data, differs] at passed
  · by_contra other
    have differs : ¬ sin6Addr v.buf.addr = sin6Addr s.addr :=
      fun same => other same.symm
    simp [sessionCheck, data, differs] at passed

theorem samePort_of_sessionCheck
    (single : s.resilience.multipathEnabled = false) {v view : PacketView}
    (data : v.channelId ≠ chControl)
    (passed : sessionCheck s v = some view) :
    sinPort v.buf.addr = sinPort s.addr := by
  by_contra other
  simp [sessionCheck, data, single, other] at passed

/-- What a datagram has to do with the session that hands something on when it
arrives: it is from the host of the session, and from its port when there is
one path. -/
structure FromHome (s : Session) (p : PacketBuf) : Prop where
  host : SameHost s.addr p.addr
  port :
    s.resilience.multipathEnabled = false → sinPort p.addr = sinPort s.addr

theorem fromHome_of_deliveries
    (C : CryptoSuite) {filters : Filters} {call : InboundCall}
    (delivered :
      (pipelineInboundProcess C call.env filters s call.rxq
        call.packet).2.2.deliveries call.rxq ≠ [])
    (data : call.packet.data 14 ≠ chControl) : FromHome s call.packet := by
  rcases pipelineInboundPreCrypto_cases call.env filters (some s)
      call.packet with
    ⟨-, stopped, -⟩ | ⟨_, view, s', same, -, -, -, gates⟩
  · obtain ⟨-, -, recovered, queues⟩ :=
      pipelineInboundProcess_stopped C stopped call.rxq
    exact absurd
      (by simp [PostCrypto.deliveries, recovered, queues,
        RxQueues.news_refl])
      delivered
  · cases same
    obtain ⟨raw, parsed, -, -, -, -, passed⟩ := gates.parsed
    have fields := parsedAs_of_packetParse parsed
    have onData : raw.channelId ≠ chControl := by
      rw [fields.channelId]
      exact data
    constructor
    · have host := sameHost_of_sessionCheck onData passed
      rw [fields.buf] at host
      exact host
    · intro single
      have port := samePort_of_sessionCheck single onData passed
      rw [fields.buf] at port
      exact port

end

/-! ## Runs -/

/-- What may happen to a session between two ticks of the clock. -/
inductive PeerEvent where
  | control (env : HandlerEnv) (p : PacketBuf) (seq : UInt32)
  | arrival (filters : Filters) (call : InboundCall)
  | beat (buf : Option PacketBuf) (seq : UInt32) (now : UInt64)
  | retry (buf : Option PacketBuf) (seq : UInt32) (now : UInt64)

/-- The packet that has arrived. -/
def PeerEvent.packet : PeerEvent → Option PacketBuf
  | .control _ p _ => some p
  | .arrival _ call => some call.packet
  | .beat _ _ _ => none
  | .retry _ _ _ => none

/-- The packet is a PORT_HOP that announces `port`. -/
def PeerEvent.Announces (event : PeerEvent) (port : Bytes) : Prop :=
  ∃ env p seq, event = .control env p seq ∧ p.opcode = ctrlPortHop ∧
    memSlice p.data 25 2 = port

structure PeerOut where
  sess : Session
  sent : Option PacketBuf := none
  delivered : List (UInt8 × PacketBuf) := []

section

variable (C : CryptoSuite)

/-- A control packet of a locked session, any packet for the pipeline, or a
tick.  The handshake, which gets every control packet that no handler of a
locked session consumes, is left out; it does not touch the address. -/
def Session.peerStep (s : Session) : PeerEvent → PeerOut
  | .control env p seq =>
      if s.state = .locked then
        let r := lockedControl C env p s seq
        { sess := r.sess, sent := r.out }
      else
        { sess := s }
  | .arrival filters call =>
      let post :=
        (pipelineInboundProcess C call.env filters s call.rxq
          call.packet).2.2
      { sess := post.sess, delivered := post.deliveries call.rxq }
  | .beat buf seq now =>
      let r := heartbeatTick s buf seq now
      { sess := r.sess, sent := r.out }
  | .retry buf seq now =>
      let r := reconnectTick s buf seq now
      { sess := r.sess, sent := r.out }

def Session.peerRun (s : Session) (events : List PeerEvent) : Session :=
  events.foldl (fun s event => (s.peerStep C event).sess) s

/-- What one event may do to a session. -/
structure PeerFrame (s : Session) (event : PeerEvent) (o : PeerOut) :
    Prop where
  home : StaysHome s o.sess
  port :
    sinPort o.sess.addr = sinPort s.addr ∨
      event.Announces (sinPort o.sess.addr)
  sent :
    ∀ r ∈ o.sent,
      SameHost s.addr r.addr ∨ ∃ p ∈ event.packet, SameHost p.addr r.addr
  delivered :
    o.delivered ≠ [] →
      ∀ p ∈ event.packet, p.data 14 ≠ chControl → FromHome s p

theorem peerFrame_of_addr
    {s : Session} {event : PeerEvent} {o : PeerOut}
    (same : o.sess.addr = s.addr)
    (sent : ∀ r ∈ o.sent, SameHost s.addr r.addr)
    (quiet : o.delivered = []) : PeerFrame s event o where
  home := StaysHome.of_addr same
  port := Or.inl (by rw [same])
  sent := fun r member => Or.inl (sent r member)
  delivered := fun some => absurd quiet some

theorem peerFrame_tick
    {s : Session} {event : PeerEvent} {r : CtlOut}
    (same : r.sess.addr = s.addr)
    (sent : ∀ o ∈ r.out, o.addr = s.addr) :
    PeerFrame s event { sess := r.sess, sent := r.out } :=
  peerFrame_of_addr same
    (fun o member => by
      rw [sent o member]
      exact SameHost.refl s.addr)
    rfl

theorem sent_heartbeatTick
    (s : Session) (buf : Option PacketBuf) (seq : UInt32) (now : UInt64) :
    (heartbeatTick s buf seq now).sess.addr = s.addr ∧
      ∀ o ∈ (heartbeatTick s buf seq now).out, o.addr = s.addr := by
  unfold heartbeatTick
  split
  · exact ⟨rfl, nofun⟩
  · rename_i locked
    split
    · unfold heartbeatSend
      rw [if_neg locked]
      cases buf with
      | none =>
          exact ⟨rfl, nofun⟩
      | some buf =>
          refine ⟨rfl, fun o sent => ?_⟩
          cases sent
          rfl
    · exact ⟨rfl, nofun⟩

theorem sent_reconnectTick
    (s : Session) (buf : Option PacketBuf) (seq : UInt32) (now : UInt64) :
    (reconnectTick s buf seq now).sess.addr = s.addr ∧
      ∀ o ∈ (reconnectTick s buf seq now).out, o.addr = s.addr := by
  have request (t : Session) (same : t.addr = s.addr) :
      (reconnectSendRequest t buf seq).sess.addr = s.addr ∧
        ∀ o ∈ (reconnectSendRequest t buf seq).out, o.addr = s.addr := by
    cases buf with
    | none =>
        exact ⟨same, nofun⟩
    | some buf =>
        refine ⟨same, fun o sent => ?_⟩
        cases sent
        exact same
  unfold reconnectTick
  split
  · exact ⟨rfl, nofun⟩
  · split
    · exact ⟨rfl, nofun⟩
    · split
      · exact ⟨rfl, nofun⟩
      · split
        · exact request { s with reconnectStartMs := now } rfl
        · split
          · exact request s rfl
          · exact ⟨rfl, nofun⟩

theorem peerFrame_step
    {s : Session} (home : s.addr.length = addrBytes) {event : PeerEvent}
    (sized : ∀ p ∈ event.packet, p.addr.length = addrBytes) :
    PeerFrame s event (s.peerStep C event) := by
  cases event with
  | control env p seq =>
      unfold Session.peerStep
      dsimp only
      split
      · have frame :=
          controlFrame_lockedControl (s := s) (p := p) C home (sized p rfl)
            env seq
        refine ⟨frame.home, ?_, ?_, fun some => absurd rfl some⟩
        · exact frame.port.imp_right fun ⟨hop, port⟩ =>
            ⟨env, p, seq, rfl, hop, port.symm⟩
        · exact fun r member =>
            (frame.out r member).imp_right fun host => ⟨p, rfl, host⟩
      · exact peerFrame_of_addr rfl (fun _ none => nomatch none) rfl
  | arrival filters call =>
      have same :=
        addr_pipelineInboundProcess (s := s) (p := call.packet) C call.env
          filters call.rxq
      refine ⟨StaysHome.of_addr same, Or.inl (congrArg sinPort same), nofun,
        fun some p member data => ?_⟩
      cases member
      exact fromHome_of_deliveries C some data
  | beat buf seq now =>
      obtain ⟨same, sent⟩ := sent_heartbeatTick s buf seq now
      exact peerFrame_tick same sent
  | retry buf seq now =>
      obtain ⟨same, sent⟩ := sent_reconnectTick s buf seq now
      exact peerFrame_tick same sent

/-- Over any run on any packets: the session stays with the host that it was
set up with, and on its port unless a PORT_HOP of the run has announced
another.  Data that is handed on is from there, and what is sent goes there or
to the source of the packet that it answers. -/
theorem peer_stays_on_host
    {s : Session} (home : s.addr.length = addrBytes)
    (events : List PeerEvent)
    (sized :
      ∀ event ∈ events, ∀ p ∈ event.packet, p.addr.length = addrBytes) :
    let final := s.peerRun C events
    SameHost s.addr final.addr ∧
      (sinPort final.addr = sinPort s.addr ∨
        ∃ event ∈ events, event.Announces (sinPort final.addr)) ∧
        ∀ before event after, events = before ++ event :: after →
          let now := s.peerRun C before
          let o := now.peerStep C event
          (∀ r ∈ o.sent, SameHost s.addr r.addr ∨
            ∃ p ∈ event.packet, SameHost p.addr r.addr) ∧
          (o.delivered ≠ [] → ∀ p ∈ event.packet,
            p.data 14 ≠ chControl →
              SameHost s.addr p.addr ∧ FromHome now p) := by
  have run (list : List PeerEvent)
      (sized : ∀ event ∈ list, ∀ p ∈ event.packet,
        p.addr.length = addrBytes) :
      StaysHome s (s.peerRun C list) ∧
        (sinPort (s.peerRun C list).addr = sinPort s.addr ∨
          ∃ event ∈ list,
            event.Announces (sinPort (s.peerRun C list).addr)) := by
    induction list using List.reverseRecOn with
    | nil =>
        exact ⟨StaysHome.of_addr rfl, Or.inl rfl⟩
    | append_singleton list event inductionHypothesis =>
        obtain ⟨stays, port⟩ :=
          inductionHypothesis fun event member =>
            sized event (List.mem_append_left _ member)
        have last : s.peerRun C (list ++ [event]) =
            ((s.peerRun C list).peerStep C event).sess := by
          rw [Session.peerRun, List.foldl_append]
          rfl
        have frame :=
          peerFrame_step C (stays.size.trans home)
            (sized event (List.mem_append_right _ List.mem_cons_self))
        rw [last]
        refine ⟨stays.trans frame.home, ?_⟩
        rcases frame.port with kept | announced
        · rw [kept]
          exact port.imp_right fun ⟨other, member, announces⟩ =>
            ⟨other, List.mem_append_left _ member, announces⟩
        · exact Or.inr ⟨event,
            List.mem_append_right _ List.mem_cons_self, announced⟩
  intro final
  obtain ⟨stays, port⟩ := run events sized
  refine ⟨stays.host, port, ?_⟩
  intro before event after parts now o
  have sized' : ∀ other ∈ before, ∀ p ∈ other.packet,
      p.addr.length = addrBytes := by
    intro other member
    apply sized other
    rw [parts]
    exact List.mem_append_left _ member
  obtain ⟨stays', -⟩ := run before sized'
  have frame :=
    peerFrame_step C (stays'.size.trans home)
      (sized event (by rw [parts]; simp))
  constructor
  · intro r member
    exact (frame.sent r member).imp_left stays'.host.trans
  · intro some p member data
    have from' := frame.delivered some p member data
    exact ⟨stays'.host.trans from'.host, from'⟩

end

/-! ## A hop that a stranger asks for -/

/-- A PORT_HOP to port 7001 from another host. -/
def sampleStrangersHop : PacketBuf :=
  (controlPacket default true 99 1
    (ctrlPortHop :: (htons 7001 ++ zeros 8))).setAddr
      ([10, 0] ++ htons 9 ++ zeros 4 ++ List.replicate 24 7) sockaddrIn6Size

def sampleHopEvents : List PeerEvent :=
  [.control sampleHandlerEnv sampleStrangersHop 1,
    .arrival {} (sampleCall (sampleSealed 7001 3))]

theorem peer_stays_on_host_hopped :
    sinPort ((sampleReceiver false).peerRun sampleSuite sampleHopEvents).addr =
        htons 7001 ∧
      SameHost (sampleReceiver false).addr
        ((sampleReceiver false).peerRun sampleSuite sampleHopEvents).addr :=
  ⟨by decide +kernel,
    (peer_stays_on_host sampleSuite (s := sampleReceiver false) rfl
      sampleHopEvents (by
        intro event member p packet
        simp only [sampleHopEvents, List.mem_cons, List.not_mem_nil,
          or_false] at member
        rcases member with rfl | rfl
        · cases packet
          rfl
        · cases packet
          rfl)).1⟩

end PqComm
