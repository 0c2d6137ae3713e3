import Emodbus.TcpPair

/-!
# A TCP client that connects again

`implementations/posix/tcp-client.c` and `mb-tcp-via-tcp-client.c`, with the client behind them.
What a socket does is the environment: whether it connects, what `recv` hands over and what `send`
takes.  The sockets are numbered as they are opened.

The timer runs as long as the client is not connected, the read event is there as long as it is,
and the write event once for each time it is added.  The user's own notifier is left out: nothing
that follows it in an event depends on what it starts, so that is an input of its own.
-/

namespace Emodbus

open Octets

variable {π : Type}

/-- What `send` takes of the bytes it is offered, negative for an error. -/
structure PortWrite where
  send : List Byte → ℤ
  le_length : ∀ bytes, send bytes ≤ bytes.length

inductive TcpClientState
  | default
  | disconnected
  | connected
  deriving DecidableEq

inductive TcpCliEvent
  | connected
  | disconnected
  | badTryOfReconnection

/-- `struct tcp_client_t`. -/
structure TcpClientT where
  sockFd : ℕ
  /-- Whether `sock_event_write` has been added. -/
  writeEvent : Bool
  state : TcpClientState

/-- `struct emb_tcp_via_tcp_client_t` with the client behind it, and what has happened so far. -/
structure EmbTcpViaTcpClient (π : Type) where
  node : ClientNode π Unit
  tcpClient : TcpClientT
  openedFlag : Bool
  /-- For every byte in the receive buffer, the socket it came from. -/
  held : List ℕ
  /-- For every byte of the frame in `tx_buf` that is written, the socket it went to. -/
  sentOn : List ℕ
  /-- For every packet passed to `recv_packet`, where its bytes came from. -/
  assembled : List (List ℕ)
  /-- The bytes that the sockets took. -/
  written : List (ℕ × List Byte)
  /-- The packets handed to `send_packet`. -/
  requested : List (ℤ × EmbPdu)

inductive ViaTcpInput (π : Type)
  /-- The timer is up; `connects` is whether the socket connects. -/
  | timer (connects : Bool)
  | dataReceived (recv : PortRead) (send : PortWrite)
  | dataSent (send : PortWrite)
  | doTransaction (slaveAddr : ℤ) (transact : EmbClientTransaction π) (send : PortWrite)
  | waitTimeout (send : PortWrite)

namespace EmbTcpViaTcpClient

/-! ## tcp-client.c -/

/-- `tcp_client_notifier`, for the events of the connection. -/
def notified (s : EmbTcpViaTcpClient π) : TcpCliEvent → EmbTcpViaTcpClient π
  | .connected => { s with openedFlag := true }
  | .disconnected => { s with openedFlag := false }
  | .badTryOfReconnection => s

/-- `do_unconnect`. -/
def doUnconnect (s : EmbTcpViaTcpClient π) : EmbTcpViaTcpClient π :=
  let s := { s with tcpClient.writeEvent := false }
  if s.tcpClient.state ≠ .disconnected then
    { s with tcpClient.state := .disconnected }.notified .disconnected
  else s

/-- `do_connect`. -/
def doConnect (s : EmbTcpViaTcpClient π) (connects : Bool) : EmbTcpViaTcpClient π :=
  let s := { s with tcpClient.sockFd := s.tcpClient.sockFd + 1 }
  if connects then
    let s := { s with tcpClient.writeEvent := true }
    if s.tcpClient.state ≠ .connected then
      { s with tcpClient.state := .connected }.notified .connected
    else s
  else s.doUnconnect.notified .badTryOfReconnection

/-- `tcp_client_read`: the bytes that it returns the number of. -/
def tcpClientRead (s : EmbTcpViaTcpClient π) (recv : PortRead) (size : ℕ) :
    List Byte × EmbTcpViaTcpClient π :=
  match recv.read size with
  | none => ([], s.doUnconnect)
  | some [] => ([], s.doUnconnect)
  | some (b :: bytes) => (b :: bytes, s)

/-- `tcp_client_write`. -/
def tcpClientWrite (s : EmbTcpViaTcpClient π) (send : PortWrite) (bytes : List Byte) :
    ℤ × EmbTcpViaTcpClient π :=
  if send.send bytes < 0 then (0, s.doUnconnect) else (send.send bytes, s)

/-- `tcp_client_enable_write_event`. -/
def tcpClientEnableWriteEvent (s : EmbTcpViaTcpClient π) : EmbTcpViaTcpClient π :=
  { s with tcpClient.writeEvent := true }

/-! ## mb-tcp-via-tcp-client.c -/

/-- `read_from_port`. -/
def readFromPort (s : EmbTcpViaTcpClient π) (recv : PortRead) (size : ℕ) :
    List Byte × EmbTcpViaTcpClient π :=
  if !s.openedFlag then ([], s) else s.tcpClientRead recv size

/-- `write_to_port`. -/
def writeToPort (s : EmbTcpViaTcpClient π) (send : PortWrite) (bytes : List Byte) :
    ℤ × EmbTcpViaTcpClient π :=
  if !s.openedFlag then (0, s)
  else if bytes.length = 0 then (0, s)
  else
    let r := s.tcpClientWrite send bytes
    if 0 < r.1 ∧ r.1 < bytes.length then (r.1, r.2.tcpClientEnableWriteEvent) else r

theorem length_readFromPort_le (s : EmbTcpViaTcpClient π) (recv : PortRead) (size : ℕ) :
    (s.readFromPort recv size).1.length ≤ size := by
  unfold readFromPort tcpClientRead
  split_ifs
  · exact Nat.zero_le _
  · split
    · exact Nat.zero_le _
    · exact Nat.zero_le _
    · rename_i h
      exact recv.length_le h

/-- `read_from_port`, as the transport finds it. -/
def port (s : EmbTcpViaTcpClient π) (recv : PortRead) : PortRead where
  read size := some (s.readFromPort recv size).1
  length_le h := by
    simp only [Option.some.injEq] at h
    rw [← h]
    exact s.length_readFromPort_le recv _

/-- A write to the port. -/
def wrote (send : PortWrite) (s : EmbTcpViaTcpClient π) (bytes : List Byte) :
    EmbTcpViaTcpClient π :=
  let r := s.writeToPort send bytes
  { r.2 with
    sentOn := s.sentOn ++ List.replicate r.1.toNat s.tcpClient.sockFd
    written := s.written ++ [(s.tcpClient.sockFd, bytes.take r.1.toNat)] }

/-- The transport has gone on to this, with these outputs. -/
def afterWrites (send : PortWrite) (s : EmbTcpViaTcpClient π)
    (r : EmbTcp Unit × List (TcpOut Unit)) : EmbTcpViaTcpClient π :=
  (TcpOut.writes r.2).foldl (fun s w => s.wrote send w.2) { s with node.tcp := r.1 }

/-- `tcp_cli_data_sent`. -/
def dataSent (s : EmbTcpViaTcpClient π) (send : PortWrite) : EmbTcpViaTcpClient π :=
  s.afterWrites send (embTcpPortEvent s.node.tcp none
    (.txBufEmpty fun bytes => (s.writeToPort send bytes).1))

/-- `emb_transport_send_packet`. -/
def sendPacket (send : PortWrite) (s : EmbTcpViaTcpClient π) (p : ℤ × EmbPdu) :
    EmbTcpViaTcpClient π :=
  let r := modbusTcpSendPacket s.node.tcp p.1 p.2 fun bytes => (s.writeToPort send bytes).1
  afterWrites send { s with
    requested := s.requested ++ [p]
    sentOn := if r.1 = 0 then [] else s.sentOn } r.2

/-- An event of the client, with the packets it sends. -/
def clientEvent (user : ClientUser π) (send : PortWrite) (s : EmbTcpViaTcpClient π)
    (i : ClientInput π) : EmbTcpViaTcpClient π :=
  (Mealy.run (fun s p => (s.sendPacket send p, ()))
    { s with node.run := Emodbus.clientEvent user s.node.run i }
    (ClientAct.sent (s.node.newActs user i))).1

/-- How much the transport asks of the port. -/
def asks (s : EmbTcpViaTcpClient π) (recv : PortRead) : ℕ :=
  TcpOut.asked (tcpStep s.node.view (.event none (.dataReceived (s.port recv)))).2

/-- What the transport reads from the port. -/
def read (s : EmbTcpViaTcpClient π) (recv : PortRead) : List Byte × EmbTcpViaTcpClient π :=
  if s.asks recv = 0 then ([], s) else s.readFromPort recv (s.asks recv)

variable [DecidableEq π]

/-- `tcp_cli_data_received`, up to what the transport passes to the client. -/
def takeIn (s : EmbTcpViaTcpClient π) (recv : PortRead) :
    EmbTcpViaTcpClient π × List (ClientInput π) :=
  let r := tcpStep s.node.view (.event none (.dataReceived (s.port recv)))
  let held := s.held ++ List.replicate (s.read recv).1.length s.tcpClient.sockFd
  ({ (s.read recv).2 with
      node := s.node.afterRead r.1
      held := if r.1.rxPktCounter = 0 then [] else held
      assembled := s.assembled
        ++ (TcpOut.delivered r.2).map fun packet => held.take (8 + packet.2.2.length) },
    (TcpOut.upcalls r.2).map ClientNode.ofUpcall)

/-- `tcp_cli_data_received`. -/
def dataReceived (user : ClientUser π) (s : EmbTcpViaTcpClient π) (recv : PortRead)
    (send : PortWrite) : EmbTcpViaTcpClient π :=
  (Mealy.run (fun s i => (s.clientEvent user send i, ())) (s.takeIn recv).1 (s.takeIn recv).2).1

def step (user : ClientUser π) (s : EmbTcpViaTcpClient π) :
    ViaTcpInput π → EmbTcpViaTcpClient π × Unit
  | .timer connects => (if s.tcpClient.state = .connected then s else s.doConnect connects, ())
  | .dataReceived recv send =>
    (if s.tcpClient.state = .connected then s.dataReceived user recv send else s, ())
  | .dataSent send =>
    (if s.tcpClient.writeEvent then { s with tcpClient.writeEvent := false }.dataSent send
      else s, ())
  | .doTransaction slaveAddr transact send =>
    (s.clientEvent user send (.doTransaction slaveAddr transact), ())
  | .waitTimeout send => (s.clientEvent user send .waitTimeout, ())

omit [DecidableEq π] in
/-- `emb_tcp_via_tcp_client_create`, with a client set to its transport. -/
def create (onResponse onError : Bool) (pdus : π → EmbPdu) : EmbTcpViaTcpClient π where
  node :=
    { tcp := embTcpInitialize (EmbTcp.zeroed Unit ⟨none, false⟩)
      run := ⟨embClientInit ⟨none, 0, none, onResponse, onError⟩, []⟩
      pdus := pdus }
  tcpClient := ⟨0, false, .disconnected⟩
  openedFlag := false
  held := []
  sentOn := []
  assembled := []
  written := []
  requested := []

end EmbTcpViaTcpClient

/-! ## What a connection is to begin with -/

/-- The frame of a request. -/
def requestFrame (id : Word) (slaveAddr : ℤ) (pdu : EmbPdu) : List Byte :=
  Mem.be [id, 0, pdu.dataSize.setWidth 16 + 2] ++ [BitVec.ofInt 8 slaveAddr, pdu.function]
    ++ pdu.bytes

namespace EmbTcpViaTcpClient

/-- The bytes written on the connection. -/
def writtenOn (s : EmbTcpViaTcpClient π) (sock : ℕ) : List Byte :=
  (s.written.filter fun w => w.1 = sock).flatMap Prod.snd

/-- The bytes are the whole frame of a packet that was handed to `send_packet`. -/
def IsRequest (s : EmbTcpViaTcpClient π) (bytes : List Byte) : Prop :=
  ∃ id, ∃ p ∈ s.requested, p.2.dataSize.toNat ≤ maxPduDataSize
    ∧ bytes = requestFrame id p.1 p.2

/-- Every packet is assembled from bytes of one connection, and what is written on a connection is
a prefix of request frames. -/
structure StartsClean (s : EmbTcpViaTcpClient π) : Prop where
  assembled : ∀ socks ∈ s.assembled, ∃ sock, ∀ c ∈ socks, c = sock
  written : ∀ sock, ∃ fs : List (List Byte), (∀ f ∈ fs, s.IsRequest f)
    ∧ s.writtenOn sock <+: fs.flatten

/-! ## Connections kept apart -/

/-- No frame has been written in part on the open connection. -/
def BetweenFrames (s : EmbTcpViaTcpClient π) : Prop :=
  s.openedFlag = true → s.tcpClient.sockFd ∈ s.sentOn →
    s.node.tcp.txPktCounter = s.node.tcp.txPktSize

instance (s : EmbTcpViaTcpClient π) : Decidable s.BetweenFrames :=
  inferInstanceAs (Decidable (_ → _))

/-- Each packet that the event sends finds the open connection between two frames. -/
def SendsBetween (user : ClientUser π) (send : PortWrite) (s : EmbTcpViaTcpClient π)
    (i : ClientInput π) : Prop :=
  Mealy.Along (fun s p => (s.sendPacket send p, ()))
    (fun s p => p.2.dataSize.toNat ≤ maxPduDataSize → s.BetweenFrames)
    { s with node.run := Emodbus.clientEvent user s.node.run i }
    (ClientAct.sent (s.node.newActs user i))

instance (user : ClientUser π) (send : PortWrite) (s : EmbTcpViaTcpClient π) (i : ClientInput π) :
    Decidable (s.SendsBetween user send i) :=
  inferInstanceAs (Decidable (Mealy.Along _ _ _ _))

/-- The step goes on with no other connection's bytes: it reads none behind them and writes none
behind them, and it leaves no frame in the middle. -/
def KeepsApart [DecidableEq π] (user : ClientUser π) (s : EmbTcpViaTcpClient π) :
    ViaTcpInput π → Prop
  | .timer _ => True
  | .dataReceived recv send => s.tcpClient.state = .connected →
      ((s.read recv).1 ≠ [] → ∀ c ∈ s.held, c = s.tcpClient.sockFd)
        ∧ Mealy.Along (fun s i => (s.clientEvent user send i, ()))
          (fun s i => s.SendsBetween user send i) (s.takeIn recv).1 (s.takeIn recv).2
  | .dataSent _ => s.tcpClient.writeEvent = true → s.openedFlag = true →
      s.node.tcp.txPktCounter < s.node.tcp.txPktSize → ∀ c ∈ s.sentOn, c = s.tcpClient.sockFd
  | .doTransaction slaveAddr transact send =>
      s.SendsBetween user send (.doTransaction slaveAddr transact)
  | .waitTimeout send => s.SendsBetween user send .waitTimeout

instance [DecidableEq π] (user : ClientUser π) (s : EmbTcpViaTcpClient π) :
    ∀ i, Decidable (s.KeepsApart user i)
  | .timer _ => inferInstanceAs (Decidable True)
  | .dataReceived _ _ => inferInstanceAs (Decidable (_ → _ ∧ _))
  | .dataSent _ => inferInstanceAs (Decidable (_ → _ → _ → _))
  | .doTransaction _ _ _ => inferInstanceAs (Decidable (SendsBetween _ _ _ _))
  | .waitTimeout _ => inferInstanceAs (Decidable (SendsBetween _ _ _ _))

end EmbTcpViaTcpClient

end Emodbus
