import Emodbus.Server
import Emodbus.TcpRun

/-!
# A super server behind the TCP transport

A node is one `emb_tcp_t` with the super server that is its high level, so that a packet is served
within the event that completes it.  `implementations/posix/mb-tcp-via-tcp-server.c` raises its
events with the connection as `client_id`, reads from and writes to the connection in
`tcp_client_id`, and has a single node for all of them.
-/

namespace Emodbus

open Octets

variable {σ ι : Type}

namespace TcpOut

/-- The writes to the port, each with the connection it is for. -/
def writes : List (TcpOut ι) → List (Option ι × List Byte)
  | [] => []
  | .writeToPort client offered :: os => (client, offered) :: writes os
  | _ :: os => writes os

end TcpOut

structure SrvNode (σ ι : Type) where
  tcp : EmbTcp ι
  txPdu : EmbPdu
  store : σ

namespace SrvNode

variable (ssrv : EmbSuperServer σ) (wrote : List Byte → ℤ)

/-- `emb_transport_send_packet` for each packet. -/
def sendAll (t : EmbTcp ι) : List (ℤ × EmbPdu) → EmbTcp ι × List (TcpOut ι)
  | [] => (t, [])
  | (addr, pdu) :: ps =>
    let s := modbusTcpSendPacket t addr pdu wrote
    let r := sendAll s.2.1 ps
    (r.1, s.2.2 ++ r.2)

/-- What the super server does with a call from the transport; `rx_pdu` is the transport's too. -/
def handle (n : SrvNode σ ι) : Upcall → SrvNode σ ι × List (TcpOut ι)
  | .recvPacket addr pdu =>
    let res := embSuperServerOnReceiveReq ssrv addr ⟨pdu, n.txPdu, n.store, []⟩
    let t := { n.tcp with transport.rxPdu := some res.run.rxPdu }
    let s := sendAll wrote t res.sent
    (⟨s.1, res.run.txPdu, res.run.store⟩, s.2)
  | .error _ => (n, [])

def handleAll (n : SrvNode σ ι) : List Upcall → SrvNode σ ι × List (TcpOut ι)
  | [] => (n, [])
  | u :: us =>
    let s := handle ssrv wrote n u
    let r := handleAll s.1 us
    (r.1, s.2 ++ r.2)

/-- A data event of one connection: what the transport puts out, and what comes of the super
server's answers. -/
def dataReceived (n : SrvNode σ ι) (client : Option ι) (port : PortRead) :
    SrvNode σ ι × List (TcpOut ι) × List (TcpOut ι) :=
  let s := tcpStep n.tcp (.event client (.dataReceived port))
  let r := handleAll ssrv wrote { n with tcp := s.1 } (TcpOut.upcalls s.2)
  (r.1, s.2, r.2)

/-- The node once `emb_super_server_set_transport` and `emb_tcp_initialize` have been called. -/
def start (ι : Type) (rxPdu txPdu : EmbPdu) (store : σ) : SrvNode σ ι where
  tcp := embTcpInitialize (EmbTcp.zeroed ι ⟨some rxPdu, true⟩)
  txPdu := txPdu
  store := store

end SrvNode

/-- A super server whose only server, at every address, knows no function. -/
def EmbSuperServer.bare (σ : Type) : EmbSuperServer σ where
  getServer := some fun _ => some
    { getCoils := none
      getDiscreteInputs := none
      getHoldingRegs := none
      getInputRegs := none
      getFile := none
      readFifo := none
      getFunction := none
      isBroadcast := false }

/-! ## Several connections -/

/-- The node and its connections; `held` has, for every byte in the receive buffer, the connection
the byte came from. -/
structure TcpNet (σ ι : Type) where
  node : SrvNode σ ι
  unread : ι → List Byte
  held : List ι

/-- A data event of a connection, with a read of `atMost + 1` bytes at most. -/
structure NetEvent (ι : Type) where
  client : ι
  atMost : ℕ

/-- A packet passed to `recv_packet`: where the bytes it is assembled from came from, what it says,
and what was written in answer to it. -/
structure Delivery (ι : Type) where
  owners : List ι
  packet : ℤ × Byte × List Byte
  writes : List (Option ι × List Byte)

namespace TcpNet

def port (s : TcpNet σ ι) (e : NetEvent ι) : PortRead :=
  .upTo ((s.unread e.client).take (e.atMost + 1))

/-- The bytes the event reads. -/
def reads (s : TcpNet σ ι) (e : NetEvent ι) : List Byte :=
  ((s.unread e.client).take (e.atMost + 1)).take
    (TcpOut.asked (tcpStep s.node.tcp (.event (some e.client) (.dataReceived (s.port e)))).2)

def step [DecidableEq ι] (ssrv : EmbSuperServer σ) (wrote : List Byte → ℤ) (s : TcpNet σ ι)
    (e : NetEvent ι) : TcpNet σ ι × List (Delivery ι) :=
  let r := s.node.dataReceived ssrv wrote (some e.client) (s.port e)
  let n := (s.reads e).length
  let held := s.held ++ List.replicate n e.client
  (⟨r.1, Function.update s.unread e.client ((s.unread e.client).drop n),
      if r.1.tcp.rxPktCounter = 0 then [] else held⟩,
    (TcpOut.delivered r.2.1).map fun packet =>
      ⟨held.take (8 + packet.2.2.length), packet, TcpOut.writes r.2.2⟩)

/-- The connections have sent these frames, and nothing has been received. -/
def start (rxPdu txPdu : EmbPdu) (store : σ) (sent : ι → List TcpFrame) : TcpNet σ ι where
  node := .start ι { rxPdu with maxSize := 253 } txPdu store
  unread c := TcpFrame.stream (sent c)
  held := []

/-- The event reads nothing, or it finds no other connection's bytes in the buffer and does not
read beyond the end of a frame. -/
def Unmixed (sent : ι → List TcpFrame) (s : TcpNet σ ι) (e : NetEvent ι) : Prop :=
  (s.reads e).length = 0 ∨
    (∀ c ∈ s.held, c = e.client)
      ∧ (s.reads e).length ≤ TcpFrame.untilBorder (sent e.client) (s.unread e.client).length

end TcpNet

/-- The packet is a frame that one connection has sent, all its bytes came from there, and what is
written in answer is for that connection and carries the frame's transaction id. -/
def Delivery.Isolated (sent : ι → List TcpFrame) (d : Delivery ι) : Prop :=
  ∃ c, ∃ f ∈ sent c, d.owners = List.replicate f.bytes.length c ∧ d.packet = f.view
    ∧ ∀ w ∈ d.writes, w.1 = some c ∧ Mem.be [f.transactId] <+: w.2

end Emodbus
