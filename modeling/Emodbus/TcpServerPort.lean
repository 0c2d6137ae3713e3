import Emodbus.TcpServer

/-!
# The TCP transport on a server's port

`implementations/posix/tcp-server.c` and `mb-tcp-via-tcp-server.c`, with the super server that the
transport is set to.  What the library under them does is the environment: it calls back for a
`bufferevent` until that is freed, `bufferevent_read` hands over what has come in, up to the size
asked for, `bufferevent_write` takes all the bytes and returns 0, or none and returns -1, and
`event_add` succeeds.
-/

namespace Emodbus

open Octets

variable {σ ι : Type}

/-- `struct tcp_server_t`. -/
structure TcpServerT (ι : Type) where
  nClientsLimit : ℤ
  clientsCounter : ℤ
  /-- The `bufferevent`s that have not been freed. -/
  opened : List ι

/-- `struct emb_tcp_via_tcp_server_t` with the super server, and what the connections have. -/
structure EmbTcpViaTcpServer (σ ι : Type) where
  node : SrvNode σ ι
  tcpServer : TcpServerT ι
  /-- Whether `rx_timeout_timer` is pending. -/
  rxTimeoutTimer : Bool
  unread : ι → List Byte
  written : ι → List Byte
  /-- The client ids that were read from or written to when there was no such `bufferevent`. -/
  strayed : List (Option ι)

inductive TcpServerInput (ι : Type)
  /-- A connection comes in; if it is accepted, this is its `bufferevent`. -/
  | connection (client : ι)
  /-- These bytes have come in; `ok` is whether a write made now succeeds. -/
  | readable (client : ι) (bytes : List Byte) (ok : Bool)
  /-- All that was written has gone out. -/
  | drained (client : ι) (ok : Bool)
  /-- `ended` is whether the event is the connection's end or an error. -/
  | event (client : ι) (ended : Bool)
  | rxTimeout
  | setClientsLimit (limit : ℤ)

namespace EmbTcpViaTcpServer

/-! ## tcp-server.c -/

/-- What `bufferevent_write` returns, whatever it is offered. -/
def tcpServerWrite (ok : Bool) (_ : List Byte) : ℤ := if ok then 0 else -1

variable [DecidableEq ι]

/-- `accept_conn_cb`. -/
def acceptConnCb (s : EmbTcpViaTcpServer σ ι) (client : ι) : EmbTcpViaTcpServer σ ι :=
  let s := { s with tcpServer.clientsCounter := s.tcpServer.clientsCounter + 1 }
  if 0 < s.tcpServer.nClientsLimit ∧ s.tcpServer.nClientsLimit < s.tcpServer.clientsCounter then
    { s with tcpServer.clientsCounter := s.tcpServer.clientsCounter - 1 }
  else
    { s with
      tcpServer.opened := client :: s.tcpServer.opened
      unread := Function.update s.unread client []
      written := Function.update s.written client [] }

/-- `event_callback`. -/
def eventCallback (s : EmbTcpViaTcpServer σ ι) (client : ι) (ended : Bool) :
    EmbTcpViaTcpServer σ ι :=
  if ended then
    { s with
      tcpServer.opened := s.tcpServer.opened.erase client
      tcpServer.clientsCounter := s.tcpServer.clientsCounter - 1 }
  else s

/-! ## mb-tcp-via-tcp-server.c -/

/-- A write of the transport goes to the `bufferevent` in `tcp_client_id`. -/
def putWrite (written : ι → List Byte) (w : Option ι × List Byte) : ι → List Byte :=
  match w.1 with
  | some client => Function.update written client (written client ++ w.2)
  | none => written

variable (ssrv : EmbSuperServer σ)

/-- `tcp_srv_data_received`, and the packets passed to the super server.  The `event_add` of
`read_from_port` succeeds. -/
def dataReceived (s : EmbTcpViaTcpServer σ ι) (client : ι) (ok : Bool) :
    EmbTcpViaTcpServer σ ι × List (ℤ × Byte × List Byte) :=
  let port : PortRead := .upTo (s.unread client)
  let reader := (tcpStep s.node.tcp (.event (some client) (.dataReceived port))).1.tcpClientId
  let r := s.node.dataReceived ssrv (tcpServerWrite ok) (some client) port
  let asked := TcpOut.asked r.2.1
  let writes := TcpOut.writes r.2.2
  let used := (if 0 < asked then [reader] else []) ++ writes.map Prod.fst
  ({ s with
      node := r.1
      rxTimeoutTimer := s.rxTimeoutTimer || 0 < asked
      unread := Function.update s.unread client ((s.unread client).drop asked)
      written := if ok then writes.foldl putWrite s.written else s.written
      strayed := s.strayed ++ used.filter fun id => ∀ c ∈ s.tcpServer.opened, id ≠ some c },
    TcpOut.delivered r.2.1)

omit [DecidableEq ι] in
/-- `on_rx_timeout`. -/
def onRxTimeout (s : EmbTcpViaTcpServer σ ι) : EmbTcpViaTcpServer σ ι :=
  { s with
    node.tcp := (embTcpPortEvent s.node.tcp s.node.tcp.tcpClientId .lastRxTimeout).1
    rxTimeoutTimer := false }

/-- A callback, and the packets passed to the super server.  `write_callback` raises
`tcp_srv_data_received`, as `read_callback` does. -/
def step (s : EmbTcpViaTcpServer σ ι) :
    TcpServerInput ι → EmbTcpViaTcpServer σ ι × List (ℤ × Byte × List Byte)
  | .connection client => (s.acceptConnCb client, [])
  | .readable client bytes ok =>
    { s with unread := Function.update s.unread client (s.unread client ++ bytes) }.dataReceived
      ssrv client ok
  | .drained client ok => s.dataReceived ssrv client ok
  | .event client ended => (s.eventCallback client ended, [])
  | .rxTimeout => (if s.rxTimeoutTimer then s.onRxTimeout else s, [])
  | .setClientsLimit limit => ({ s with tcpServer.nClientsLimit := limit }, [])

omit [DecidableEq ι] in
/-- `emb_tcp_via_tcp_server_create`, with a super server set to its transport whose `rx_pdu` holds
253 bytes. -/
def create (ι : Type) (rxPdu txPdu : EmbPdu) (store : σ) : EmbTcpViaTcpServer σ ι where
  node := .start ι { rxPdu with maxSize := 253 } txPdu store
  tcpServer := ⟨-1, 0, []⟩
  rxTimeoutTimer := false
  unread _ := []
  written _ := []
  strayed := []

/-! ## What is to hold -/

omit [DecidableEq ι] in
/-- The library calls back for the `bufferevent`s that there are, and a new one is none of them. -/
def Legal (s : EmbTcpViaTcpServer σ ι) : TcpServerInput ι → Prop
  | .connection client => client ∉ s.tcpServer.opened
  | .readable client _ _ | .drained client _ | .event client _ => client ∈ s.tcpServer.opened
  | .rxTimeout | .setClientsLimit _ => True

/-- The bytes are a whole frame with this transaction id. -/
def IsFrame (id : Word) (bytes : List Byte) : Prop :=
  ∃ (slaveAddr : ℤ) (pdu : EmbPdu), pdu.dataSize.toNat ≤ maxPduDataSize
    ∧ bytes = Mem.be [id, 0, pdu.dataSize.setWidth 16 + 2]
      ++ [BitVec.ofInt 8 slaveAddr, pdu.function] ++ pdu.bytes

omit [DecidableEq ι] in
/-- The counter is right, nothing is read or written where there is no connection, every connection
has been sent whole frames, and the receiver is as at the start unless the timer is pending. -/
structure Sound (s : EmbTcpViaTcpServer σ ι) : Prop where
  counter : s.tcpServer.clientsCounter = s.tcpServer.opened.length
  nodup : s.tcpServer.opened.Nodup
  strayed : s.strayed = []
  frames : ∀ c, ∃ fs : List (List Byte), (∀ f ∈ fs, ∃ id, IsFrame id f)
    ∧ s.written c = fs.flatten
  rest : s.rxTimeoutTimer = false →
    s.node.tcp.rxPktCounter = 0 ∧ s.node.tcp.currRxLength = -1

/-- A connection sends a whole frame, and then what was written on some connection has gone out. -/
structure TcpExchange (ι : Type) where
  client : ι
  frame : TcpFrame
  drains : ι
  ok : Bool

def TcpExchange.inputs (e : TcpExchange ι) : List (TcpServerInput ι) :=
  [.readable e.client e.frame.bytes e.ok, .drained e.drains e.ok]

omit [DecidableEq ι] in
/-- The exchange is one of open connections that have nothing unread. -/
structure TcpExchange.Ready (s : EmbTcpViaTcpServer σ ι) (e : TcpExchange ι) : Prop where
  client : e.client ∈ s.tcpServer.opened
  unread : s.unread e.client = []
  drains : e.drains ∈ s.tcpServer.opened
  drained : s.unread e.drains = []

end EmbTcpViaTcpServer

end Emodbus
