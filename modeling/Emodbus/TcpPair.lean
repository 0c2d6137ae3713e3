import Emodbus.Client
import Emodbus.TcpServer

/-!
# A client and a server, connected by TCP

Each side is its transport with its high level, and a byte stream goes in each direction.  A data
event hands over as many unread bytes as it likes, none at all among them.  The user starts
transactions by himself and from his callbacks.
-/

namespace Emodbus

open Octets

variable {π ι σ : Type}

namespace ClientAct

/-- The accepted transactions with their addresses, in order. -/
def started : List (ClientAct π) → List (ℤ × EmbClientTransaction π)
  | [] => []
  | .doTransaction d :: acts =>
    if d.result = 0 then (d.slaveAddr, d.transact) :: started acts else started acts
  | .call _ _ :: acts => started acts

/-- What was handed to `send_packet`, in order. -/
def sent : List (ClientAct π) → List (ℤ × EmbPdu)
  | [] => []
  | .doTransaction d :: acts => d.sent ++ sent acts
  | .call _ _ :: acts => sent acts

end ClientAct

/-- The port takes all it is offered. -/
def wroteAll (bytes : List Byte) : ℤ := bytes.length

/-- The bytes written to the port. -/
def TcpOut.written (os : List (TcpOut ι)) : List Byte := (TcpOut.writes os).flatMap Prod.snd

/-! ## The client's side -/

/-- A client behind its transport; `pdus` is what the user's pointers point to. -/
structure ClientNode (π ι : Type) where
  tcp : EmbTcp ι
  run : ClientRun π
  pdus : π → EmbPdu

namespace ClientNode

/-- The transport, with the PDU that `rx_pdu` points to. -/
def view (n : ClientNode π ι) : EmbTcp ι :=
  { n.tcp with transport.rxPdu := n.run.cli.rxPdu.map n.pdus }

/-- What the event did at the user's interface. -/
def newActs (user : ClientUser π) (n : ClientNode π ι) (i : ClientInput π) :
    List (ClientAct π) :=
  (clientEvent user n.run i).acts.drop n.run.acts.length

/-- An event of the client, with the packets it sends. -/
def handle (user : ClientUser π) (n : ClientNode π ι) (i : ClientInput π) :
    ClientNode π ι × List (TcpOut ι) :=
  let s := SrvNode.sendAll wroteAll n.tcp (ClientAct.sent (newActs user n i))
  ({ n with tcp := s.1, run := clientEvent user n.run i }, s.2)

/-- `recv_packet` and `error` of the client's transport. -/
def ofUpcall : Upcall → ClientInput π
  | .recvPacket addr pdu => .recvPacket addr pdu
  | .error errno => .error errno

variable [DecidableEq π]

/-- The client once the transport has taken the bytes, with the PDU it has written to. -/
def afterRead (n : ClientNode π ι) (tcp : EmbTcp ι) : ClientNode π ι :=
  { n with
    tcp := tcp
    pdus := match n.run.cli.rxPdu, tcp.transport.rxPdu with
      | some p, some pdu => Function.update n.pdus p pdu
      | _, _ => n.pdus }

end ClientNode

/-! ## Both sides -/

/-- A request that has reached the server: the address, and the super server at that time. -/
structure Served (σ : Type) where
  addr : ℤ
  run : SrvRun σ

/-- A transaction with its end and what its response PDU holds then. -/
structure Ended (π : Type) where
  transact : EmbClientTransaction π
  fin : ClientEnd
  pdu : Option EmbPdu

/-- Both sides, the unread bytes, and what has happened so far. -/
structure TcpPair (π ι σ : Type) where
  client : ClientNode π ι
  server : SrvNode σ ι
  toServer : List Byte
  toClient : List Byte
  started : List (ℤ × EmbClientTransaction π)
  served : List (Served σ)
  ended : List (Ended π)

inductive PairInput (π ι : Type)
  | doTransaction (slaveAddr : ℤ) (transact : EmbClientTransaction π)
  /-- A data event whose read returns `atMost` bytes at most. -/
  | serverData (client : Option ι) (atMost : ℕ)
  | clientData (client : Option ι) (atMost : ℕ)

namespace TcpPair

/-- How many of the unread bytes the event reads. -/
def readBytes (t : EmbTcp ι) (client : Option ι) (unread : List Byte) (atMost : ℕ) : ℕ :=
  ((unread.take atMost).take (TcpOut.asked
    (tcpStep t (.event client (.dataReceived (.upTo (unread.take atMost))))).2)).length

/-- An event of the client, and what the user is told with it. -/
def clientEvent (user : ClientUser π) (s : TcpPair π ι σ) (i : ClientInput π) :
    TcpPair π ι σ × List (Ended π) :=
  let acts := s.client.newActs user i
  let r := s.client.handle user i
  let ended := (ClientAct.procsCalls acts).map fun e =>
    ⟨e.1, e.2, e.1.respPdu.map s.client.pdus⟩
  ({ s with
      client := r.1
      toServer := s.toServer ++ TcpOut.written r.2
      started := s.started ++ ClientAct.started acts
      ended := s.ended ++ ended }, ended)

/-- The upcalls of a data event, one after the other. -/
def clientEvents [DecidableEq π] (user : ClientUser π) (s : TcpPair π ι σ) :
    List Upcall → TcpPair π ι σ × List (Ended π)
  | [] => (s, [])
  | u :: us =>
    let r := s.clientEvent user (ClientNode.ofUpcall u)
    let rs := clientEvents user r.1 us
    (rs.1, r.2 ++ rs.2)

/-- The requests among the upcalls of a data event; it has one at most. -/
def requests (n : SrvNode σ ι) (us : List Upcall) : List (Served σ) :=
  us.filterMap fun
    | .recvPacket addr pdu => some ⟨addr, ⟨pdu, n.txPdu, n.store, []⟩⟩
    | .error _ => none

def step [DecidableEq π] (ssrv : EmbSuperServer σ) (user : ClientUser π) (s : TcpPair π ι σ) :
    PairInput π ι → TcpPair π ι σ × List (Ended π)
  | .doTransaction slaveAddr transact =>
    s.clientEvent user (.doTransaction slaveAddr transact)
  | .serverData client atMost =>
    let r := s.server.dataReceived ssrv wroteAll client (.upTo (s.toServer.take atMost))
    ({ s with
        server := r.1
        toServer := s.toServer.drop (readBytes s.server.tcp client s.toServer atMost)
        toClient := s.toClient ++ TcpOut.written r.2.2
        served := s.served ++ requests s.server (TcpOut.upcalls r.2.1) }, [])
  | .clientData client atMost =>
    let r := tcpStep s.client.view
      (.event client (.dataReceived (.upTo (s.toClient.take atMost))))
    let s := { s with
      client := s.client.afterRead r.1
      toClient := s.toClient.drop (readBytes s.client.view client s.toClient atMost) }
    s.clientEvents user (TcpOut.upcalls r.2)

/-- Both sides zeroed and initialized. -/
def start (onResponse onError : Bool) (pdus : π → EmbPdu) (rxPdu txPdu : EmbPdu) (store : σ) :
    TcpPair π ι σ where
  client :=
    { tcp := embTcpInitialize (EmbTcp.zeroed ι ⟨none, false⟩)
      run := ⟨embClientInit ⟨none, 0, none, onResponse, onError⟩, []⟩
      pdus := pdus }
  server := .start ι rxPdu txPdu store
  toServer := []
  toClient := []
  started := []
  served := []
  ended := []

end TcpPair

/-! ## What the transactions are to come to -/

/-- The server is known, has a function for the request and is no broadcast, and the function
returns `res`. -/
def Served.Handled (ssrv : EmbSuperServer σ) (sv : Served σ) (res : Byte × SrvRun σ) : Prop :=
  ∃ srv func, ssrv.Asks sv.addr sv.run srv func ∧ func.call srv.toEmbServer sv.run = res

/-- The request came to the server as it was, and the transaction has come to the end the handler
has given it. -/
structure Ended.Fulfils (ssrv : EmbSuperServer σ) (e : Ended π) (sv : Served σ)
    (a : ℤ × EmbClientTransaction π) : Prop where
  transact : e.transact = a.2
  addr : sv.addr = a.1
  request : sv.run.rxPdu.Same a.2.reqPdu
  answer : ∃ res, sv.Handled ssrv res
    ∧ (res.1 ≠ 0 → e.fin = .error (-(embExceptionBase + res.1.toNat)))
    ∧ (res.1 = 0 → e.fin = .response ∧ ∃ pdu, e.pdu = some pdu ∧ pdu.Same res.2.txPdu)

namespace TcpPair

/-- What the super server finds when the request arrives. -/
def servedWith (s : TcpPair π ι σ) (addr : ℤ) (reqPdu rxPdu : EmbPdu) : Served σ :=
  ⟨addr, ⟨rxPdu.receive reqPdu, s.server.txPdu, s.server.store, []⟩⟩

/-- A transaction that the protocol has room for, with a server that knows it and a response PDU
that the answer fits. -/
structure Answerable (ssrv : EmbSuperServer σ) (s : TcpPair π ι σ)
    (a : ℤ × EmbClientTransaction π) : Prop where
  addr : 0 ≤ a.1 ∧ a.1 ≤ 255
  function : a.2.reqPdu.function.toNat < 0x80
  dataSize : 1 ≤ a.2.reqPdu.dataSize.toNat ∧ a.2.reqPdu.dataSize.toNat ≤ maxPduDataSize
  hears : a.2.hasOnResponse = true ∧ a.2.hasOnError = true
  answer : ∃ p, a.2.respPdu = some p ∧ ∀ rx, s.server.tcp.transport.rxPdu = some rx →
    ∃ res, (s.servedWith a.1 a.2.reqPdu rx).Handled ssrv res
      ∧ (res.1 ≠ 0 → 1 ≤ (s.client.pdus p).maxSize.toNat)
      ∧ (res.1 = 0 → res.2.txPdu.function = a.2.reqPdu.function
        ∧ 1 ≤ res.2.txPdu.dataSize.toNat ∧ res.2.txPdu.dataSize.toNat ≤ maxPduDataSize
        ∧ res.2.txPdu.dataSize.toNat ≤ (s.client.pdus p).maxSize.toNat)

/-- The transactions that the step starts can be answered. -/
def StartsAnswerable [DecidableEq π] (ssrv : EmbSuperServer σ) (user : ClientUser π)
    (s : TcpPair π ι σ) (i : PairInput π ι) : Prop :=
  ∀ a ∈ (s.step ssrv user i).1.started.drop s.started.length,
    (s.step ssrv user i).1.Answerable ssrv a

/-- One for a data event that finds unread bytes and may read some, zero for any other input. -/
def busy (s : TcpPair π ι σ) : PairInput π ι → ℕ
  | .doTransaction _ _ => 0
  | .serverData _ atMost => if s.toServer ≠ [] ∧ atMost ≠ 0 then 1 else 0
  | .clientData _ atMost => if s.toClient ≠ [] ∧ atMost ≠ 0 then 1 else 0

/-- The transactions have ended once each and in order, the last one perhaps not yet, and each has
come to its end by way of the server. -/
structure InOrder (ssrv : EmbSuperServer σ) (s : TcpPair π ι σ) : Prop where
  served : s.ended.length ≤ s.served.length ∧ s.served.length ≤ s.started.length
  pending : s.started.length ≤ s.ended.length + 1
  fulfils : ∀ (k : ℕ) (e : Ended π), s.ended[k]? = some e →
    ∃ sv a, s.served[k]? = some sv ∧ s.started[k]? = some a ∧ e.Fulfils ssrv sv a

end TcpPair

end Emodbus
