import Emodbus.TcpPair

/-!
# A TCP client and the answers that reach it

A client behind its transport.  Each request may be answered by any number of frames, and a frame
may arrive at any time after its request and more than once.  A data event finds one whole frame to
be read, or nothing.
-/

namespace Emodbus

open Octets

variable {π ι : Type}

deriving instance DecidableEq for ClientEnd

/-! ## How a transaction ends -/

/-- How a packet ends the transaction that is pending. -/
def packetEnd (cli : EmbClient π) (req : EmbClientTransaction π) (slaveAddr : ℤ) (pkt : EmbPdu) :
    ClientEnd :=
  if cli.currAddr ≠ slaveAddr then .error (-modbusRespWrongAddress)
  else if embCheckPduForException pkt ≠ 0 then .error (embCheckPduForException pkt)
  else if req.reqPdu.function ≠ pkt.function then .error (-modbusRespWrongFunc)
  else .response

/-- How an event ends the transaction that is pending. -/
def ClientInput.endOf (cli : EmbClient π) (req : EmbClientTransaction π) :
    ClientInput π → Option ClientEnd
  | .doTransaction _ _ => none
  | .recvPacket slaveAddr pkt => some (packetEnd cli req slaveAddr pkt)
  | .error errno => some (.error errno)
  | .waitTimeout => some (.error (-modbusRespTimeout))

/-- What the user is told of the end: nothing if he has set no callback for it. -/
def EmbClientTransaction.told (req : EmbClientTransaction π) (fin : ClientEnd) :
    List (EmbClientTransaction π × ClientEnd) :=
  if req.hears fin then [(req, fin)] else []

/-! ## The client and its answers -/

/-- A port with nothing to hand over, or one that fails. -/
def PortRead.nothing (fails : Bool) : PortRead where
  read _ := if fails then none else some []
  length_le h := by
    split_ifs at h
    simp only [Option.some.injEq] at h
    simp [← h]

/-- An accepted transaction, and the transaction id that its request was sent with. -/
structure Requested (π : Type) where
  addr : ℤ
  transact : EmbClientTransaction π
  /-- `none` if the transport has refused the request. -/
  id : Option Word

/-- A frame that answers the request of the transaction with this number. -/
structure Answer where
  number : ℕ
  frame : TcpFrame

/-- An end that the user was told of a transaction: the transaction's number, and the frame that
has been taken in. -/
structure Told (π : Type) extends Ended π where
  number : ℕ
  answer : Option Answer

structure TcpClient (π ι : Type) where
  node : ClientNode π ι
  requested : List (Requested π)
  told : List (Told π)

inductive TcpClientInput (π ι : Type)
  | doTransaction (slaveAddr : ℤ) (transact : EmbClientTransaction π)
  | waitTimeout
  /-- A data event with this frame to be read. -/
  | answer (client : Option ι) (a : Answer)
  /-- A data event with nothing to be read. -/
  | noAnswer (client : Option ι) (fails : Bool)
  | txBufEmpty (client : Option ι) (wrote : List Byte → ℤ)
  | lastRxTimeout (client : Option ι)

/-- How the frame ends a transaction whose request has this function, at the right address. -/
def TcpFrame.answerEnd (f : TcpFrame) (function : Byte) : ClientEnd :=
  if f.function &&& 0x80 ≠ 0 then .error (-(embExceptionBase + (f.data.headD 0).toNat))
  else if function ≠ f.function then .error (-modbusRespWrongFunc)
  else .response

namespace TcpClient

/-- The transactions with the ids that `modbus_tcp_send_packet` gives them. -/
def requests (wrote : List Byte → ℤ) (t : EmbTcp ι) :
    List (ℤ × EmbClientTransaction π) → List (Requested π)
  | [] => []
  | a :: as =>
    let s := modbusTcpSendPacket t a.1 a.2.reqPdu wrote
    ⟨a.1, a.2, if s.1 = 0 then some (Mem.beWord s.2.1.txBuf 0) else none⟩ :: requests wrote s.2.1 as

/-- An event of the client.  What it tells is about the transaction that was pending before it,
which is the last one accepted. -/
def clientEvent (wrote : List Byte → ℤ) (user : ClientUser π) (answer : Option Answer)
    (s : TcpClient π ι) (i : ClientInput π) : TcpClient π ι :=
  let acts := s.node.newActs user i
  { node := { s.node with
      tcp := (SrvNode.sendAll wrote s.node.tcp (ClientAct.sent acts)).1
      run := Emodbus.clientEvent user s.node.run i }
    requested := s.requested ++ requests wrote s.node.tcp (ClientAct.started acts)
    told := s.told ++ (ClientAct.procsCalls acts).map fun e =>
      ⟨⟨e.1, e.2, e.1.respPdu.map s.node.pdus⟩, s.requested.length - 1, answer⟩ }

/-- An event of the port, and what the client makes of the upcalls. -/
def portEvent [DecidableEq π] (wrote : List Byte → ℤ) (user : ClientUser π)
    (answer : Option Answer) (s : TcpClient π ι) (client : Option ι) (e : TcpPortEvent) :
    TcpClient π ι :=
  let r := tcpStep s.node.view (.event client e)
  (TcpOut.upcalls r.2).foldl
    (fun s u => s.clientEvent wrote user answer (ClientNode.ofUpcall u))
    { s with node := s.node.afterRead r.1 }

/-- A step, and what the user is told with it. -/
def step [DecidableEq π] (wrote : List Byte → ℤ) (user : ClientUser π) (s : TcpClient π ι)
    (i : TcpClientInput π ι) : TcpClient π ι × List (Told π) :=
  let s' := match i with
    | .doTransaction slaveAddr transact =>
      s.clientEvent wrote user none (.doTransaction slaveAddr transact)
    | .waitTimeout => s.clientEvent wrote user none .waitTimeout
    | .answer client a =>
      s.portEvent wrote user (some a) client (.dataReceived (.upTo a.frame.bytes))
    | .noAnswer client fails => s.portEvent wrote user none client (.dataReceived (.nothing fails))
    | .txBufEmpty client wrote' => s.portEvent wrote user none client (.txBufEmpty wrote')
    | .lastRxTimeout client => s.portEvent wrote user none client .lastRxTimeout
  (s', s'.told.drop s.told.length)

/-- The frame is received: a data event is raised again if it has read nothing. -/
def receive [DecidableEq π] (wrote : List Byte → ℤ) (user : ClientUser π) (s : TcpClient π ι)
    (client : Option ι) (a : Answer) : TcpClient π ι :=
  let s' := (s.step wrote user (.answer client a)).1
  let r := tcpStep s.node.view (.event client (.dataReceived (.upTo a.frame.bytes)))
  if TcpOut.asked r.2 = 0 then (s'.step wrote user (.answer client a)).1 else s'

/-- What the user has been told of a transaction: how it has ended, and what its response PDU held
then. -/
def outcome (s : TcpClient π ι) (number : ℕ) : List (ClientEnd × Option (Byte × List Byte)) :=
  (s.told.filter fun t => t.number = number).map fun t =>
    (t.fin, t.pdu.map fun p => (p.function, p.bytes))

/-- A client whose transport has been zeroed and initialized. -/
def start (ι : Type) (onResponse onError : Bool) (pdus : π → EmbPdu) : TcpClient π ι where
  node :=
    { tcp := embTcpInitialize (EmbTcp.zeroed ι ⟨none, false⟩)
      run := ⟨embClientInit ⟨none, 0, none, onResponse, onError⟩, []⟩
      pdus := pdus }
  requested := []
  told := []

/-- The client after some run. -/
def Reachable [DecidableEq π] (wrote : List Byte → ℤ) (user : ClientUser π) (s : TcpClient π ι) :
    Prop :=
  ∃ onResponse onError pdus ins, s = (Mealy.run (step wrote user) (start ι onResponse onError pdus)
    ins).1

/-! ## Answers, and what is to be told with them -/

/-- A frame that arrives answers a request that was sent, no more than 65535 transactions ago. -/
def Delivers (s : TcpClient π ι) : TcpClientInput π ι → Prop
  | .answer _ a => (∃ q, s.requested[a.number]? = some q ∧ q.id = some a.frame.transactId)
      ∧ s.requested.length ≤ a.number + 1 + 65535
  | _ => True

/-- No frame arrives that looks like the answer to a pending request that is too long to be
sent. -/
def Unmistaken (s : TcpClient π ι) : TcpClientInput π ι → Prop
  | .answer _ a => ∀ req, s.node.run.cli.currTransaction = some req →
      EmbTcp.transactId s.node.tcp.txBuf = a.frame.transactId.swap →
      (a.frame.unitId.toNat : ℤ) = s.node.run.cli.currAddr →
      a.frame.function = req.reqPdu.function → req.reqPdu.dataSize.toNat ≤ maxPduDataSize
  | _ => True

/-- Every transaction has been told one end at most, and a response only of its own answer. -/
structure OwnAnswers (s : TcpClient π ι) : Prop where
  once : (s.told.map Told.number).Nodup
  own : ∀ t ∈ s.told, t.fin = .response → ∃ f q, t.answer = some ⟨t.number, f⟩
    ∧ s.requested[t.number]? = some q ∧ q.transact = t.transact ∧ q.id = some f.transactId
    ∧ (f.unitId.toNat : ℤ) = q.addr ∧ f.function = q.transact.reqPdu.function

end TcpClient

end Emodbus
