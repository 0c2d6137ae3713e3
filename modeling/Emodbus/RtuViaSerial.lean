import Emodbus.RtuBus
import Emodbus.TcpViaTcpClient

/-!
# The RTU transport on a serial port

`implementations/posix/serial-port.c` and `mb-rtu-via-serial.c` once the port has been opened.  What
the device hands over and takes is the environment, `event_add` succeeds, and an event is raised
only while it is pending; `read_event` always is.  What the high level does when it is told of a
packet is an input of its own: it touches nothing that the receiver goes on with.
-/

namespace Emodbus

open Octets

/-- The write takes something of what it is offered, or fails. -/
def PortWrite.Moves (write : PortWrite) : Prop := ∀ bytes ≠ [], write.send bytes ≠ 0

/-- The write takes something of what it is offered. -/
def PortWrite.Takes (write : PortWrite) : Prop := ∀ bytes ≠ [], 0 < write.send bytes

/-- The bytes behind `tx_buf_counter`. -/
def EmbRtu.unsent (mbt : EmbRtu) : List Byte :=
  Mem.slice mbt.txBuffer mbt.txBufCounter.toNat (mbt.txPktSize - mbt.txBufCounter).toNat

/-- `emb_rtu_on_char` is called. -/
def RtuOut.charReceived : List RtuOut → Bool
  | [] => false
  | .onChar :: _ => true
  | _ :: os => charReceived os

/-- `struct emb_rtu_via_serial_t` with its `struct serial_port_t`. -/
structure EmbRtuViaSerial where
  modbusRtu : EmbRtu
  /-- Whether `write_event` is pending. -/
  writeEvent : Bool
  /-- Whether `char_timeout_timer` is pending. -/
  charTimeoutTimer : Bool
  /-- The bytes that the device took. -/
  taken : List Byte
  /-- The packets that `send_packet` accepted. -/
  accepted : List (ℤ × EmbPdu)

inductive SerialInput
  | readable (port : PortRead)
  | writable (write : PortWrite)
  /-- `char_timeout_timer` expires. -/
  | timeout
  | sendPacket (slaveAddr : ℤ) (pdu : EmbPdu) (write : PortWrite)

namespace EmbRtuViaSerial

/-- `emb_rtu_via_serial_create`. -/
def create (transport : EmbTransport) : EmbRtuViaSerial where
  modbusRtu := embRtuInitialize
    { rxBuffer := fun _ => 0
      txBuffer := fun _ => 0
      rxBufSize := 256
      txBufSize := 256
      rxBufCounter := 0
      txBufCounter := 0
      txPktSize := 0
      transport := transport }
  writeEvent := false
  charTimeoutTimer := false
  taken := []
  accepted := []

/-- `serial_port_write`: what it returns, and what it adds to `*_wrote`.  Its `event_add`
succeeds. -/
def serialPortWrite (s : EmbRtuViaSerial) (write : PortWrite) (data : List Byte) :
    (ℤ × BitVec 32) × EmbRtuViaSerial :=
  if data.length = 0 then ((0, 0), { s with writeEvent := false })
  else
    let res := write.send data
    if 0 < res then
      ((res, BitVec.ofInt 32 res),
        { s with writeEvent := true, taken := s.taken ++ data.take res.toNat })
    else ((res, 0), s)

/-- The transport has gone on to this, with these outputs. -/
def afterWrites (write : PortWrite) (s : EmbRtuViaSerial) (r : EmbRtu × List RtuOut) :
    EmbRtuViaSerial :=
  (RtuOut.offers r.2).foldl (fun s data => (s.serialPortWrite write data).2)
    { s with modbusRtu := r.1 }

/-- `serial_port_data_received_event`.  The `event_add` of `modbus_rtu_on_char` succeeds. -/
def dataReceived (s : EmbRtuViaSerial) (port : PortRead) : EmbRtuViaSerial :=
  let r := embRtuPortEvent s.modbusRtu (.dataReceived port)
  { s with
    modbusRtu := r.1
    charTimeoutTimer := s.charTimeoutTimer || RtuOut.charReceived r.2 }

/-- `serial_port_data_sent_event`. -/
def dataSent (s : EmbRtuViaSerial) (write : PortWrite) : EmbRtuViaSerial :=
  s.afterWrites write (embRtuPortEvent s.modbusRtu
    (.txBufEmpty fun data => (s.serialPortWrite write data).1))

/-- `emb_transport_send_packet`. -/
def sendPacket (s : EmbRtuViaSerial) (slaveAddr : ℤ) (pdu : EmbPdu) (write : PortWrite) :
    EmbRtuViaSerial :=
  let r := modbusRtuSendPacket s.modbusRtu slaveAddr pdu
    fun data => (s.serialPortWrite write data).1
  afterWrites write
    { s with accepted := if r.1 = 0 then s.accepted ++ [(slaveAddr, pdu)] else s.accepted } r.2

/-- An event, and what the high level is told. -/
def step (s : EmbRtuViaSerial) : SerialInput → EmbRtuViaSerial × List Upcall
  | .readable port => (s.dataReceived port, [])
  | .writable write => (if s.writeEvent then s.dataSent write else s, [])
  | .timeout =>
    if s.charTimeoutTimer then
      let r := embRtuOnCharTimeout s.modbusRtu
      ({ s with modbusRtu := r.1, charTimeoutTimer := false }, RtuOut.upcalls r.2)
    else (s, [])
  | .sendPacket slaveAddr pdu write => (s.sendPacket slaveAddr pdu write, [])

/-! ## What is to hold -/

/-- The frames of the packets that were accepted. -/
def frames (s : EmbRtuViaSerial) : List (List Byte) :=
  s.accepted.map fun p => rtuBytes (BitVec.ofInt 8 p.1) p.2.function p.2.bytes

/-- A packet is sent when nothing is left to send, and every write takes something or fails. -/
def Legal (s : EmbRtuViaSerial) : SerialInput → Prop
  | .readable _ => True
  | .writable write => write.Moves
  | .timeout => True
  | .sendPacket _ _ write => embRtuHasDataToSend s.modbusRtu = 0 ∧ write.Moves

/-- No write fails. -/
def Unfailed : SerialInput → Prop
  | .writable write => write.Takes
  | .sendPacket _ _ write => write.Takes
  | _ => True

/-- Nothing is left lying: what has been received waits for the timer, what is to be sent for the
device. -/
structure Armed (s : EmbRtuViaSerial) : Prop where
  timer : s.modbusRtu.rxBufCounter ≠ 0 → s.charTimeoutTimer = true
  write : embRtuHasDataToSend s.modbusRtu ≠ 0 → s.writeEvent = true

end EmbRtuViaSerial

end Emodbus
