import Emodbus.Lib.Mealy
import Emodbus.Tcp

/-!
# Runs of the TCP transport

What the high level does to a transport between two port events, and as its reaction to an upcall,
is a `HighStep`: sending, setting `rx_pdu`, anything that leaves the receiver's own fields alone.
A run is a sequence of port events and such steps.

`TcpFrame` is the wire format: what a well-formed frame is, independently of the code.
-/

namespace Emodbus

open Octets

variable {ι : Type}

/-- The fields only the receiver writes are the same. -/
structure SameRx (t t' : EmbTcp ι) : Prop where
  counter : t.rxPktCounter = t'.rxPktCounter
  buf : t.rxBuf = t'.rxBuf
  curr : t.currRxLength = t'.currRxLength

/-- A step of the high level. -/
structure HighStep (ι : Type) where
  apply : EmbTcp ι → EmbTcp ι
  sameRx : ∀ t, SameRx (apply t) t

inductive TcpInput (ι : Type)
  | event (client : Option ι) (e : TcpPortEvent)
  | high (f : HighStep ι)

def tcpStep (t : EmbTcp ι) : TcpInput ι → EmbTcp ι × List (TcpOut ι)
  | .event client e => embTcpPortEvent t client e
  | .high f => (f.apply t, [])

namespace EmbTcp

/-- Where the length field of a buffer puts the end of its frame. -/
def frameEnd (buf : Mem Byte) : ℕ := embTcpMbapSize + (swapBytes (mbapLength buf) - 1).toNat

/-- `to_be_read` of a data event that does not clean the buffer. -/
def toBeRead (t : EmbTcp ι) : ℤ :=
  if t.currRxLength ≥ 0 then t.currRxLength else embTcpRxBufSize - t.rxPktCounter

/-- The state in which the step calls `parse_packet`, if it does. -/
def parsed (t : EmbTcp ι) : TcpInput ι → Option (EmbTcp ι)
  | .event client (.dataReceived port) =>
    let t : EmbTcp ι := { t with tcpClientId := client }
    if (embTcpRxBufSize : ℤ) - t.rxPktCounter < t.currRxLength then none
    else if t.toBeRead = 0 then some (t.received [])
    else (port.read t.toBeRead.toNat).map t.received
  | _ => none

/-- A packet in the buffer would be copied to the high level: there is a PDU for it, and the
transaction id is not a wrong one. -/
structure Accepts (t : EmbTcp ι) : Prop where
  header : embTcpMbapSize + 2 ≤ t.rxPktCounter
  transactId : t.transport.isServer ∨ transactId t.txBuf = transactId t.rxBuf
  rxPdu : t.transport.rxPdu.isSome

end EmbTcp

/-- The copy is in range: of a length that is the PDU's `data_size`, fits the PDU, and is that of
the frame's payload, all of which has been received. -/
structure PayloadCopy.InRange (c : PayloadCopy) : Prop where
  nonneg : 0 ≤ c.length
  dataSize : c.length = c.dataSize.toNat
  maxSize : c.length ≤ c.maxSize.toNat
  mbapLength : c.length + 2 = c.mbapLength.toNat
  received : embTcpMbapSize + 1 + c.length ≤ c.counter

namespace TcpOut

/-- How much was asked of the port. -/
def asked : List (TcpOut ι) → ℕ
  | [] => 0
  | .readFromPort _ n :: os => n + asked os
  | _ :: os => asked os

def upcalls : List (TcpOut ι) → List Upcall
  | [] => []
  | .upcall u :: os => u :: upcalls os
  | _ :: os => upcalls os

def copies : List (TcpOut ι) → List PayloadCopy
  | [] => []
  | .memcpy c :: os => c :: copies os
  | _ :: os => copies os

end TcpOut

/-- Of the next two data events, whatever they bring, one asks the port for some bytes. -/
def EmbTcp.Recovers (t : EmbTcp ι) : Prop :=
  ∀ c₁ p₁ c₂ p₂,
    let r := tcpStep t (.event c₁ (.dataReceived p₁))
    0 < TcpOut.asked r.2 ∨ 0 < TcpOut.asked (tcpStep r.1 (.event c₂ (.dataReceived p₂))).2

/-- What `recv_packet` passes up: unit id, function and data. -/
def Upcall.view : Upcall → Option (ℤ × Byte × List Byte)
  | .recvPacket addr pdu => some (addr, pdu.function, pdu.bytes)
  | .error _ => none

/-- The packets delivered by some outputs. -/
def TcpOut.delivered (os : List (TcpOut ι)) : List (ℤ × Byte × List Byte) :=
  (TcpOut.upcalls os).filterMap Upcall.view

/-- A Modbus-TCP frame with 1 to 253 data bytes. -/
structure TcpFrame where
  transactId : Word
  protoId : Word
  unitId : Byte
  function : Byte
  data : List Byte
  nonempty : 1 ≤ data.length
  fits : data.length ≤ maxPduDataSize

theorem one_byte_fits : [(0 : Byte)].length ≤ maxPduDataSize := by decide

namespace TcpFrame

/-- The MBAP header and the function. -/
def header (f : TcpFrame) : List Byte :=
  Mem.be [f.transactId, f.protoId, BitVec.ofNat 16 (f.data.length + 2)] ++ [f.unitId, f.function]

def bytes (f : TcpFrame) : List Byte := f.header ++ f.data

/-- What the high level is to see of the frame. -/
def view (f : TcpFrame) : ℤ × Byte × List Byte := (f.unitId.toNat, f.function, f.data)

/-- The bytes of the frames one behind the other. -/
def stream (fs : List TcpFrame) : List Byte := fs.flatMap bytes

/-- How far it is to the next end of a frame when `left` bytes of the stream are unread. -/
def untilBorder : List TcpFrame → ℕ → ℕ
  | [], left => left
  | _ :: fs, left =>
    if (stream fs).length < left then left - (stream fs).length else untilBorder fs left

end TcpFrame

/-- The receiver has got the first `n` bytes of the frame and nothing else. -/
structure EmbTcp.Partway (t : EmbTcp ι) (f : TcpFrame) (n : ℕ) : Prop where
  lt : n < f.bytes.length
  counter : t.rxPktCounter = n
  slice : Mem.slice t.rxBuf 0 n = f.bytes.take n
  curr_start : n = 0 → t.currRxLength ≤ 0
  curr_short : 0 < n → n < 9 → t.currRxLength = -1
  curr_rest : 9 ≤ n → t.currRxLength = (f.bytes.length : ℤ) - n

/-! ## One stream, read in pieces -/

/-- A step of a server's high level: it keeps the PDU for requests and the server flag. -/
structure ServerStep (ι : Type) extends HighStep ι where
  isServer : ∀ t, (apply t).transport.isServer = t.transport.isServer
  maxSize : ∀ t, (apply t).transport.rxPdu.map EmbPdu.maxSize = t.transport.rxPdu.map EmbPdu.maxSize

/-- A high level that does nothing. -/
def ServerStep.idle : ServerStep ι where
  apply := id
  sameRx _ := ⟨rfl, rfl, rfl⟩
  isServer _ := rfl
  maxSize _ := rfl

/-- A data event whose read returns `atMost + 1` bytes at most, and what the high level does
after it. -/
structure Arrival (ι : Type) where
  client : Option ι
  atMost : ℕ
  after : ServerStep ι

structure TcpSession (ι : Type) where
  tcp : EmbTcp ι
  unread : List Byte

namespace TcpSession

/-- The port at the time of the event. -/
def port (s : TcpSession ι) (a : Arrival ι) : PortRead := .upTo (s.unread.take (a.atMost + 1))

def event (s : TcpSession ι) (a : Arrival ι) : TcpInput ι :=
  .event a.client (.dataReceived (s.port a))

/-- The bytes the event reads. -/
def reads (s : TcpSession ι) (a : Arrival ι) : List Byte :=
  (s.unread.take (a.atMost + 1)).take (TcpOut.asked (tcpStep s.tcp (s.event a)).2)

/-- Events are raised as long as there are unread bytes. -/
def feed (s : TcpSession ι) (a : Arrival ι) : TcpSession ι × List (ℤ × Byte × List Byte) :=
  if s.unread = [] then (s, [])
  else
    let r := tcpStep s.tcp (s.event a)
    (⟨a.after.apply r.1, s.unread.drop (s.reads a).length⟩, TcpOut.delivered r.2)

/-- The read of the event does not go beyond the end of a frame. -/
def WithinFrame (fs : List TcpFrame) (s : TcpSession ι) (a : Arrival ι) : Prop :=
  (s.reads a).length ≤ TcpFrame.untilBorder fs s.unread.length

end TcpSession

/-! ## One event for each frame -/

/-- A frame that arrives as a whole, the event raised for it, and what the high level does after
it. -/
structure FrameArrival (ι : Type) where
  client : Option ι
  frame : TcpFrame
  after : ServerStep ι

/-- Exactly the frame waits in the port when the event is raised. -/
def EmbTcp.arrive (t : EmbTcp ι) (a : FrameArrival ι) :
    EmbTcp ι × List (ℤ × Byte × List Byte) :=
  let r := tcpStep t (.event a.client (.dataReceived (.upTo a.frame.bytes)))
  (a.after.apply r.1, TcpOut.delivered r.2)

/-- A server that has just been initialised, with room for the longest request. -/
def EmbTcp.freshServer (ι : Type) (p : EmbPdu) : EmbTcp ι :=
  embTcpInitialize (EmbTcp.zeroed ι ⟨some { p with maxSize := 253 }, true⟩)

end Emodbus
