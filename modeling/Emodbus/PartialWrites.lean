import Emodbus.Lib.Outbox
import Emodbus.RtuBurst
import Emodbus.Tcp

/-!
# Ports that take a packet piece by piece

What `write_to_port` does with the bytes it is offered, for both transports, and the writes after a
packet has been accepted: one in `send_packet`, and one at every event that says that the port can
take more.
-/

namespace Emodbus

open Octets

/-- A call of `write_to_port`: some of the bytes are taken, or none and it fails. -/
inductive PortResult
  | took (t : Taker Byte)
  | failed (errno : ℤ) (neg : errno < 0)

namespace PortResult

/-- What the port of an RTU context returns, and what it adds to `*_wrote`. -/
def rtu : PortResult → List Byte → ℤ × BitVec 32
  | took t, offered => (t.count offered, BitVec.ofNat 32 (t.count offered))
  | failed errno _, _ => (errno, 0)

/-- The bytes that the port takes. -/
def taken : PortResult → List Byte → List Byte
  | took t, offered => t.take offered
  | failed _ _, _ => []

def Fails : PortResult → Prop
  | took _ => False
  | failed _ _ => True

end PortResult

/-- The bytes that are offered to the port. -/
def RtuOut.offered : List RtuOut → List Byte
  | [.writeToPort offered] => offered
  | _ => []

def TcpOut.offered {ι : Type} : List (TcpOut ι) → List Byte
  | [.writeToPort _ offered] => offered
  | _ => []

/-- The port of an RTU context can take more, and takes this. -/
def rtuTxEvent (mbt : EmbRtu) (t : Taker Byte) : EmbRtu × List Byte :=
  let r := embRtuPortEvent mbt (.txBufEmpty (PortResult.took t).rtu)
  (r.1, RtuOut.offered r.2)

/-- A packet is sent and taken like this: the context then, and the bytes that were taken. -/
def rtuSendInPieces (mbt : EmbRtu) (slaveAddr : ℤ) (pdu : EmbPdu) (first : Taker Byte)
    (ts : List (Taker Byte)) : EmbRtu × List Byte :=
  let s := modbusRtuSendPacket mbt slaveAddr pdu (PortResult.took first).rtu
  let r := Mealy.run rtuTxEvent s.2.1 ts
  (r.1, Taker.takeAll (first :: ts) (RtuOut.offered s.2.2 :: r.2))

section Tcp

variable {ι : Type}

/-- The port of a TCP context can take more for this client, and takes this. -/
def tcpTxEvent (mbt : EmbTcp ι) (e : Option ι × Taker Byte) : EmbTcp ι × List Byte :=
  let r := embTcpPortEvent mbt e.1 (.txBufEmpty fun offered => e.2.count offered)
  (r.1, TcpOut.offered r.2)

def tcpSendInPieces (mbt : EmbTcp ι) (slaveAddr : ℤ) (pdu : EmbPdu) (first : Taker Byte)
    (es : List (Option ι × Taker Byte)) : EmbTcp ι × List Byte :=
  let s := modbusTcpSendPacket mbt slaveAddr pdu fun offered => first.count offered
  let r := Mealy.run tcpTxEvent s.2.1 es
  (r.1, Taker.takeAll (first :: es.map Prod.snd) (TcpOut.offered s.2.2 :: r.2))

end Tcp

/-! ## The synchronous send -/

/-- The bytes that are offered by one call of `write_to_port` after the other. -/
def RtuOut.offers : List RtuOut → List (List Byte)
  | [] => []
  | .writeToPort offered :: os => offered :: offers os
  | _ :: os => offers os

/-- `emb_rtu_send_packet_sync` on a port that does this: what it returns, and the calls of
`write_to_port` with the bytes that they were offered. -/
def rtuSendSync (mbt : EmbRtu) (slaveAddr : ℤ) (pdu : EmbPdu) (first : PortResult)
    (writes : List PortResult) : Option (ℤ × List (PortResult × List Byte)) :=
  (embRtuSendPacketSync mbt slaveAddr pdu first.rtu (writes.map PortResult.rtu)).map fun r =>
    (r.1, (first :: writes).zip (RtuOut.offers r.2.2))

/-- The bytes that the port has taken in these calls. -/
def takenOf (calls : List (PortResult × List Byte)) : List Byte :=
  calls.flatMap fun call => call.1.taken call.2

/-- Success is reported only if the port has taken the frame, and not if a call has failed before
it had. -/
structure SyncHonest (frame : List Byte) (result : ℤ) (calls : List (PortResult × List Byte)) :
    Prop where
  complete : result = 0 → takenOf calls = frame
  reports : ∀ pre call post, calls = pre ++ call :: post → call.1.Fails → takenOf pre ≠ frame →
    result ≠ 0

end Emodbus
