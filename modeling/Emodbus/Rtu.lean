import Emodbus.Crc
import Emodbus.Lib.Mealy
import Emodbus.Transport

/-!
# The Modbus-RTU transport

`transport/rtu.h` and `transport/rtu.c`, with `crc16` for `EMB_RTU_CRC_FUNCTION` and payloads
copied.  An `unsigned int` is a `BitVec 32`.
-/

namespace Emodbus

open Octets

/-- `struct emb_rtu_t`. -/
structure EmbRtu where
  rxBuffer : Mem Byte
  txBuffer : Mem Byte
  rxBufSize : BitVec 32
  txBufSize : BitVec 32
  rxBufCounter : BitVec 32
  txBufCounter : BitVec 32
  txPktSize : BitVec 32
  transport : EmbTransport

inductive RtuOut
  /-- `read_from_port(rx_buffer + start, size)` -/
  | readFromPort (start size : ℕ)
  /-- `write_to_port(offered)` -/
  | writeToPort (offered : List Byte)
  | onChar
  | upcall (u : Upcall)

inductive RtuPortEvent
  | dataReceived (port : PortRead)
  /-- What the port returns when offered some bytes, and what it adds to `*_wrote`. -/
  | txBufEmpty (wrote : List Byte → ℤ × BitVec 32)

/-- `parse_packet`. -/
def rtuParsePacket (mbt : EmbRtu) : EmbRtu × List RtuOut :=
  let buf := mbt.rxBuffer
  let size : ℤ := (mbt.rxBufCounter - 2).toInt
  if 2 ≤ size then
    let crc1 := crc16 buf (BitVec.ofInt 16 size)
    let crc2 := mkWord (buf size.toNat) (buf (size.toNat + 1))
    if crc1 ≠ crc2 then (mbt, [.upcall (.error (-modbusBadCrc))])
    else
      match mbt.transport.rxPdu with
      | none => (mbt, [])
      | some rxPdu =>
        let dataSz := size.toNat - 2
        if rxPdu.maxSize.toNat < dataSz then (mbt, [.upcall (.error (-modbusRespBufferOvf))])
        else
          let rxPdu := { rxPdu with
            function := buf 1
            dataSize := BitVec.ofInt 8 (size - 2)
            data := Mem.copy rxPdu.data (Mem.shift buf 2) dataSz }
          ({ mbt with transport.rxPdu := some rxPdu },
            [.upcall (.recvPacket (buf 0).toNat rxPdu)])
  else (mbt, [])

/-- `emb_rtu_port_event`. -/
def embRtuPortEvent (mbt : EmbRtu) : RtuPortEvent → EmbRtu × List RtuOut
  | .dataReceived port =>
    let start := mbt.rxBufCounter.toNat
    let size := (mbt.rxBufSize - mbt.rxBufCounter).toNat
    match port.read size with
    | some (b :: bs) =>
      ({ mbt with
          rxBuffer := Mem.blit mbt.rxBuffer start (b :: bs)
          rxBufCounter := mbt.rxBufCounter + BitVec.ofNat 32 (b :: bs).length },
        [.readFromPort start size, .onChar])
    | _ => ({ mbt with rxBufCounter := 0 }, [.readFromPort start size])
  | .txBufEmpty wrote =>
    let offered := Mem.slice mbt.txBuffer mbt.txBufCounter.toNat
      (mbt.txPktSize - mbt.txBufCounter).toNat
    let r := wrote offered
    let mbt := { mbt with txBufCounter := mbt.txBufCounter + r.2 }
    if r.1 < 0 then ({ mbt with txBufCounter := 0, txPktSize := 0 }, [.writeToPort offered])
    else (mbt, [.writeToPort offered])

/-- The packet `modbus_rtu_send_packet` puts into `tx_buffer`. -/
def buildPacket (mbt : EmbRtu) (slaveAddr : ℤ) (pdu : EmbPdu) : Mem Byte :=
  let sz := pdu.dataSize.toNat + 2
  let tx := Mem.blit mbt.txBuffer 0 [BitVec.ofInt 8 slaveAddr]
  let tx := Mem.blit tx 1 [pdu.function]
  let tx := Mem.blit tx 2 pdu.bytes
  litEndMk16 tx sz (crc16 tx (BitVec.ofNat 16 sz))

/-- `modbus_rtu_send_packet`. -/
def modbusRtuSendPacket (mbt : EmbRtu) (slaveAddr : ℤ) (pdu : EmbPdu)
    (wrote : List Byte → ℤ × BitVec 32) : ℤ × EmbRtu × List RtuOut :=
  if pdu.dataSize.toNat + 4 ≤ mbt.txBufSize.toNat then
    let mbt := { mbt with
      txBuffer := buildPacket mbt slaveAddr pdu
      txPktSize := BitVec.ofNat 32 (pdu.dataSize.toNat + 2 + 2)
      txBufCounter := 0 }
    (0, embRtuPortEvent mbt (.txBufEmpty wrote))
  else (-modbusBufferOverflow, mbt, [])

/-- The loop of `emb_rtu_send_packet_sync` with these results of its writes; `none` unless it ends
after them. -/
def rtuSyncLoop (mbt : EmbRtu) :
    List (List Byte → ℤ × BitVec 32) → Option (EmbRtu × List RtuOut)
  | [] => if mbt.txBufCounter < mbt.txPktSize then none else some (mbt, [])
  | wrote :: writes =>
    if mbt.txBufCounter < mbt.txPktSize then
      let r := embRtuPortEvent mbt (.txBufEmpty wrote)
      (rtuSyncLoop r.1 writes).map fun s => (s.1, r.2 ++ s.2)
    else none

/-- `emb_rtu_send_packet_sync`; the results of its writes are `first` and `writes`. -/
def embRtuSendPacketSync (mbt : EmbRtu) (slaveAddr : ℤ) (pdu : EmbPdu)
    (first : List Byte → ℤ × BitVec 32) (writes : List (List Byte → ℤ × BitVec 32)) :
    Option (ℤ × EmbRtu × List RtuOut) :=
  let r := modbusRtuSendPacket mbt slaveAddr pdu first
  if r.1 = 0 then (rtuSyncLoop r.2.1 writes).map fun s => (0, s.1, r.2.2 ++ s.2)
  else some r

/-- `emb_rtu_has_data_to_send`. -/
def embRtuHasDataToSend : Option EmbRtu → ℤ
  | none => -einval
  | some mbt => if 0 < mbt.txPktSize ∧ mbt.txBufCounter < mbt.txPktSize then 1 else 0

/-- `emb_rtu_initialize`. -/
def embRtuInitialize (mbt : EmbRtu) : EmbRtu :=
  { mbt with rxBufCounter := 0, txBufCounter := 0, txPktSize := 0 }

/-- `emb_rtu_on_char_timeout`. -/
def embRtuOnCharTimeout (mbt : EmbRtu) : EmbRtu × List RtuOut :=
  let r := rtuParsePacket mbt
  ({ r.1 with rxBufCounter := 0 }, r.2)

/-- `emd_rtu_reset_rx`. -/
def emdRtuResetRx (mbt : EmbRtu) : EmbRtu := { mbt with rxBufCounter := 0 }

/-- `emd_rtu_reset_tx`. -/
def emdRtuResetTx (mbt : EmbRtu) : EmbRtu := { mbt with txBufCounter := 0, txPktSize := 0 }

/-! ## Runs -/

inductive RtuInput
  | event (e : RtuPortEvent)
  | charTimeout

def rtuStep (mbt : EmbRtu) : RtuInput → EmbRtu × List RtuOut
  | .event e => embRtuPortEvent mbt e
  | .charTimeout => embRtuOnCharTimeout mbt

def RtuOut.upcalls : List RtuOut → List Upcall
  | [] => []
  | .upcall u :: os => u :: upcalls os
  | _ :: os => upcalls os

/-- The events of a receiver that gets these pieces one after the other. -/
def rtuArrivals (chunks : List (List Byte)) : List RtuInput :=
  chunks.map fun c => .event (.dataReceived (.upTo c))

/-- A receiver gets these pieces and then hears nothing: its state, and what it told the high
level. -/
def rtuReceive (mbt : EmbRtu) (chunks : List (List Byte)) : EmbRtu × List Upcall :=
  let r := Mealy.run rtuStep mbt (rtuArrivals chunks ++ [.charTimeout])
  (r.1, r.2.flatMap RtuOut.upcalls)

/-- What `modbus_rtu_send_packet` leaves at the front of `tx_buffer`. -/
def rtuSent (mbt : EmbRtu) (slaveAddr : ℤ) (pdu : EmbPdu)
    (wrote : List Byte → ℤ × BitVec 32) : List Byte :=
  Mem.slice (modbusRtuSendPacket mbt slaveAddr pdu wrote).2.1.txBuffer 0 (pdu.dataSize.toNat + 4)

end Emodbus
