import Emodbus.Rtu

/-!
# The CRC without a table

`transport/add/simple-crc.c`, the other function `EMB_RTU_CRC_FUNCTION` may be set to, and the two
places of `transport/rtu.c` that use the macro, with what it is set to as a parameter.
-/

namespace Emodbus

open Octets

/-- One turn of the inner loop of `simple_crc16`. -/
def simpleCrcShift (crc : Word) : Word :=
  if crc &&& 0x0001 ≠ 0 then (crc >>> 1) ^^^ 0xA001 else crc >>> 1

/-- One turn of the outer loop of `simple_crc16`. -/
def simpleCrcStep (crc : Word) (data : Byte) : Word :=
  simpleCrcShift^[8] (crc ^^^ data.setWidth 16)

/-- `simple_crc16`. -/
def simpleCrc16 (buf : Mem Byte) (len : BitVec 32) : Word :=
  (Mem.slice buf 0 len.toNat).foldl simpleCrcStep 0xFFFF

/-! ## EMB_RTU_CRC_FUNCTION -/

/-- `crc16(_buf_, _size_)`, for an `int` size. -/
def crcFunction (buf : Mem Byte) (size : ℤ) : Word := crc16 buf (BitVec.ofInt 16 size)

/-- `simple_crc16(_buf_, _size_)`, for an `int` size. -/
def simpleCrcFunction (buf : Mem Byte) (size : ℤ) : Word := simpleCrc16 buf (BitVec.ofInt 32 size)

/-- `parse_packet`. -/
def rtuParsePacketWith (crcFunction : Mem Byte → ℤ → Word) (mbt : EmbRtu) :
    EmbRtu × List RtuOut :=
  let buf := mbt.rxBuffer
  let size : ℤ := (mbt.rxBufCounter - 2).toInt
  if 2 ≤ size then
    let crc1 := crcFunction buf size
    let crc2 := mkWord (buf size.toNat) (buf (size.toNat + 1))
    if crc1 ≠ crc2 then (mbt, [.upcall (.error (-modbusBadCrc))])
    else
      match mbt.transport.rxPdu with
      | none => (mbt, [])
      | some rxPdu =>
        let dataSz := size.toNat - 2
        if rxPdu.maxSize.toNat < dataSz then (mbt, [.upcall (.error (-modbusRespBufferOvf))])
        else
          let rxPdu := { rxPdu with
            function := buf 1
            dataSize := BitVec.ofInt 8 (size - 2)
            data := Mem.copy rxPdu.data (Mem.shift buf 2) dataSz }
          ({ mbt with transport.rxPdu := some rxPdu },
            [.upcall (.recvPacket (buf 0).toNat rxPdu)])
  else (mbt, [])

/-- The packet `modbus_rtu_send_packet` puts into `tx_buffer`. -/
def buildPacketWith (crcFunction : Mem Byte → ℤ → Word) (mbt : EmbRtu) (slaveAddr : ℤ)
    (pdu : EmbPdu) : Mem Byte :=
  let sz := pdu.dataSize.toNat + 2
  let tx := Mem.blit mbt.txBuffer 0 [BitVec.ofInt 8 slaveAddr]
  let tx := Mem.blit tx 1 [pdu.function]
  let tx := Mem.blit tx 2 pdu.bytes
  litEndMk16 tx sz (crcFunction tx (sz : ℕ))

theorem rtuParsePacket_eq_with (mbt : EmbRtu) :
    rtuParsePacket mbt = rtuParsePacketWith crcFunction mbt := rfl

theorem buildPacket_eq_with (mbt : EmbRtu) (slaveAddr : ℤ) (pdu : EmbPdu) :
    buildPacket mbt slaveAddr pdu = buildPacketWith crcFunction mbt slaveAddr pdu := by
  unfold buildPacket buildPacketWith crcFunction
  dsimp only
  rw [BitVec.ofInt_natCast]

end Emodbus
