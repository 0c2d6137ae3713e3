import Emodbus.Transport

/-!
# The Modbus-TCP transport

`transport/tcp.c`.  The port is the environment: what `read_from_port` hands over and what
`write_to_port` returns come with the event, and every call made to the port, to `memcpy` for the
payload and to the high level is put out as a `TcpOut`.

The counters stay below 264 and `curr_rx_length` below 65542, so the unsigned subtractions and
their conversions to `int` do not wrap and are the integers' own.
-/

namespace Emodbus

open Octets

variable {ι : Type}

def embTcpMbapSize : ℕ := 7
def embTcpRxBufSize : ℕ := 256 + embTcpMbapSize

/-- `struct emb_tcp_t`; a client id is `NULL` or some connection. -/
structure EmbTcp (ι : Type) where
  rxPktCounter : ℕ
  rxBuf : Mem Byte
  txPktSize : ℕ
  txPktCounter : ℕ
  txBuf : Mem Byte
  transport : EmbTransport
  tcpClientId : Option ι
  currRxLength : ℤ

/-- One payload `memcpy`: its length, the PDU it goes to, and what the receiver has. -/
structure PayloadCopy where
  length : ℤ
  dataSize : Byte
  maxSize : Byte
  mbapLength : Word
  counter : ℕ

inductive TcpOut (ι : Type)
  /-- `read_from_port(rx_buf + start, size)` -/
  | readFromPort (start size : ℕ)
  /-- `write_to_port(offered)`, for the connection in `tcp_client_id` -/
  | writeToPort (client : Option ι) (offered : List Byte)
  | memcpy (copy : PayloadCopy)
  | upcall (u : Upcall)

inductive TcpPortEvent
  | dataReceived (port : PortRead)
  /-- `wrote bs` is what the port returns when offered `bs`. -/
  | txBufEmpty (wrote : List Byte → ℤ)
  | lastRxTimeout

namespace EmbTcp

/-- `mbap->transact_id`, as the host reads it. -/
def transactId (buf : Mem Byte) : Word := Mem.leWord buf 0

/-- `mbap->length`, as the host reads it. -/
def mbapLength (buf : Mem Byte) : Word := Mem.leWord buf 4

/-- `mbap->unit_id`. -/
def unitId (buf : Mem Byte) : Byte := buf 6

end EmbTcp

open EmbTcp

/-- The `do { .. } while(0)` of `parse_packet`: what is done with a packet that is all there. -/
def acceptPacket (mbt : EmbTcp ι) (pktLength : Word) : EmbTcp ι × List (TcpOut ι) :=
  if !mbt.transport.isServer ∧ transactId mbt.txBuf ≠ transactId mbt.rxBuf then
    (mbt, [.upcall (.error (-modbusRespWrongTransactionId))])
  else
    match mbt.transport.rxPdu with
    | none => (mbt, [])
    | some rxPdu =>
      let pktDataLength : ℤ := pktLength.toNat - 1
      if rxPdu.maxSize.toNat < pktDataLength then
        (mbt, [.upcall (.error (-modbusRespBufferOvf))])
      else
        let rxPdu := { rxPdu with
          function := mbt.rxBuf embTcpMbapSize
          dataSize := BitVec.ofInt 8 pktDataLength
          data := Mem.copy rxPdu.data (Mem.shift mbt.rxBuf (embTcpMbapSize + 1))
            (sizeT pktDataLength) }
        ({ mbt with transport.rxPdu := some rxPdu },
          [.memcpy ⟨pktDataLength, rxPdu.dataSize, rxPdu.maxSize,
              swapBytes (mbapLength mbt.rxBuf), mbt.rxPktCounter⟩,
            .upcall (.recvPacket (unitId mbt.rxBuf).toNat rxPdu)])

/-- `parse_packet`, with the value it returns. -/
def parsePacket (mbt : EmbTcp ι) : EmbTcp ι × List (TcpOut ι) × Bool :=
  let mbt := { mbt with currRxLength := -1 }
  if embTcpMbapSize + 2 ≤ mbt.rxPktCounter then
    let pktLength : Word := swapBytes (mbapLength mbt.rxBuf) - 1
    let mbt := { mbt with
      currRxLength := (embTcpMbapSize + pktLength.toNat : ℕ) - (mbt.rxPktCounter : ℤ) }
    if 0 < mbt.currRxLength then (mbt, [], false)
    else
      let r := acceptPacket mbt pktLength
      (r.1, r.2, true)
  else (mbt, [], false)

/-- The bytes a read handed over, behind those received before. -/
def EmbTcp.received (mbt : EmbTcp ι) (bytes : List Byte) : EmbTcp ι :=
  { mbt with
    rxBuf := Mem.blit mbt.rxBuf mbt.rxPktCounter bytes
    rxPktCounter := mbt.rxPktCounter + bytes.length }

/-- What `emb_tcp_port_event` does once the bytes are in the buffer. -/
def takeIn (mbt : EmbTcp ι) : EmbTcp ι × List (TcpOut ι) :=
  let r := parsePacket mbt
  if r.2.2 ∨ embTcpRxBufSize = r.1.rxPktCounter then ({ r.1 with rxPktCounter := 0 }, r.2.1)
  else (r.1, r.2.1)

/-- `emb_tcp_port_event`. -/
def embTcpPortEvent (mbt : EmbTcp ι) (clientId : Option ι) :
    TcpPortEvent → EmbTcp ι × List (TcpOut ι)
  | .dataReceived port =>
    let mbt := { mbt with tcpClientId := clientId }
    let toBeRead : ℤ := embTcpRxBufSize - mbt.rxPktCounter
    if toBeRead < mbt.currRxLength then ({ mbt with rxPktCounter := 0 }, [])
    else
      let toBeRead := if mbt.currRxLength ≥ 0 then mbt.currRxLength else toBeRead
      if toBeRead ≠ 0 then
        match port.read toBeRead.toNat with
        | none => (mbt, [.readFromPort mbt.rxPktCounter toBeRead.toNat])
        | some bytes =>
          let r := takeIn (mbt.received bytes)
          (r.1, .readFromPort mbt.rxPktCounter toBeRead.toNat :: r.2)
      else takeIn (mbt.received [])
  | .txBufEmpty wrote =>
    let mbt := { mbt with tcpClientId := clientId }
    let offered := Mem.slice mbt.txBuf mbt.txPktCounter (mbt.txPktSize - mbt.txPktCounter)
    let result := wrote offered
    if result > 0 then
      ({ mbt with txPktCounter := mbt.txPktCounter + result.toNat },
        [.writeToPort mbt.tcpClientId offered])
    else (mbt, [.writeToPort mbt.tcpClientId offered])
  | .lastRxTimeout =>
    ({ mbt with tcpClientId := clientId, currRxLength := -1, rxPktCounter := 0 }, [])

/-- The frame `modbus_tcp_send_packet` puts into `tx_buf`. -/
def buildFrame (mbt : EmbTcp ι) (slaveAddr : ℤ) (pdu : EmbPdu) : Mem Byte :=
  let length : Word := pdu.dataSize.setWidth 16 + 2
  let tx := if mbt.transport.isServer then storeWord mbt.txBuf 0 (transactId mbt.rxBuf)
    else storeWord mbt.txBuf 0 (swapBytes (swapBytes (transactId mbt.txBuf) + 1))
  let tx := storeWord tx 2 (swapBytes 0)
  let tx := storeWord tx 4 (swapBytes length)
  let tx := Mem.blit tx 6 [BitVec.ofInt 8 slaveAddr]
  let tx := Mem.blit tx embTcpMbapSize [pdu.function]
  Mem.blit tx (embTcpMbapSize + 1) pdu.bytes

/-- `modbus_tcp_send_packet`; the write it makes to the port is for the connection in
`tcp_client_id`. -/
def modbusTcpSendPacket (mbt : EmbTcp ι) (slaveAddr : ℤ) (pdu : EmbPdu)
    (wrote : List Byte → ℤ) : ℤ × EmbTcp ι × List (TcpOut ι) :=
  if pdu.dataSize.toNat ≤ maxPduDataSize then
    let mbt := { mbt with
      txBuf := buildFrame mbt slaveAddr pdu
      txPktSize := pdu.dataSize.toNat + 2 + 6
      txPktCounter := 0 }
    (0, embTcpPortEvent mbt mbt.tcpClientId (.txBufEmpty wrote))
  else (-modbusBufferOverflow, mbt, [])

/-- `emb_tcp_initialize`. -/
def embTcpInitialize (mbt : EmbTcp ι) : EmbTcp ι :=
  { mbt with txBuf := storeWord mbt.txBuf 0 (swapBytes 0), currRxLength := -1 }

/-- A context with all bytes zero, connected to a high level. -/
def EmbTcp.zeroed (ι : Type) (transport : EmbTransport) : EmbTcp ι where
  rxPktCounter := 0
  rxBuf := fun _ => 0
  txPktSize := 0
  txPktCounter := 0
  txBuf := fun _ => 0
  transport := transport
  tcpClientId := none
  currRxLength := 0

end Emodbus
