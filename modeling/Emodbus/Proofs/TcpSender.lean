import Emodbus.Proofs.TcpReceiver
import Emodbus.TcpServer

/-!
# What is sent

`modbus_tcp_send_packet` builds the frame piece by piece (`slice_buildFrame`), offers it to the
port whole, and leaves the receiver alone.
-/

namespace Emodbus

open Octets

variable {ι : Type}

/-- The transaction id of the packet sent next, as a number: a server repeats that of the request,
a client counts. -/
def EmbTcp.outId (t : EmbTcp ι) : Word :=
  if t.transport.isServer then (EmbTcp.transactId t.rxBuf).swap
  else (EmbTcp.transactId t.txBuf).swap + 1

theorem slice_buildFrame (t : EmbTcp ι) (addr : ℤ) (pdu : EmbPdu) :
    Mem.slice (buildFrame t addr pdu) 0 (8 + pdu.dataSize.toNat)
      = Mem.be [t.outId, 0, pdu.dataSize.setWidth 16 + 2]
        ++ [BitVec.ofInt 8 addr, pdu.function] ++ pdu.bytes := by
  have hid : (if t.transport.isServer then storeWord t.txBuf 0 (EmbTcp.transactId t.rxBuf)
      else storeWord t.txBuf 0 (swapBytes (swapBytes (EmbTcp.transactId t.txBuf) + 1)))
      = Mem.blit t.txBuf 0 (Mem.be [t.outId]) := by
    unfold EmbTcp.outId
    split_ifs with hs
    · rw [← storeWord_swapBytes, swapBytes_eq, Word.swap_swap]
    · rw [storeWord_swapBytes, swapBytes_eq]
  unfold buildFrame
  dsimp only
  rw [hid, storeWord_swapBytes, storeWord_swapBytes, embTcpMbapSize]
  have h2 : Mem.slice (Mem.blit t.txBuf 0 (Mem.be [t.outId])) 0 2 = Mem.be [t.outId] :=
    Mem.slice_blit t.txBuf 0 (Mem.be [t.outId])
  have h4 := Mem.slice_blit_append _ (Mem.be [0]) h2 (n := 4) rfl
  have h6 := Mem.slice_blit_append _ (Mem.be [pdu.dataSize.setWidth 16 + 2]) h4 (n := 6) rfl
  have h7 := Mem.slice_blit_append _ [BitVec.ofInt 8 addr] h6 (n := 7) rfl
  have h8 := Mem.slice_blit_append _ [pdu.function] h7 (n := 8) rfl
  have hall := Mem.slice_blit_append _ pdu.bytes h8 (n := 8 + pdu.dataSize.toNat) (by simp)
  rw [hall]
  rfl

/-- The bytes of the packet sent next. -/
def EmbTcp.outBytes (t : EmbTcp ι) (addr : ℤ) (pdu : EmbPdu) : List Byte :=
  Mem.be [t.outId, 0, pdu.dataSize.setWidth 16 + 2] ++ [BitVec.ofInt 8 addr, pdu.function]
    ++ pdu.bytes

/-- A PDU that is not too long is offered to the port as one frame. -/
theorem sendPacket_eq (t : EmbTcp ι) (addr : ℤ) {pdu : EmbPdu} (wrote : List Byte → ℤ)
    (hfit : pdu.dataSize.toNat ≤ maxPduDataSize) :
    ∃ c, modbusTcpSendPacket t addr pdu wrote
      = (0, { t with
          txBuf := buildFrame t addr pdu
          txPktSize := pdu.dataSize.toNat + 2 + 6
          txPktCounter := c }, [.writeToPort t.tcpClientId (t.outBytes addr pdu)]) := by
  have hsize : pdu.dataSize.toNat + 2 + 6 - 0 = 8 + pdu.dataSize.toNat := by omega
  have hoffered : Mem.slice (buildFrame t addr pdu) 0 (pdu.dataSize.toNat + 2 + 6 - 0)
      = t.outBytes addr pdu := by
    rw [hsize, slice_buildFrame]
    rfl
  unfold modbusTcpSendPacket embTcpPortEvent
  rw [if_pos hfit]
  dsimp only
  rw [hoffered]
  split_ifs
  · exact ⟨_, rfl⟩
  · exact ⟨0, rfl⟩

/-- Sending leaves the receiver, the PDU for packets and the connection alone. -/
theorem sendPacket_same (t : EmbTcp ι) (addr : ℤ) (pdu : EmbPdu) (wrote : List Byte → ℤ) :
    SameRx (modbusTcpSendPacket t addr pdu wrote).2.1 t
      ∧ (modbusTcpSendPacket t addr pdu wrote).2.1.transport = t.transport
      ∧ (modbusTcpSendPacket t addr pdu wrote).2.1.tcpClientId = t.tcpClientId := by
  by_cases hfit : pdu.dataSize.toNat ≤ maxPduDataSize
  · obtain ⟨c, heq⟩ := sendPacket_eq t addr wrote hfit
    rw [heq]
    exact ⟨⟨rfl, rfl, rfl⟩, rfl, rfl⟩
  · unfold modbusTcpSendPacket
    rw [if_neg hfit]
    exact ⟨⟨rfl, rfl, rfl⟩, rfl, rfl⟩

theorem sendAll_same (wrote : List Byte → ℤ) (t : EmbTcp ι) (ps : List (ℤ × EmbPdu)) :
    SameRx (SrvNode.sendAll wrote t ps).1 t
      ∧ (SrvNode.sendAll wrote t ps).1.transport = t.transport
      ∧ (SrvNode.sendAll wrote t ps).1.tcpClientId = t.tcpClientId := by
  induction ps generalizing t with
  | nil => exact ⟨⟨rfl, rfl, rfl⟩, rfl, rfl⟩
  | cons p ps ih =>
    obtain ⟨hsame, htransport, hclient⟩ := sendPacket_same t p.1 p.2 wrote
    obtain ⟨hrest, htransport', hclient'⟩ := ih (modbusTcpSendPacket t p.1 p.2 wrote).2.1
    exact ⟨⟨hrest.counter.trans hsame.counter, hrest.buf.trans hsame.buf,
      hrest.curr.trans hsame.curr⟩, htransport'.trans htransport, hclient'.trans hclient⟩

/-- The frame is this PDU, sent to this address under this transaction id. -/
structure TcpFrame.Packs (f : TcpFrame) (id : Word) (addr : ℤ) (pdu : EmbPdu) : Prop where
  transactId : f.transactId = id
  unitId : f.unitId = BitVec.ofInt 8 addr
  function : f.function = pdu.function
  data : f.data = pdu.bytes

/-- A PDU with 1 to 253 bytes goes out as a frame, whose transaction id is then in `tx_buf`. -/
theorem sendPacket_frame (t : EmbTcp ι) (addr : ℤ) {pdu : EmbPdu} (wrote : List Byte → ℤ)
    (h1 : 1 ≤ pdu.dataSize.toNat) (hfit : pdu.dataSize.toNat ≤ maxPduDataSize) :
    ∃ f : TcpFrame, f.Packs t.outId addr pdu ∧ ∃ c buf, EmbTcp.transactId buf = t.outId.swap
      ∧ modbusTcpSendPacket t addr pdu wrote
        = (0, { t with txBuf := buf, txPktSize := pdu.dataSize.toNat + 2 + 6, txPktCounter := c },
            [.writeToPort t.tcpClientId f.bytes]) := by
  obtain ⟨c, heq⟩ := sendPacket_eq t addr wrote hfit
  set f : TcpFrame := ⟨t.outId, 0, BitVec.ofInt 8 addr, pdu.function, pdu.bytes,
    by rw [EmbPdu.length_bytes]; exact h1, by rw [EmbPdu.length_bytes]; exact hfit⟩ with hf
  have hlen : BitVec.ofNat 16 (pdu.bytes.length + 2) = pdu.dataSize.setWidth 16 + 2 := by
    rw [EmbPdu.length_bytes, BitVec.ofNat_add, BitVec.ofNat_toNat]
    rfl
  have hbytes : f.bytes = t.outBytes addr pdu := by
    unfold TcpFrame.bytes TcpFrame.header EmbTcp.outBytes
    rw [← hlen]
  have hslice : Mem.slice (buildFrame t addr pdu) 0 (8 + pdu.dataSize.toNat)
      = f.bytes.take (8 + pdu.dataSize.toNat) := by
    rw [List.take_of_length_le (by rw [TcpFrame.length_bytes, EmbPdu.length_bytes]), hbytes]
    exact slice_buildFrame t addr pdu
  have hid := transactId_of_slice hslice (Nat.le_add_right_of_le (by simp))
  exact ⟨f, ⟨rfl, rfl, rfl, rfl⟩, c, buildFrame t addr pdu, hid, by rw [heq, hbytes]⟩

end Emodbus
