import Emodbus.Proofs.TcpSender
import Emodbus.Proofs.TcpStream
import Emodbus.TcpPair

/-!
# One direction of a connection

A receiver has nothing before it, or the rest of one frame (`Expects`).  A data event leaves it so,
or it completes the frame and hands it up as the PDU that was sent.  Every event that finds unread
bytes and may read some brings the end of the frame nearer.
-/

namespace Emodbus

open Octets

variable {ι : Type}

/-- What lies before a receiver: nothing, or the rest of a frame. -/
def EmbTcp.Expects (t : EmbTcp ι) (unread : List Byte) : Option TcpFrame → Prop
  | none => t.rxPktCounter = 0 ∧ t.currRxLength ≤ 0 ∧ unread = []
  | some f => ∃ n, t.Partway f n ∧ unread = f.bytes.drop n

/-- A frame of one byte. -/
def TcpFrame.least : TcpFrame := ⟨0, 0, 0, 0, [0], le_rfl, one_byte_fits⟩

theorem EmbTcp.Expects.congr {t t' : EmbTcp ι} {unread : List Byte} {next : Option TcpFrame}
    (h : t.Expects unread next) (hs : SameRx t' t) : t'.Expects unread next := by
  cases next with
  | none => exact ⟨hs.counter.trans h.1, hs.curr.trans_le h.2.1, h.2.2⟩
  | some f =>
    obtain ⟨n, hpart, hunread⟩ := h
    exact ⟨n, hpart.congr hs, hunread⟩

/-- A receiver with nothing before it expects whatever is sent. -/
theorem EmbTcp.Expects.sent {t : EmbTcp ι} {unread : List Byte} (h : t.Expects unread none)
    (f : TcpFrame) : t.Expects (unread ++ f.bytes) (some f) :=
  ⟨0, .start h.1 h.2.1 f, by rw [h.2.2]; rfl⟩

/-! ## A data event -/

section Event

variable {t : EmbTcp ι} {f : TcpFrame} {n : ℕ} {unread : List Byte}

/-- The event reads a part of the frame. -/
theorem readBytes_of_prefix (h : t.Partway f n) (hpre : unread <+: f.bytes.drop n)
    (client : Option ι) (atMost : ℕ) :
    let m := TcpPair.readBytes t client unread atMost
    m = min t.toBeRead.toNat (min atMost unread.length)
      ∧ (unread.take atMost).take t.toBeRead.toNat = (f.bytes.drop n).take m
      ∧ n + m ≤ f.bytes.length := by
  have hlt := h.lt
  have hasked := (tcpStep_partway h client (unread.take atMost)).2.2
  have hm : TcpPair.readBytes t client unread atMost
      = min t.toBeRead.toNat (min atMost unread.length) := by
    unfold TcpPair.readBytes
    rw [hasked, List.length_take, List.length_take]
  have hlen := hpre.length_le
  rw [List.length_drop] at hlen
  obtain ⟨rest, hrest⟩ := hpre
  refine ⟨hm, ?_, by omega⟩
  rw [hm, ← hrest, List.take_append_of_le_length (by omega), List.take_take]
  rw [List.take_eq_take_iff]
  omega

/-- The event brings the end of the frame nearer if it can. -/
theorem todo_event (h : t.Partway f n) (hpre : unread <+: f.bytes.drop n) (client : Option ι)
    (atMost : ℕ) :
    (if unread ≠ [] ∧ atMost ≠ 0 then 1 else 0)
        + TcpSession.todo
          ⟨(tcpStep t (.event client (.dataReceived (.upTo (unread.take atMost))))).1,
            unread.drop (TcpPair.readBytes t client unread atMost)⟩
      ≤ TcpSession.todo ⟨t, unread⟩ := by
  obtain ⟨hm, hbytes, hle⟩ := readBytes_of_prefix h hpre client atMost
  set m := TcpPair.readBytes t client unread atMost
  have hlt := h.lt
  have hb := f.length_bytes_bounds
  unfold TcpSession.todo
  dsimp only
  rw [List.length_drop]
  rcases Nat.eq_zero_or_pos m with h0 | hpos
  · -- nothing is read: either there is nothing to read, or nothing was asked for
    rw [h0] at hbytes hle
    have hcurr : (tcpStep t (.event client
        (.dataReceived (.upTo (unread.take atMost))))).1.currRxLength ≠ 0 := by
      rcases tcpStep_within h client hbytes hle with ⟨-, hnext, -⟩ | ⟨hwhole, -⟩
      · rcases Nat.eq_zero_or_pos n with rfl | hn
        · rw [tcpStep_nothing h client (hbytes.trans (List.take_zero))]
          simp
        · have hshort := hnext.curr_short
          have hrest := hnext.curr_rest
          omega
      · omega
    have hread := h.toBeRead_eq
    simp only [embTcpRxBufSize, embTcpMbapSize] at hread
    rw [if_neg hcurr, h0]
    split_ifs with hbusy hzero hzero
    · omega
    · have hpos := List.length_pos_of_ne_nil hbusy.1
      split_ifs at hread <;> omega
    · omega
    · omega
  · split_ifs <;> omega

/-- The event brings a part of what is expected, or the rest of it. -/
theorem EmbTcp.Expects.event {next : Option TcpFrame} (h : t.Expects unread next)
    (client : Option ι) (atMost : ℕ) :
    let r := tcpStep t (.event client (.dataReceived (.upTo (unread.take atMost))))
    let left := unread.drop (TcpPair.readBytes t client unread atMost)
    (if unread ≠ [] ∧ atMost ≠ 0 then 1 else 0) + TcpSession.todo ⟨r.1, left⟩
        ≤ TcpSession.todo ⟨t, unread⟩
      ∧ ((r.1.Expects left next ∧ TcpOut.upcalls r.2 = [] ∧ ∃ buf count curr, r.1 = { t with
            tcpClientId := client, rxBuf := buf, rxPktCounter := count, currRxLength := curr })
        ∨ ∃ f, next = some f ∧ left = [] ∧ ∀ p, t.transport.rxPdu = some p →
          f.data.length ≤ p.maxSize.toNat →
          t.transport.isServer ∨ EmbTcp.transactId t.txBuf = f.transactId.swap →
          ∃ buf curr, curr ≤ 0 ∧ Mem.slice buf 0 f.bytes.length = f.bytes
            ∧ r.1 = { t with
                tcpClientId := client, rxBuf := buf, rxPktCounter := 0, currRxLength := curr,
                transport.rxPdu := some (f.copiedTo buf p) }
            ∧ TcpOut.upcalls r.2 = [.recvPacket f.unitId.toNat (f.copiedTo buf p)]) := by
  cases next with
  | none =>
    obtain ⟨hcount, hcurr, rfl⟩ := h
    have hpart : t.Partway .least 0 := .start hcount hcurr _
    obtain ⟨hm, hbytes, hle⟩ := readBytes_of_prefix hpart List.nil_prefix client atMost
    rw [List.length_nil, Nat.min_zero, Nat.min_zero] at hm
    refine ⟨todo_event hpart List.nil_prefix client atMost, .inl ?_⟩
    rw [hm] at hbytes hle
    rcases tcpStep_within hpart client hbytes hle with ⟨-, hnext, hups, buf, curr, heq⟩ | ⟨hw, -⟩
    · exact ⟨⟨hnext.counter, hnext.curr_start rfl, List.drop_nil⟩, hups, buf, _, curr, heq⟩
    · exact absurd hw hpart.lt.ne
  | some f =>
    obtain ⟨n, hpart, rfl⟩ := h
    obtain ⟨-, hbytes, hle⟩ := readBytes_of_prefix hpart List.prefix_rfl client atMost
    refine ⟨todo_event hpart List.prefix_rfl client atMost, ?_⟩
    rcases tcpStep_within hpart client hbytes hle with
      ⟨-, hnext, hups, buf, curr, heq⟩ | ⟨hwhole, hrest⟩
    · exact .inl ⟨⟨_, hnext, List.drop_drop⟩, hups, buf, _, curr, heq⟩
    · refine .inr ⟨f, rfl, ?_, hrest⟩
      rw [List.drop_drop]
      exact List.drop_eq_nil_of_le hwhole.ge

end Event

/-! ## The PDU that was sent -/

/-- What is handed up is what was sent, in the receiver's buffer. -/
theorem copiedTo_eq_receive {f : TcpFrame} {id : Word} {addr : ℤ} {pdu : EmbPdu}
    (h : f.Packs id addr pdu) {buf : Mem Byte} (hbuf : Mem.slice buf 0 f.bytes.length = f.bytes)
    (p : EmbPdu) : f.copiedTo buf p = p.receive pdu := by
  have hlen : f.data.length = pdu.dataSize.toNat := by rw [h.data, EmbPdu.length_bytes]
  have hslice : Mem.slice buf 8 pdu.dataSize.toNat = Mem.slice pdu.data 0 pdu.dataSize.toNat := by
    have hdata := data_of_slice hbuf
    rw [hlen] at hdata
    exact hdata.trans h.data
  unfold TcpFrame.copiedTo EmbPdu.receive
  rw [h.function, hlen]
  congr 1
  · simp
  · funext i
    unfold Mem.copy
    split_ifs with hi
    · exact (Mem.eq_of_slice_eq hslice hi).trans (by rw [Nat.zero_add])
    · rfl

end Emodbus
