import Emodbus.Proofs.TcpSafety
import Emodbus.RtuRun

/-!
# The receive buffers

A receiver asks for the room left behind its counter, and the port hands over no more than it was
asked for.  On TCP the room is asked for through `curr_rx_length`, so there `RxInv` goes along:
nothing outstanding means nothing received.
-/

namespace Emodbus

open Octets Mealy

/-! ## RTU -/

theorem rtuParsePacket_rxBufSize (mbt : EmbRtu) :
    (rtuParsePacket mbt).1.rxBufSize = mbt.rxBufSize := by
  unfold rtuParsePacket
  dsimp only
  split_ifs
  · rfl
  · split
    · rfl
    · split_ifs <;> rfl
  · rfl

theorem rtuParsePacket_reads (mbt : EmbRtu) (n : ℕ) :
    ∀ o ∈ (rtuParsePacket mbt).2, o.ReadsWithin n := by
  unfold rtuParsePacket
  dsimp only
  split_ifs
  · simp [RtuOut.ReadsWithin]
  · split
    · simp
    · split_ifs <;> simp [RtuOut.ReadsWithin]
  · simp

/-- The receiver's fields between two calls. -/
structure RtuRxInv (bufSize : BitVec 32) (s : EmbRtu) : Prop where
  size : s.rxBufSize = bufSize
  counter_le : s.rxBufCounter.toNat ≤ bufSize.toNat

theorem RtuRxInv.dataReceived {bufSize : BitVec 32} {s : EmbRtu} (h : RtuRxInv bufSize s)
    (port : PortRead) :
    RtuRxInv bufSize (embRtuPortEvent s (.dataReceived port)).1
      ∧ ∀ o ∈ (embRtuPortEvent s (.dataReceived port)).2, o.ReadsWithin bufSize.toNat := by
  obtain ⟨hsize, hle⟩ := h
  have hlt := bufSize.isLt
  have hroom : (s.rxBufSize - s.rxBufCounter).toNat = bufSize.toNat - s.rxBufCounter.toNat := by
    rw [hsize, BitVec.toNat_sub]
    omega
  have hread : s.rxBufCounter.toNat + (s.rxBufSize - s.rxBufCounter).toNat ≤ bufSize.toNat := by
    omega
  unfold embRtuPortEvent
  dsimp only
  split
  · rename_i b bs hb
    have hlen := port.length_le hb
    refine ⟨⟨hsize, ?_⟩, by simpa [RtuOut.ReadsWithin] using hread⟩
    dsimp only
    rw [BitVec.toNat_add, BitVec.toNat_ofNat]
    omega
  · refine ⟨⟨hsize, ?_⟩, by simpa [RtuOut.ReadsWithin] using hread⟩
    simp

theorem RtuRxInv.step {bufSize : BitVec 32} {s : EmbRtu} (h : RtuRxInv bufSize s) (c : RtuCall) :
    RtuRxInv bufSize (rtuCallStep s c).1
      ∧ ∀ o ∈ (rtuCallStep s c).2, o.ReadsWithin bufSize.toNat := by
  cases c with
  | input i =>
    cases i with
    | event e =>
      cases e with
      | dataReceived port => exact h.dataReceived port
      | txBufEmpty wrote =>
        simp only [rtuCallStep, rtuStep, embRtuPortEvent]
        split_ifs
        · exact ⟨⟨h.size, h.counter_le⟩, by simp [RtuOut.ReadsWithin]⟩
        · exact ⟨⟨h.size, h.counter_le⟩, by simp [RtuOut.ReadsWithin]⟩
    | charTimeout =>
      refine ⟨⟨?_, ?_⟩, rtuParsePacket_reads s _⟩
      · exact (rtuParsePacket_rxBufSize s).trans h.size
      · simp [rtuCallStep, rtuStep, embRtuOnCharTimeout]
  | resetRx =>
    refine ⟨⟨h.size, ?_⟩, by simp [rtuCallStep]⟩
    simp [rtuCallStep, emdRtuResetRx]
  | resetTx => exact ⟨⟨h.size, h.counter_le⟩, by simp [rtuCallStep]⟩
  | high f =>
    have hsame := f.sameRx s
    refine ⟨⟨?_, ?_⟩, by simp [rtuCallStep]⟩
    · exact hsame.size.trans h.size
    · simp only [rtuCallStep]
      rw [hsame.counter]
      exact h.counter_le

/-! ## TCP -/

section Tcp

variable {ι : Type}

theorem acceptPacket_reads (t : EmbTcp ι) (pktLength : Word) (n : ℕ) :
    ∀ o ∈ (acceptPacket t pktLength).2, o.ReadsWithin n := by
  unfold acceptPacket
  split_ifs
  · simp [TcpOut.ReadsWithin]
  · split
    · simp
    · dsimp only
      split_ifs <;> simp [TcpOut.ReadsWithin]

theorem takeIn_reads (t : EmbTcp ι) (n : ℕ) : ∀ o ∈ (takeIn t).2, o.ReadsWithin n := by
  rw [takeIn_out]
  rcases Nat.lt_or_ge t.rxPktCounter 9 with h | h
  · simp [parsePacket_short h]
  rcases Nat.lt_or_ge t.rxPktCounter (EmbTcp.frameEnd t.rxBuf) with hlt | hle
  · simp [parsePacket_wait h hlt]
  · rw [parsePacket_done h hle]
    exact acceptPacket_reads _ _ n

/-- What an event that does not clean the buffer asks for is there. -/
theorem RxInv.toBeRead_le {s : EmbTcp ι} (h : RxInv s)
    (hclean : ¬ (embTcpRxBufSize : ℤ) - s.rxPktCounter < s.currRxLength) :
    s.rxPktCounter + s.toBeRead.toNat ≤ embTcpRxBufSize := by
  have hlt := h.counter_lt
  unfold EmbTcp.toBeRead
  split_ifs <;> omega

theorem RxInv.step_reads {s : EmbTcp ι} (h : RxInv s) (i : TcpInput ι) :
    ∀ o ∈ (tcpStep s i).2, o.ReadsWithin embTcpRxBufSize := by
  match i with
  | .high f => simp [tcpStep]
  | .event client (.txBufEmpty wrote) =>
    simp only [tcpStep, embTcpPortEvent]
    split_ifs <;> simp [TcpOut.ReadsWithin]
  | .event client .lastRxTimeout => simp [tcpStep, embTcpPortEvent]
  | .event client (.dataReceived port) =>
    rw [tcpStep_dataReceived]
    split_ifs with hclean h0
    · simp
    · exact takeIn_reads _ _
    · have hle := h.toBeRead_le hclean
      split
      · simpa [TcpOut.ReadsWithin] using hle
      · intro o ho
        rcases List.mem_cons.1 ho with rfl | ho
        · exact hle
        · exact takeIn_reads _ _ o ho

end Tcp

/-- From a receive counter of zero, through any events, resets and steps of the high level: the
counters stay within the buffers, and so does every read. -/
theorem receive_buffers_never_overflow :
    (∀ (s : EmbRtu) (cs : List RtuCall), s.rxBufCounter = 0 →
      let r := run rtuCallStep s cs
      (r.1.rxBufSize = s.rxBufSize ∧ r.1.rxBufCounter.toNat ≤ r.1.rxBufSize.toNat)
        ∧ ∀ os ∈ r.2, ∀ o ∈ os, o.ReadsWithin s.rxBufSize.toNat)
    ∧ ∀ (ι : Type) (s : EmbTcp ι) (is : List (TcpInput ι)), s.rxPktCounter = 0 →
      let r := run tcpStep s is
      r.1.rxPktCounter < embTcpRxBufSize
        ∧ ∀ os ∈ r.2, ∀ o ∈ os, o.ReadsWithin embTcpRxBufSize := by
  constructor
  · intro s cs h
    have hstart : RtuRxInv s.rxBufSize s := ⟨rfl, by simp [h]⟩
    have hall : Along rtuCallStep (fun _ _ => True) s cs :=
      along_of_forall (P := fun _ => True) fun _ _ => trivial
    have hend : RtuRxInv s.rxBufSize (run rtuCallStep s cs).1 :=
      run_inv (fun t c ht _ => (ht.step c).1) cs s hstart hall
    refine ⟨⟨hend.size, ?_⟩, ?_⟩
    · rw [hend.size]
      exact hend.counter_le
    · exact run_out (G := fun os => ∀ o ∈ os, RtuOut.ReadsWithin s.rxBufSize.toNat o)
        (fun t c ht _ => ht.step c) cs s hstart hall
  · intro ι s is h
    have hstart : RxInv s := ⟨by rw [h]; decide, fun _ => h⟩
    have hall : Along tcpStep (fun _ _ => True) s is :=
      along_of_forall (P := fun _ => True) fun _ _ => trivial
    refine ⟨(run_inv (P := RxInv) (fun t i ht _ => ht.step i) is s hstart hall).counter_lt, ?_⟩
    exact run_out (P := RxInv) (G := fun os => ∀ o ∈ os, TcpOut.ReadsWithin embTcpRxBufSize o)
      (fun t i ht _ => ⟨ht.step i, ht.step_reads i⟩) is s hstart hall

/-- A full buffer and one more read, a reset and a silence; a whole frame and a part of one. -/
theorem receive_buffers_never_overflow_filled :
    (let mbt : EmbRtu := ⟨fun _ => 0, fun _ => 0, 4, 8, 0, 0, 0, ⟨none, true⟩⟩
      let arrival : RtuCall := .input (.event (.dataReceived (.upTo [1, 2, 3, 4, 5])))
      ∀ os ∈ (run rtuCallStep mbt [arrival, arrival, .resetRx, .input .charTimeout]).2,
        ∀ o ∈ os, o.ReadsWithin 4)
    ∧ (run tcpStep (embTcpInitialize (EmbTcp.zeroed Unit ⟨none, true⟩))
        [.event none (.dataReceived (.upTo [0, 1, 0, 0, 0, 3, 1, 7, 9])),
          .event none (.dataReceived (.upTo [0, 1])), .event none .lastRxTimeout]).1.rxPktCounter
      < embTcpRxBufSize := by
  constructor
  · exact (receive_buffers_never_overflow.1 _ _ rfl).2
  · exact (receive_buffers_never_overflow.2 Unit _ _ rfl).1

end Emodbus
