import Emodbus.PartialWrites
import Emodbus.Proofs.RtuFraming
import Emodbus.Proofs.TcpSender

/-!
# Partial writes

The buffer and the two counters of a context are an outbox of the frame, for RTU and for TCP
(`RtuHolds`, `TcpHolds`): what is offered is what is left, and what the port takes of it moves the
counter on.  So the bytes that were taken are always a prefix of the frame.
-/

namespace Emodbus

open Octets Mealy

/-- In a buffer with all of an outbox, the rest lies behind what was taken. -/
theorem slice_rest {d : Mem Byte} {n c : ℕ} {o : Outbox Byte} (hwhole : Mem.slice d 0 n = o.whole)
    (hc : c = o.taken.length) : Mem.slice d c (n - c) = o.rest ∧ n = c + o.rest.length := by
  have hlen := congrArg List.length hwhole
  rw [Mem.length_slice, Outbox.whole, List.length_append] at hlen
  have hsize : n - c = o.rest.length := by omega
  have hall : Mem.slice d 0 n = o.taken ++ o.rest ++ [] := by
    rw [List.append_nil]
    exact hwhole
  have hrest := Mem.slice_of_append hall
  rw [Nat.zero_add] at hrest
  rw [hsize, hc]
  exact ⟨hrest, hlen⟩

/-! ## RTU -/

/-- The bytes in `tx_buffer` are those of the outbox, and the counter is at the first of the
rest. -/
structure RtuHolds (mbt : EmbRtu) (o : Outbox Byte) : Prop where
  whole : Mem.slice mbt.txBuffer 0 mbt.txPktSize.toNat = o.whole
  counter : mbt.txBufCounter.toNat = o.taken.length

section Rtu

variable {mbt : EmbRtu} {o : Outbox Byte}

theorem RtuHolds.length (h : RtuHolds mbt o) :
    mbt.txPktSize.toNat = o.taken.length + o.rest.length := by
  rw [(slice_rest h.whole h.counter).2, h.counter]

theorem RtuHolds.offered (h : RtuHolds mbt o) :
    Mem.slice mbt.txBuffer mbt.txBufCounter.toNat (mbt.txPktSize - mbt.txBufCounter).toNat
      = o.rest := by
  obtain ⟨hrest, hlen⟩ := slice_rest h.whole h.counter
  have hsize : (mbt.txPktSize - mbt.txBufCounter).toNat
      = mbt.txPktSize.toNat - mbt.txBufCounter.toNat := by
    have hlt := mbt.txPktSize.isLt
    rw [BitVec.toNat_sub]
    omega
  rw [hsize]
  exact hrest

/-- A port that takes some of what it is offered. -/
theorem RtuHolds.took (h : RtuHolds mbt o) (t : Taker Byte) :
    ∃ mbt', embRtuPortEvent mbt (.txBufEmpty (PortResult.took t).rtu)
        = (mbt', [.writeToPort o.rest])
      ∧ RtuHolds mbt' (o.step t).1 := by
  have hlen := h.length
  have hlt := mbt.txPktSize.isLt
  have hle := t.count_le o.rest
  refine ⟨{ mbt with txBufCounter := mbt.txBufCounter + BitVec.ofNat 32 (t.count o.rest) }, ?_, ?_⟩
  · unfold embRtuPortEvent PortResult.rtu
    dsimp only
    rw [h.offered, if_neg (by omega)]
  · refine ⟨?_, ?_⟩
    · rw [Outbox.whole_step]
      exact h.whole
    · have hcounter := h.counter
      dsimp only
      rw [Outbox.length_taken_step, BitVec.toNat_add, BitVec.toNat_ofNat]
      omega

/-- A write that fails stops the transmission. -/
theorem RtuHolds.failed (h : RtuHolds mbt o) {errno : ℤ} (neg : errno < 0) :
    embRtuPortEvent mbt (.txBufEmpty (PortResult.failed errno neg).rtu)
      = ({ mbt with txBufCounter := 0, txPktSize := 0 }, [.writeToPort o.rest]) := by
  unfold embRtuPortEvent PortResult.rtu
  dsimp only
  rw [h.offered, if_pos neg]

/-- There is something to send exactly as long as something is left. -/
theorem RtuHolds.hasDataToSend (h : RtuHolds mbt o) :
    embRtuHasDataToSend mbt = if o.rest.length = 0 then 0 else 1 := by
  have hlen := h.length
  have hcounter := h.counter
  unfold embRtuHasDataToSend
  dsimp only
  by_cases hrest : o.rest.length = 0
  · have hnot : ¬ (0 < mbt.txPktSize ∧ mbt.txBufCounter < mbt.txPktSize) := by
      rw [BitVec.lt_def, BitVec.lt_def]
      omega
    rw [if_pos hrest, if_neg hnot]
  · have hmore : 0 < mbt.txPktSize ∧ mbt.txBufCounter < mbt.txPktSize := by
      rw [BitVec.lt_def, BitVec.lt_def]
      exact ⟨by change 0 < _; omega, by omega⟩
    rw [if_neg hrest, if_pos hmore]

/-- The context once a packet has been put into its buffer. -/
def EmbRtu.packed (mbt : EmbRtu) (slaveAddr : ℤ) (pdu : EmbPdu) : EmbRtu :=
  { mbt with
    txBuffer := buildPacket mbt slaveAddr pdu
    txPktSize := BitVec.ofNat 32 (pdu.dataSize.toNat + 2 + 2)
    txBufCounter := 0 }

theorem rtu_holds_packed (mbt : EmbRtu) (slaveAddr : ℤ) (pdu : EmbPdu) :
    RtuHolds (mbt.packed slaveAddr pdu)
      ⟨[], rtuBytes (BitVec.ofInt 8 slaveAddr) pdu.function pdu.bytes⟩ where
  whole := by
    have hlt := pdu.dataSize.isLt
    unfold EmbRtu.packed Outbox.whole
    dsimp only
    rw [BitVec.toNat_ofNat, Nat.mod_eq_of_lt (by omega), List.nil_append]
    exact slice_buildPacket mbt slaveAddr pdu
  counter := rfl

/-- A packet that fits is put into the buffer and offered to the port. -/
theorem rtuSendPacket_eq {slaveAddr : ℤ} {pdu : EmbPdu}
    (hfit : pdu.dataSize.toNat + 4 ≤ mbt.txBufSize.toNat) (wrote : List Byte → ℤ × BitVec 32) :
    modbusRtuSendPacket mbt slaveAddr pdu wrote
      = (0, embRtuPortEvent (mbt.packed slaveAddr pdu) (.txBufEmpty wrote)) := by
  unfold modbusRtuSendPacket
  rw [if_pos hfit]
  rfl

theorem neg_modbusBufferOverflow_ne : -modbusBufferOverflow ≠ 0 := by decide

theorem rtu_accepted_iff (mbt : EmbRtu) (slaveAddr : ℤ) (pdu : EmbPdu)
    (wrote : List Byte → ℤ × BitVec 32) :
    (modbusRtuSendPacket mbt slaveAddr pdu wrote).1 = 0
      ↔ pdu.dataSize.toNat + 4 ≤ mbt.txBufSize.toNat := by
  unfold modbusRtuSendPacket
  split_ifs with hfit
  · exact iff_of_true rfl hfit
  · exact iff_of_false neg_modbusBufferOverflow_ne hfit

/-- One event after the other. -/
theorem RtuHolds.run (h : RtuHolds mbt o) (ts : List (Taker Byte)) :
    (Mealy.run rtuTxEvent mbt ts).2 = (Mealy.run Outbox.step o ts).2
      ∧ RtuHolds (Mealy.run rtuTxEvent mbt ts).1 (Mealy.run Outbox.step o ts).1 := by
  have hall : Along rtuTxEvent (fun _ _ => True) mbt ts := along_of_forall fun _ _ => trivial
  refine run_refines (fun mbt o t h _ => ?_) ts mbt o h hall
  obtain ⟨mbt', hevent, h'⟩ := h.took t
  unfold rtuTxEvent
  rw [hevent]
  exact ⟨rfl, h'⟩

/-- A packet that was accepted, and the events after it. -/
theorem rtuSendInPieces_holds {slaveAddr : ℤ} {pdu : EmbPdu} (first : Taker Byte)
    (hfit : pdu.dataSize.toNat + 4 ≤ mbt.txBufSize.toNat) (ts : List (Taker Byte)) :
    ∃ rest, (rtuSendInPieces mbt slaveAddr pdu first ts).2 ++ rest
        = rtuBytes (BitVec.ofInt 8 slaveAddr) pdu.function pdu.bytes
      ∧ RtuHolds (rtuSendInPieces mbt slaveAddr pdu first ts).1
        ⟨(rtuSendInPieces mbt slaveAddr pdu first ts).2, rest⟩ := by
  have hpacked := rtu_holds_packed mbt slaveAddr pdu
  set o : Outbox Byte := ⟨[], rtuBytes (BitVec.ofInt 8 slaveAddr) pdu.function pdu.bytes⟩ with ho
  obtain ⟨mbt', hevent, h'⟩ := hpacked.took first
  obtain ⟨houts, hholds⟩ := h'.run ts
  have hrun : rtuSendInPieces mbt slaveAddr pdu first ts
      = ((Mealy.run rtuTxEvent mbt' ts).1, (Mealy.run Outbox.step o (first :: ts)).1.taken) := by
    rw [Outbox.taken_run, run_cons]
    unfold rtuSendInPieces
    rw [rtuSendPacket_eq hfit, hevent]
    dsimp only
    rw [houts]
    rfl
  have hwhole := Outbox.whole_run (first :: ts) o
  refine ⟨(Mealy.run Outbox.step o (first :: ts)).1.rest, ?_, ?_⟩
  · rw [hrun]
    exact hwhole
  · rw [hrun]
    exact hholds

end Rtu

/-! ## TCP -/

/-- The bytes in `tx_buf` are those of the outbox, and the counter is at the first of the rest. -/
structure TcpHolds {ι : Type} (mbt : EmbTcp ι) (o : Outbox Byte) : Prop where
  whole : Mem.slice mbt.txBuf 0 mbt.txPktSize = o.whole
  counter : mbt.txPktCounter = o.taken.length

section Tcp

variable {ι : Type} {mbt : EmbTcp ι} {o : Outbox Byte}

theorem TcpHolds.offered (h : TcpHolds mbt o) :
    Mem.slice mbt.txBuf mbt.txPktCounter (mbt.txPktSize - mbt.txPktCounter) = o.rest :=
  (slice_rest h.whole h.counter).1

/-- A port that takes some of what it is offered: the counter moves on by what it returns. -/
theorem TcpHolds.took (h : TcpHolds mbt o) (clientId : Option ι) (t : Taker Byte) :
    ∃ mbt', embTcpPortEvent mbt clientId (.txBufEmpty fun offered => t.count offered)
        = (mbt', [.writeToPort clientId o.rest])
      ∧ TcpHolds mbt' (o.step t).1 := by
  have hcount : (o.step t).1.taken.length = mbt.txPktCounter + t.count o.rest := by
    rw [Outbox.length_taken_step, h.counter]
  have hwhole : Mem.slice mbt.txBuf 0 mbt.txPktSize = (o.step t).1.whole := by
    rw [Outbox.whole_step]
    exact h.whole
  unfold embTcpPortEvent
  dsimp only
  rw [h.offered]
  split_ifs with hpos
  · refine ⟨_, rfl, hwhole, ?_⟩
    rw [hcount]
    rfl
  · refine ⟨_, rfl, hwhole, ?_⟩
    rw [hcount]
    dsimp only
    omega

theorem tcp_holds_packed (mbt : EmbTcp ι) (slaveAddr : ℤ) (pdu : EmbPdu) :
    TcpHolds { mbt with
        txBuf := buildFrame mbt slaveAddr pdu
        txPktSize := pdu.dataSize.toNat + 2 + 6
        txPktCounter := 0 } ⟨[], mbt.outBytes slaveAddr pdu⟩ where
  whole := by
    have hsize : pdu.dataSize.toNat + 2 + 6 = 8 + pdu.dataSize.toNat := by omega
    dsimp only
    rw [hsize, slice_buildFrame]
    rfl
  counter := rfl

theorem tcp_accepted_iff (mbt : EmbTcp ι) (slaveAddr : ℤ) (pdu : EmbPdu)
    (wrote : List Byte → ℤ) :
    (modbusTcpSendPacket mbt slaveAddr pdu wrote).1 = 0
      ↔ pdu.dataSize.toNat ≤ maxPduDataSize := by
  unfold modbusTcpSendPacket
  split_ifs with hfit
  · exact iff_of_true rfl hfit
  · exact iff_of_false neg_modbusBufferOverflow_ne hfit

theorem TcpHolds.run (h : TcpHolds mbt o) (es : List (Option ι × Taker Byte)) :
    (Mealy.run tcpTxEvent mbt es).2 = (Mealy.run Outbox.step o (es.map Prod.snd)).2
      ∧ TcpHolds (Mealy.run tcpTxEvent mbt es).1
        (Mealy.run Outbox.step o (es.map Prod.snd)).1 := by
  have hall : Along tcpTxEvent (fun _ _ => True) mbt es := along_of_forall fun _ _ => trivial
  rw [← run_comap]
  refine run_refines (fun mbt o e h _ => ?_) es mbt o h hall
  obtain ⟨mbt', hevent, h'⟩ := h.took e.1 e.2
  unfold tcpTxEvent
  rw [hevent]
  exact ⟨rfl, h'⟩

theorem tcpSendInPieces_holds {slaveAddr : ℤ} {pdu : EmbPdu} (first : Taker Byte)
    (hfit : pdu.dataSize.toNat ≤ maxPduDataSize) (es : List (Option ι × Taker Byte)) :
    ∃ rest, (tcpSendInPieces mbt slaveAddr pdu first es).2 ++ rest = mbt.outBytes slaveAddr pdu
      ∧ TcpHolds (tcpSendInPieces mbt slaveAddr pdu first es).1
        ⟨(tcpSendInPieces mbt slaveAddr pdu first es).2, rest⟩ := by
  have hpacked := tcp_holds_packed mbt slaveAddr pdu
  set o : Outbox Byte := ⟨[], mbt.outBytes slaveAddr pdu⟩ with ho
  obtain ⟨mbt', hevent, h'⟩ := hpacked.took mbt.tcpClientId first
  obtain ⟨houts, hholds⟩ := h'.run es
  have hrun : tcpSendInPieces mbt slaveAddr pdu first es
      = ((Mealy.run tcpTxEvent mbt' es).1,
        (Mealy.run Outbox.step o (first :: es.map Prod.snd)).1.taken) := by
    rw [Outbox.taken_run, run_cons]
    unfold tcpSendInPieces modbusTcpSendPacket
    rw [if_pos hfit]
    dsimp only
    rw [hevent]
    dsimp only
    rw [houts]
    rfl
  have hwhole := Outbox.whole_run (first :: es.map Prod.snd) o
  refine ⟨(Mealy.run Outbox.step o (first :: es.map Prod.snd)).1.rest, ?_, ?_⟩
  · rw [hrun]
    exact hwhole
  · rw [hrun]
    exact hholds

end Tcp

/-! ## Every schedule -/

/-- For both transports, whatever the port takes of what it is offered, in `send_packet` and at
every event after it: the bytes that were taken are a prefix of the frame, and the next write offers
what is missing.  The RTU context has data to send exactly as long as something is missing. -/
theorem partial_writes {ι : Type} (rtu : EmbRtu) (tcp : EmbTcp ι) (slaveAddr : ℤ) (pdu : EmbPdu)
    (first : Taker Byte) (ts : List (Taker Byte)) (es : List (Option ι × Taker Byte)) :
    ((modbusRtuSendPacket rtu slaveAddr pdu (PortResult.took first).rtu).1 = 0 →
      let frame := rtuBytes (BitVec.ofInt 8 slaveAddr) pdu.function pdu.bytes
      let r := rtuSendInPieces rtu slaveAddr pdu first ts
      r.2 <+: frame
        ∧ (∀ t : Taker Byte, (embRtuPortEvent r.1 (.txBufEmpty (PortResult.took t).rtu)).2
          = [.writeToPort (frame.drop r.2.length)])
        ∧ embRtuHasDataToSend r.1 = if r.2.length < frame.length then 1 else 0)
    ∧ ((modbusTcpSendPacket tcp slaveAddr pdu fun offered => first.count offered).1 = 0 →
      let frame := tcp.outBytes slaveAddr pdu
      let r := tcpSendInPieces tcp slaveAddr pdu first es
      r.2 <+: frame
        ∧ ∀ (clientId : Option ι) (t : Taker Byte),
          (embTcpPortEvent r.1 clientId (.txBufEmpty fun offered => t.count offered)).2
            = [.writeToPort clientId (frame.drop r.2.length)]) := by
  constructor
  · intro haccept
    have hfit := (rtu_accepted_iff rtu slaveAddr pdu _).1 haccept
    obtain ⟨rest, hframe, hholds⟩ := rtuSendInPieces_holds first hfit ts
    dsimp only
    rw [← hframe, List.drop_left]
    refine ⟨List.prefix_append _ _, fun t => ?_, ?_⟩
    · obtain ⟨mbt', hevent, -⟩ := hholds.took t
      rw [hevent]
    · rw [hholds.hasDataToSend, List.length_append]
      dsimp only
      split_ifs <;> first | rfl | omega
  · intro haccept
    have hfit := (tcp_accepted_iff tcp slaveAddr pdu _).1 haccept
    obtain ⟨rest, hframe, hholds⟩ := tcpSendInPieces_holds first hfit es
    dsimp only
    rw [← hframe, List.drop_left]
    refine ⟨List.prefix_append _ _, fun clientId t => ?_⟩
    obtain ⟨mbt', hevent, -⟩ := hholds.took clientId t
    rw [hevent]

/-- A context with eight bytes for a packet. -/
def eightByteTx : EmbRtu := ⟨fun _ => 0, fun _ => 0, 8, 8, 0, 0, 0, ⟨none, false⟩⟩

/-- One byte of data: five bytes for RTU, nine for TCP. -/
def oneByteReq : EmbPdu := ⟨3, 1, 253, fun _ => 7⟩

/-- Two bytes are taken at first, none at the first event, and two more at the second. -/
theorem partial_writes_oneByte :
    (rtuSendInPieces eightByteTx 1 oneByteReq (.upTo 2) [.upTo 0, .upTo 2]).2
        <+: rtuBytes 1 3 [7]
      ∧ (tcpSendInPieces (EmbTcp.zeroed ℕ ⟨none, false⟩) 1 oneByteReq (.upTo 2)
          [(none, .upTo 0), (some 4, .upTo 2)]).2
        <+: (EmbTcp.zeroed ℕ ⟨none, false⟩).outBytes 1 oneByteReq :=
  ⟨((partial_writes eightByteTx (EmbTcp.zeroed ℕ ⟨none, false⟩) 1 oneByteReq (.upTo 2)
      [.upTo 0, .upTo 2] []).1 rfl).1,
    ((partial_writes eightByteTx (EmbTcp.zeroed ℕ ⟨none, false⟩) 1 oneByteReq (.upTo 2) []
      [(none, .upTo 0), (some 4, .upTo 2)]).2 rfl).1⟩

/-! ## The synchronous send -/

/-- How the loop ends: no call has failed and all that was left has been taken, or the last call
has failed while something was left. -/
inductive Flushed (rest : List Byte) : List (PortResult × List Byte) → Prop
  | all {calls} (htook : ∀ call ∈ calls, ¬ call.1.Fails) (htaken : takenOf calls = rest) :
    Flushed rest calls
  | stopped {calls} {call : PortResult × List Byte} (hfails : call.1.Fails)
    (hless : takenOf calls ≠ rest) : Flushed rest (calls ++ [call])

/-- The port takes some bytes first. -/
theorem Flushed.took {rest : List Byte} (t : Taker Byte)
    {calls : List (PortResult × List Byte)} (h : Flushed (rest.drop (t.count rest)) calls) :
    Flushed rest ((.took t, rest) :: calls) := by
  have htaken : ∀ calls, takenOf ((.took t, rest) :: calls) = t.take rest ++ takenOf calls :=
    fun calls => List.flatMap_cons
  have hsplit : t.take rest ++ rest.drop (t.count rest) = rest := List.take_append_drop _ _
  cases h with
  | all htook hall =>
    refine .all (List.forall_mem_cons.2 ⟨id, htook⟩) ?_
    rw [htaken, hall, hsplit]
  | @stopped calls call hfails hless =>
    rw [← List.cons_append]
    refine .stopped hfails fun heq => hless ?_
    rw [htaken] at heq
    exact List.append_cancel_left (heq.trans hsplit.symm)

section Sync

variable {mbt : EmbRtu} {o : Outbox Byte}

theorem RtuHolds.more_iff (h : RtuHolds mbt o) :
    mbt.txBufCounter < mbt.txPktSize ↔ o.rest ≠ [] := by
  have hlen := h.length
  have hcounter := h.counter
  rw [BitVec.lt_def, ← List.length_pos_iff_ne_nil]
  omega

/-- The loop on a port that does this. -/
theorem syncLoop_flushed (writes : List PortResult) {mbt mbt' : EmbRtu} {o : Outbox Byte}
    {outs : List RtuOut} (h : RtuHolds mbt o)
    (hloop : rtuSyncLoop mbt (writes.map PortResult.rtu) = some (mbt', outs)) :
    Flushed o.rest (writes.zip (RtuOut.offers outs))
      ∧ (writes.zip (RtuOut.offers outs)).map Prod.fst = writes := by
  induction writes generalizing mbt mbt' o outs with
  | nil =>
    rw [List.map_nil, rtuSyncLoop] at hloop
    split_ifs at hloop with hmore
    refine ⟨.all (by simp) ?_, rfl⟩
    by_contra hne
    exact hmore (h.more_iff.2 fun hnil => hne hnil.symm)
  | cons write writes ih =>
    rw [List.map_cons, rtuSyncLoop] at hloop
    split_ifs at hloop with hmore
    have hne := h.more_iff.1 hmore
    cases write with
    | took t =>
      obtain ⟨next, hevent, hnext⟩ := h.took t
      rw [hevent, Option.map_eq_some_iff] at hloop
      obtain ⟨⟨mbt₁, outs₁⟩, hrest, heq⟩ := hloop
      obtain ⟨-, rfl⟩ := Prod.mk.inj heq
      obtain ⟨hflushed, hwrites⟩ := ih hnext hrest
      refine ⟨Flushed.took t hflushed, ?_⟩
      simp [RtuOut.offers, hwrites]
    | failed errno neg =>
      -- the counters are zero, so that the loop is left
      rw [h.failed neg, Option.map_eq_some_iff] at hloop
      obtain ⟨⟨mbt₁, outs₁⟩, hrest, heq⟩ := hloop
      obtain ⟨-, rfl⟩ := Prod.mk.inj heq
      cases writes with
      | nil =>
        rw [List.map_nil, rtuSyncLoop, if_neg (BitVec.lt_irrefl _)] at hrest
        obtain ⟨-, rfl⟩ := Prod.mk.inj (Option.some.inj hrest)
        have hstopped : Flushed o.rest ([] ++ [(PortResult.failed errno neg, o.rest)]) :=
          .stopped trivial fun hnil => hne hnil.symm
        exact ⟨hstopped, rfl⟩
      | cons write writes =>
        rw [List.map_cons, rtuSyncLoop, if_neg (BitVec.lt_irrefl _)] at hrest
        exact nomatch hrest

/-- A packet that fits: the write in `send_packet` is the first of the loop's. -/
theorem sendPacketSync_eq {slaveAddr : ℤ} {pdu : EmbPdu}
    (hfit : pdu.dataSize.toNat + 4 ≤ mbt.txBufSize.toNat) (first : List Byte → ℤ × BitVec 32)
    (writes : List (List Byte → ℤ × BitVec 32)) :
    embRtuSendPacketSync mbt slaveAddr pdu first writes
      = (rtuSyncLoop (mbt.packed slaveAddr pdu) (first :: writes)).map fun s => (0, s) := by
  have hmore : (mbt.packed slaveAddr pdu).txBufCounter < (mbt.packed slaveAddr pdu).txPktSize := by
    rw [(rtu_holds_packed mbt slaveAddr pdu).more_iff]
    simp [rtuBytes]
  unfold embRtuSendPacketSync
  rw [rtuSendPacket_eq hfit, rtuSyncLoop, if_pos hmore]
  dsimp only
  rw [if_pos rfl, Option.map_map]
  rfl

/-- Success is reported only for what was sent exactly if no write fails: one that does makes the
loop end, and it returns zero. -/
theorem sync_honest_iff {slaveAddr : ℤ} {pdu : EmbPdu} {first : PortResult}
    {writes : List PortResult} {result : ℤ} {calls : List (PortResult × List Byte)}
    (hsync : rtuSendSync mbt slaveAddr pdu first writes = some (result, calls)) :
    SyncHonest (rtuBytes (BitVec.ofInt 8 slaveAddr) pdu.function pdu.bytes) result calls
      ↔ (pdu.dataSize.toNat + 4 ≤ mbt.txBufSize.toNat →
          ∀ write ∈ first :: writes, ¬ write.Fails) := by
  unfold rtuSendSync at hsync
  rw [Option.map_eq_some_iff] at hsync
  obtain ⟨⟨code, after, outs⟩, hsync, heq⟩ := hsync
  obtain ⟨rfl, rfl⟩ := Prod.mk.inj heq
  by_cases hfit : pdu.dataSize.toNat + 4 ≤ mbt.txBufSize.toNat
  · rw [sendPacketSync_eq hfit, Option.map_eq_some_iff] at hsync
    obtain ⟨⟨mbt', outs'⟩, hloop, heq⟩ := hsync
    obtain ⟨rfl, hpair⟩ := Prod.mk.inj heq
    obtain ⟨rfl, rfl⟩ := Prod.mk.inj hpair
    obtain ⟨hflushed, hwrites⟩ :=
      syncLoop_flushed (first :: writes) (rtu_holds_packed mbt slaveAddr pdu) hloop
    dsimp only at hflushed hwrites ⊢
    generalize (first :: writes).zip (RtuOut.offers outs') = calls at hflushed hwrites ⊢
    rw [← hwrites, List.forall_mem_map]
    cases hflushed with
    | all htook htaken =>
      refine iff_of_true ⟨fun _ => htaken, fun pre call post heq hfails => ?_⟩ fun _ => htook
      exact absurd hfails (htook call (by simp [heq]))
    | @stopped calls call hfails hless =>
      refine iff_of_false (fun h => ?_) fun h => ?_
      · exact h.reports calls call [] rfl hfails hless rfl
      · exact h hfit call (by simp) hfails
  · unfold embRtuSendPacketSync modbusRtuSendPacket at hsync
    rw [if_neg hfit] at hsync
    dsimp only at hsync
    rw [if_neg neg_modbusBufferOverflow_ne] at hsync
    obtain ⟨rfl, hpair⟩ := Prod.mk.inj (Option.some.inj hsync)
    obtain ⟨rfl, rfl⟩ := Prod.mk.inj hpair
    refine iff_of_true ⟨fun h => absurd h neg_modbusBufferOverflow_ne, ?_⟩
      fun h => absurd h hfit
    intro pre call post heq
    simp [RtuOut.offers] at heq

end Sync

/-- Two bytes are taken, none, and then the rest. -/
theorem sync_honest_short_writes :
    SyncHonest (rtuBytes 1 3 [7]) 0
        [(.took (.upTo 2), rtuBytes 1 3 [7]), (.took (.upTo 0), (rtuBytes 1 3 [7]).drop 2),
          (.took (.upTo 9), (rtuBytes 1 3 [7]).drop 2)]
      ↔ (5 ≤ 8 → ∀ write ∈ [PortResult.took (.upTo 2), .took (.upTo 0), .took (.upTo 9)],
        ¬ write.Fails) :=
  sync_honest_iff (show rtuSendSync eightByteTx 1 oneByteReq (.took (.upTo 2))
    [.took (.upTo 0), .took (.upTo 9)] = some (0, _) from rfl)

/-- The port takes two bytes and then fails: success is reported all the same. -/
theorem failed_write_reports_success :
    ∃ calls, rtuSendSync eightByteTx 1 oneByteReq (.took (.upTo 2)) [.failed (-5) (by decide)]
        = some (0, calls)
      ∧ takenOf calls = [1, 3] ∧ ¬ SyncHonest (rtuBytes 1 3 [7]) 0 calls := by
  refine ⟨[(.took (.upTo 2), rtuBytes 1 3 [7]), (.failed (-5) (by decide),
    (rtuBytes 1 3 [7]).drop 2)], rfl, rfl, fun h => ?_⟩
  have htaken := h.complete rfl
  exact absurd (congrArg List.length htaken) (by decide)

end Emodbus
