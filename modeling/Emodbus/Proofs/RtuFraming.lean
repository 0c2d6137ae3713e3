import Emodbus.RtuBurst

/-!
# RTU packets on the wire

A packet is its address, function and data with their CRC behind them (`rtuBytes`).  The sender
puts these bytes into its buffer, the receiver gathers them whatever the pieces they come in, and
what it delivers from some bytes is what they are the packet of.
-/

namespace Emodbus

open Octets Mealy

@[simp] theorem length_rtuBytes (addr function : Byte) (data : List Byte) :
    (rtuBytes addr function data).length = data.length + 4 := by simp [rtuBytes]

theorem slice_buildPacket (mbt : EmbRtu) (addr : ℤ) (pdu : EmbPdu) :
    Mem.slice (buildPacket mbt addr pdu) 0 (pdu.dataSize.toNat + 4)
      = rtuBytes (BitVec.ofInt 8 addr) pdu.function pdu.bytes := by
  have hlt := pdu.dataSize.isLt
  have h1 : Mem.slice (Mem.blit mbt.txBuffer 0 [BitVec.ofInt 8 addr]) 0 1 = [BitVec.ofInt 8 addr] :=
    Mem.slice_blit mbt.txBuffer 0 [BitVec.ofInt 8 addr]
  have h2 := Mem.slice_blit_append _ [pdu.function] h1 (n := 2) rfl
  have hbody := Mem.slice_blit_append _ pdu.bytes h2 (n := pdu.dataSize.toNat + 2)
    (by rw [EmbPdu.length_bytes, Nat.add_comm])
  have hcrc : crc16 (Mem.blit (Mem.blit (Mem.blit mbt.txBuffer 0 [BitVec.ofInt 8 addr]) 1
      [pdu.function]) 2 pdu.bytes) (BitVec.ofNat 16 (pdu.dataSize.toNat + 2))
      = crcOf (BitVec.ofInt 8 addr :: pdu.function :: pdu.bytes) := by
    unfold crc16
    rw [BitVec.toNat_ofNat, Nat.mod_eq_of_lt (by omega), hbody]
    rfl
  have hall := Mem.slice_blit_append _
    (Mem.le [crcOf (BitVec.ofInt 8 addr :: pdu.function :: pdu.bytes)]) hbody
    (n := pdu.dataSize.toNat + 4) rfl
  unfold buildPacket
  dsimp only
  rw [litEndMk16_eq, hcrc, hall]
  rfl

/-! ## The receiver -/

section Receive

/-- A piece that fits the buffer is put behind what is there. -/
theorem dataReceived_chunk {mbt : EmbRtu} {chunk : List Byte} (hne : chunk ≠ [])
    (hfit : mbt.rxBufCounter.toNat + chunk.length ≤ mbt.rxBufSize.toNat) :
    embRtuPortEvent mbt (.dataReceived (.upTo chunk))
      = ({ mbt with
          rxBuffer := Mem.blit mbt.rxBuffer mbt.rxBufCounter.toNat chunk
          rxBufCounter := mbt.rxBufCounter + BitVec.ofNat 32 chunk.length },
        [.readFromPort mbt.rxBufCounter.toNat (mbt.rxBufSize - mbt.rxBufCounter).toNat,
          .onChar]) := by
  have hsize : (mbt.rxBufSize - mbt.rxBufCounter).toNat
      = mbt.rxBufSize.toNat - mbt.rxBufCounter.toNat := by
    rw [BitVec.toNat_sub]
    have h1 := mbt.rxBufSize.isLt
    have h2 := mbt.rxBufCounter.isLt
    omega
  have htake : chunk.take (mbt.rxBufSize - mbt.rxBufCounter).toNat = chunk :=
    List.take_of_length_le (by omega)
  cases chunk with
  | nil => exact absurd rfl hne
  | cons b bs =>
    unfold embRtuPortEvent PortRead.upTo
    dsimp only
    rw [htake]

/-- The pieces are gathered, and the high level hears nothing of them. -/
theorem run_arrivals (chunks : List (List Byte)) {mbt : EmbRtu} {bytes : List Byte}
    (hne : ∀ c ∈ chunks, c ≠ []) (hcnt : mbt.rxBufCounter.toNat = bytes.length)
    (hbuf : Mem.slice mbt.rxBuffer 0 bytes.length = bytes)
    (hfit : bytes.length + chunks.flatten.length ≤ mbt.rxBufSize.toNat) :
    ∃ buf, (run rtuStep mbt (rtuArrivals chunks)).1 = { mbt with
        rxBuffer := buf
        rxBufCounter := BitVec.ofNat 32 (bytes.length + chunks.flatten.length) }
      ∧ Mem.slice buf 0 (bytes.length + chunks.flatten.length) = bytes ++ chunks.flatten
      ∧ (run rtuStep mbt (rtuArrivals chunks)).2.flatMap RtuOut.upcalls = [] := by
  induction chunks generalizing mbt bytes with
  | nil =>
    refine ⟨mbt.rxBuffer, ?_, by simpa using hbuf, rfl⟩
    simp only [rtuArrivals, List.map_nil, run_nil, List.flatten_nil, List.length_nil, Nat.add_zero,
      ← hcnt, BitVec.ofNat_toNat, BitVec.setWidth_eq]
  | cons c cs ih =>
    rw [List.flatten_cons, List.length_append] at hfit
    have hstep := dataReceived_chunk (hne c List.mem_cons_self) (by rw [hcnt]; omega)
    have hlt := mbt.rxBufSize.isLt
    set next : EmbRtu := { mbt with
      rxBuffer := Mem.blit mbt.rxBuffer mbt.rxBufCounter.toNat c
      rxBufCounter := mbt.rxBufCounter + BitVec.ofNat 32 c.length } with hnext
    have hcnt' : next.rxBufCounter.toNat = (bytes ++ c).length := by
      change (mbt.rxBufCounter + BitVec.ofNat 32 c.length).toNat = _
      rw [BitVec.toNat_add, BitVec.toNat_ofNat, hcnt, List.length_append]
      omega
    have hbuf' : Mem.slice next.rxBuffer 0 (bytes ++ c).length = bytes ++ c := by
      change Mem.slice (Mem.blit mbt.rxBuffer mbt.rxBufCounter.toNat c) 0 _ = _
      rw [hcnt]
      exact Mem.slice_blit_append _ c hbuf List.length_append
    have hfit' : (bytes ++ c).length + cs.flatten.length ≤ next.rxBufSize.toNat := by
      change _ ≤ mbt.rxBufSize.toNat
      rw [List.length_append]
      omega
    obtain ⟨buf, hstate, hslice, hups⟩ :=
      ih (fun c' hc' => hne c' (List.mem_cons_of_mem _ hc')) hcnt' hbuf' hfit'
    have hrun : run rtuStep mbt (rtuArrivals (c :: cs))
        = ((run rtuStep next (rtuArrivals cs)).1,
          [.readFromPort mbt.rxBufCounter.toNat (mbt.rxBufSize - mbt.rxBufCounter).toNat, .onChar]
            :: (run rtuStep next (rtuArrivals cs)).2) := by
      change run rtuStep mbt (.event (.dataReceived (.upTo c)) :: rtuArrivals cs) = _
      rw [run_cons, rtuStep, hstep]
    rw [List.length_append] at hstate hslice
    rw [List.flatten_cons, List.length_append, ← Nat.add_assoc, ← List.append_assoc, hrun]
    exact ⟨buf, hstate, hslice, hups⟩

/-- What there is between the two ends of the buffer. -/
theorem slice_split (buf : Mem Byte) (n : ℕ) :
    Mem.slice buf 0 (n + 4)
      = (buf 0 :: buf 1 :: Mem.slice buf 2 n) ++ [buf (n + 2), buf (n + 3)] := by
  rw [show n + 4 = 2 + n + 2 by omega, Mem.slice_add, Mem.slice_add, Mem.slice_succ,
    Mem.slice_succ, Mem.slice_zero, Mem.slice_succ, Mem.slice_succ, Mem.slice_zero]
  simp [Nat.add_comm, Nat.add_left_comm]

/-- The CRC test of the receiver: whether the buffer holds a packet. -/
theorem crc_eq_iff (buf : Mem Byte) (n : ℕ) (hn : n ≤ 65533) :
    crc16 buf (BitVec.ofInt 16 ((n + 2 : ℕ) : ℤ)) = mkWord (buf (n + 2)) (buf (n + 3))
      ↔ Mem.slice buf 0 (n + 4) = rtuBytes (buf 0) (buf 1) (Mem.slice buf 2 n) := by
  have hlen : (BitVec.ofInt 16 ((n + 2 : ℕ) : ℤ)).toNat = n + 2 := by
    rw [BitVec.toNat_ofInt]
    omega
  have hbody : Mem.slice buf 0 (n + 2) = buf 0 :: buf 1 :: Mem.slice buf 2 n := by
    rw [Nat.add_comm, Mem.slice_add, Mem.slice_succ, Mem.slice_succ, Mem.slice_zero]
    rfl
  unfold crc16 rtuBytes
  rw [hlen, hbody, mkWord_eq, slice_split, List.append_cancel_left_eq]
  set crc := crcOf (buf 0 :: buf 1 :: Mem.slice buf 2 n)
  simp only [Mem.le, List.cons.injEq, and_true]
  constructor
  · intro h
    rw [h, Word.lo_ofBytes, Word.hi_ofBytes]
    exact ⟨rfl, rfl⟩
  · rintro ⟨hlo, hhi⟩
    rw [hlo, hhi, Word.ofBytes_hi_lo]

/-- The PDU once the payload in the buffer has been copied into it. -/
def EmbPdu.copied (p : EmbPdu) (buf : Mem Byte) (n : ℕ) : EmbPdu :=
  { p with
    function := buf 1
    dataSize := BitVec.ofInt 8 (n : ℕ)
    data := Mem.copy p.data (Mem.shift buf 2) n }

theorem EmbPdu.dataSize_copied (p : EmbPdu) (buf : Mem Byte) {n : ℕ} (hn : n ≤ 255) :
    (p.copied buf n).dataSize.toNat = n := by
  change (BitVec.ofInt 8 (n : ℕ)).toNat = n
  rw [BitVec.toNat_ofInt]
  omega

theorem EmbPdu.bytes_copied (p : EmbPdu) (buf : Mem Byte) {n : ℕ} (hn : n ≤ 255) :
    (p.copied buf n).bytes = Mem.slice buf 2 n := by
  unfold EmbPdu.bytes
  rw [EmbPdu.dataSize_copied p buf hn]
  exact Mem.slice_copy_shift _ _

theorem size_eq {counter : BitVec 32} {n : ℕ} (h : counter.toNat = n + 4) (hn : n ≤ 65533) :
    (counter - 2).toInt = ((n + 2 : ℕ) : ℤ) := by
  have hlt := counter.isLt
  have h2 : (2 : BitVec 32).toNat = 2 := rfl
  have hsub : (counter - 2).toNat = n + 2 := by
    rw [BitVec.toNat_sub, h2]
    omega
  rw [BitVec.toInt_eq_toNat_of_lt (by omega), hsub]

/-- A packet in the buffer goes to the high level, if the PDU has room for it. -/
theorem parsePacket_packet {mbt : EmbRtu} {n : ℕ} (hn : n ≤ 255)
    (hcnt : mbt.rxBufCounter.toNat = n + 4)
    (hpkt : Mem.slice mbt.rxBuffer 0 (n + 4)
      = rtuBytes (mbt.rxBuffer 0) (mbt.rxBuffer 1) (Mem.slice mbt.rxBuffer 2 n))
    {p : EmbPdu} (hp : mbt.transport.rxPdu = some p) :
    rtuParsePacket mbt =
      if p.maxSize.toNat < n then (mbt, [.upcall (.error (-modbusRespBufferOvf))])
      else ({ mbt with transport.rxPdu := some (p.copied mbt.rxBuffer n) },
        [.upcall (.recvPacket (mbt.rxBuffer 0).toNat (p.copied mbt.rxBuffer n))]) := by
  have hsize := size_eq hcnt (by omega)
  have hcrc := (crc_eq_iff mbt.rxBuffer n (by omega)).2 hpkt
  have h2 : ((n + 2 : ℕ) : ℤ) - 2 = (n : ℕ) := by omega
  unfold rtuParsePacket
  dsimp only
  rw [hsize, if_pos (by omega), Int.toNat_natCast, if_neg (not_not.2 hcrc), hp]
  dsimp only
  rw [Nat.add_sub_cancel, h2]
  rfl

/-- What is delivered is the packet that the buffer holds. -/
theorem parsePacket_recvPacket {mbt : EmbRtu} {addr : ℤ} {q : EmbPdu}
    (h : RtuOut.upcalls (rtuParsePacket mbt).2 = [.recvPacket addr q]) :
    addr = (mbt.rxBuffer 0).toNat ∧ mbt.rxBufCounter.toNat = q.dataSize.toNat + 4
      ∧ Mem.slice mbt.rxBuffer 0 (q.dataSize.toNat + 4)
        = rtuBytes (mbt.rxBuffer 0) q.function q.bytes := by
  unfold rtuParsePacket at h
  dsimp only at h
  split_ifs at h with hsize hcrc
  · simp [RtuOut.upcalls] at h
  · cases hp : mbt.transport.rxPdu with
    | none =>
      rw [hp] at h
      simp [RtuOut.upcalls] at h
    | some p =>
      rw [hp] at h
      dsimp only at h
      split_ifs at h with hovf
      · simp [RtuOut.upcalls] at h
      · simp only [RtuOut.upcalls, List.cons.injEq, Upcall.recvPacket.injEq, and_true] at h
        obtain ⟨haddr, hq⟩ := h
        have hmax := p.maxSize.isLt
        obtain ⟨n, hcnt, hn⟩ : ∃ n, mbt.rxBufCounter.toNat = n + 4 ∧ n ≤ 255 := by
          have h2 : (2 : BitVec 32).toNat = 2 := rfl
          have hint := BitVec.toInt_eq_toNat_cond (mbt.rxBufCounter - 2)
          have hsub := BitVec.toNat_sub mbt.rxBufCounter 2
          have hlt := mbt.rxBufCounter.isLt
          refine ⟨mbt.rxBufCounter.toNat - 4, ?_, ?_⟩
          · split_ifs at hint <;> omega
          · split_ifs at hint <;> omega
        have hint := size_eq hcnt (by omega)
        rw [hint, Int.toNat_natCast, not_not] at hcrc
        have hpkt := (crc_eq_iff mbt.rxBuffer n (by omega)).1 hcrc
        have h2 : ((n + 2 : ℕ) : ℤ) - 2 = (n : ℕ) := by omega
        rw [hint, Int.toNat_natCast, Nat.add_sub_cancel, h2] at hq
        have hcopied : q = p.copied mbt.rxBuffer n := hq.symm
        rw [hcopied, EmbPdu.dataSize_copied p _ hn, EmbPdu.bytes_copied p _ hn]
        exact ⟨haddr.symm, hcnt, hpkt⟩
  · simp [RtuOut.upcalls] at h

end Receive

/-! ## Sending and receiving -/

theorem rtuSent_eq {mbt : EmbRtu} {pdu : EmbPdu} (addr : ℤ) (wrote : List Byte → ℤ × BitVec 32)
    (hfit : pdu.dataSize.toNat + 4 ≤ mbt.txBufSize.toNat) :
    rtuSent mbt addr pdu wrote = rtuBytes (BitVec.ofInt 8 addr) pdu.function pdu.bytes := by
  unfold rtuSent modbusRtuSendPacket
  rw [if_pos hfit, ← slice_buildPacket mbt addr pdu]
  dsimp only [embRtuPortEvent]
  split_ifs <;> rfl

/-- What gathering pieces leaves in the buffer. -/
theorem receive_bytes {mbt : EmbRtu} (chunks : List (List Byte))
    (hfit : chunks.flatten.length ≤ mbt.rxBufSize.toNat) (hcnt : mbt.rxBufCounter = 0)
    (hne : ∀ c ∈ chunks, c ≠ []) :
    ∃ r : EmbRtu, r.transport = mbt.transport ∧ r.rxBufCounter.toNat = chunks.flatten.length
      ∧ Mem.slice r.rxBuffer 0 chunks.flatten.length = chunks.flatten
      ∧ rtuReceive mbt chunks
        = ((embRtuOnCharTimeout r).1, RtuOut.upcalls (embRtuOnCharTimeout r).2) := by
  have hcnt0 : mbt.rxBufCounter.toNat = ([] : List Byte).length := by rw [hcnt]; rfl
  have hbuf0 : Mem.slice mbt.rxBuffer 0 ([] : List Byte).length = [] := rfl
  have hlt := mbt.rxBufSize.isLt
  obtain ⟨buf, hstate, hslice, hups⟩ := run_arrivals chunks hne hcnt0 hbuf0
    (by rw [List.length_nil]; omega)
  rw [List.length_nil, Nat.zero_add] at hstate hslice
  refine ⟨(run rtuStep mbt (rtuArrivals chunks)).1, by rw [hstate], ?_, ?_, ?_⟩
  · rw [hstate]
    change (BitVec.ofNat 32 chunks.flatten.length).toNat = _
    rw [BitVec.toNat_ofNat, Nat.mod_eq_of_lt (by omega)]
  · rw [hstate]
    exact hslice
  · unfold rtuReceive
    rw [run_append, run_cons, run_nil]
    dsimp only
    rw [List.flatMap_append, hups]
    simp [rtuStep]

theorem receive_packet {mbt : EmbRtu} {addr function : Byte} {data : List Byte}
    (chunks : List (List Byte)) (hfit : data.length + 4 ≤ mbt.rxBufSize.toNat)
    (hcnt : mbt.rxBufCounter = 0) (hne : ∀ c ∈ chunks, c ≠ [])
    (hbytes : chunks.flatten = rtuBytes addr function data) :
    ∃ r : EmbRtu, r.transport = mbt.transport ∧ r.rxBufCounter.toNat = data.length + 4
      ∧ Mem.slice r.rxBuffer 0 (data.length + 4) = rtuBytes addr function data
      ∧ rtuReceive mbt chunks
        = ((embRtuOnCharTimeout r).1, RtuOut.upcalls (embRtuOnCharTimeout r).2) := by
  have hgather := receive_bytes chunks (by rwa [hbytes, length_rtuBytes]) hcnt hne
  rwa [hbytes, length_rtuBytes] at hgather

/-- What the buffer holds behind its first bytes is told by the packet in it. -/
theorem packet_parts {buf : Mem Byte} {addr function : Byte} {data : List Byte}
    (h : Mem.slice buf 0 (data.length + 4) = rtuBytes addr function data) :
    buf 0 = addr ∧ buf 1 = function ∧ Mem.slice buf 2 data.length = data := by
  rw [slice_split] at h
  have hbody := (List.append_inj h (by simp)).1
  simp only [List.cons.injEq] at hbody
  exact hbody

/-- RTU framing is a bijection, whatever the pieces the packet comes in. -/
theorem rtu_framing_bijective :
    (∀ (sender receiver : EmbRtu) (addr : ℤ) (pdu : EmbPdu) (wrote : List Byte → ℤ × BitVec 32)
        (chunks : List (List Byte)),
      0 ≤ addr → addr ≤ 255 →
      pdu.dataSize.toNat + 4 ≤ sender.txBufSize.toNat →
      pdu.dataSize.toNat + 4 ≤ receiver.rxBufSize.toNat →
      receiver.rxBufCounter = 0 →
      (∀ c ∈ chunks, c ≠ []) → chunks.flatten = rtuSent sender addr pdu wrote →
      (rtuReceive receiver chunks).1.rxBufCounter = 0 ∧
      ∀ p, receiver.transport.rxPdu = some p →
        (pdu.dataSize ≤ p.maxSize →
          ∃ q, (rtuReceive receiver chunks).2 = [.recvPacket addr q] ∧ q.Same pdu) ∧
        (p.maxSize < pdu.dataSize →
          (rtuReceive receiver chunks).2 = [.error (-modbusRespBufferOvf)] ∧
          (rtuReceive receiver chunks).1.transport.rxPdu = some p)) ∧
    (∀ (sender receiver : EmbRtu) (addr : ℤ) (q : EmbPdu) (wrote : List Byte → ℤ × BitVec 32),
      RtuOut.upcalls (embRtuOnCharTimeout receiver).2 = [.recvPacket addr q] →
      q.dataSize.toNat + 4 ≤ sender.txBufSize.toNat →
      rtuSent sender addr q wrote
        = Mem.slice receiver.rxBuffer 0 receiver.rxBufCounter.toNat) := by
  constructor
  · intro sender receiver addr pdu wrote chunks h0 h255 htx hrx hcnt hne hbytes
    rw [rtuSent_eq addr wrote htx] at hbytes
    have hds := pdu.dataSize.isLt
    have haddr : ((BitVec.ofInt 8 addr).toNat : ℤ) = addr := by
      rw [BitVec.toNat_ofInt]
      omega
    have hn : pdu.dataSize.toNat ≤ 255 := by omega
    obtain ⟨r, htr, hrcnt, hrbuf, hrun⟩ := receive_packet chunks (by rwa [EmbPdu.length_bytes])
      hcnt hne hbytes
    obtain ⟨hb0, hb1, hdata⟩ := packet_parts hrbuf
    rw [EmbPdu.length_bytes] at hrcnt hrbuf hdata
    rw [hrun]
    refine ⟨rfl, fun p hp => ?_⟩
    rw [← htr] at hp
    have hpkt : Mem.slice r.rxBuffer 0 (pdu.dataSize.toNat + 4)
        = rtuBytes (r.rxBuffer 0) (r.rxBuffer 1) (Mem.slice r.rxBuffer 2 pdu.dataSize.toNat) := by
      rw [hrbuf, hb0, hb1, hdata]
    have hparse := parsePacket_packet (by omega) hrcnt hpkt hp
    unfold embRtuOnCharTimeout
    dsimp only
    constructor
    · intro hle
      rw [BitVec.le_def] at hle
      rw [hparse, if_neg (by omega), hb0]
      refine ⟨_, congrArg (fun a => [Upcall.recvPacket a _]) haddr, hb1, ?_, ?_⟩
      · change BitVec.ofInt 8 (pdu.dataSize.toNat : ℤ) = pdu.dataSize
        rw [BitVec.ofInt_natCast, BitVec.ofNat_toNat, BitVec.setWidth_eq]
      · rw [EmbPdu.bytes_copied p _ hn, hdata]
    · intro hlt
      rw [BitVec.lt_def] at hlt
      rw [hparse, if_pos hlt]
      exact ⟨rfl, hp⟩
  · intro sender receiver addr q wrote h htx
    obtain ⟨haddr, hcnt, hpkt⟩ := parsePacket_recvPacket h
    rw [rtuSent_eq addr wrote htx, hcnt, hpkt, haddr, BitVec.ofInt_natCast, BitVec.ofNat_toNat,
      BitVec.setWidth_eq]

/-- A packet of one byte, received in one piece, and five bytes that are a packet. -/
theorem rtu_framing_bijective_one :
    let mbt : EmbRtu :=
      ⟨fun _ => 0, fun _ => 0, 8, 8, 0, 0, 0, ⟨some ⟨0, 0, 253, fun _ => 0⟩, true⟩⟩
    let pdu : EmbPdu := ⟨3, 1, 253, fun _ => 7⟩
    let wrote : List Byte → ℤ × BitVec 32 := fun _ => (0, 0)
    let buf := Mem.blit mbt.rxBuffer 0 [1, 3, 7, 97, 50]
    (∃ q, (rtuReceive mbt [rtuSent mbt 1 pdu wrote]).2 = [.recvPacket 1 q] ∧ q.Same pdu) ∧
    rtuSent mbt 1 (EmbPdu.copied ⟨0, 0, 253, fun _ => 0⟩ buf 1) wrote = Mem.slice buf 0 5 := by
  intro mbt pdu wrote buf
  constructor
  · exact ((rtu_framing_bijective.1 mbt mbt 1 pdu wrote [rtuSent mbt 1 pdu wrote] (by simp)
      (by decide) (by decide) (by decide) rfl (by simp [rtuSent, Mem.slice]) (by simp)).2 _ rfl).1
      (by decide)
  · have hpkt : Mem.slice buf 0 5 = rtuBytes (buf 0) (buf 1) (Mem.slice buf 2 1) := by
      decide +kernel
    set got : EmbRtu := { mbt with rxBuffer := buf, rxBufCounter := 5 } with hgot
    have hcnt : got.rxBufCounter.toNat = 1 + 4 := rfl
    have hparse := parsePacket_packet (by simp) hcnt hpkt rfl
    refine rtu_framing_bijective.2 mbt got 1 _ wrote ?_ (by decide)
    unfold embRtuOnCharTimeout
    rw [hparse]
    rfl

end Emodbus
