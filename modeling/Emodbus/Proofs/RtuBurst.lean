import Emodbus.Proofs.RtuFraming

/-!
# When a packet is a whole burst

The receiver holds the bytes it has read since the last read that got nothing.  If they are a packet
it is delivered, whatever was read before.
-/

namespace Emodbus

open Octets Mealy

/-- The receiver and the port hold what has been gathered. -/
structure BurstHolds (start : EmbRtu) (b : Burst) (g : Gathered) : Prop where
  size : b.mbt.rxBufSize = start.rxBufSize
  transport : b.mbt.transport = start.transport
  counter : b.mbt.rxBufCounter.toNat = g.kept.length
  fits : g.kept.length ≤ start.rxBufSize.toNat
  buffer : Mem.slice b.mbt.rxBuffer 0 g.kept.length = g.kept
  waiting : b.waiting = g.waiting
  handed : b.handed = g.lost ++ g.kept

/-- What the receiver makes of the bytes that wait. -/
theorem dataReceived_upTo (mbt : EmbRtu) (waiting : List Byte) :
    let got := waiting.take (mbt.rxBufSize - mbt.rxBufCounter).toNat
    (embRtuPortEvent mbt (.dataReceived (.upTo waiting))).1
      = if got = [] then { mbt with rxBufCounter := 0 }
        else { mbt with
          rxBuffer := Mem.blit mbt.rxBuffer mbt.rxBufCounter.toNat got
          rxBufCounter := mbt.rxBufCounter + BitVec.ofNat 32 got.length } := by
  unfold embRtuPortEvent PortRead.upTo
  dsimp only
  cases waiting.take (mbt.rxBufSize - mbt.rxBufCounter).toNat with
  | nil => rfl
  | cons x xs => rfl

theorem BurstHolds.room {start : EmbRtu} {b : Burst} {g : Gathered} (h : BurstHolds start b g) :
    (b.mbt.rxBufSize - b.mbt.rxBufCounter).toNat = start.rxBufSize.toNat - g.kept.length := by
  have hlt := start.rxBufSize.isLt
  have hcnt := h.counter
  have hfit := h.fits
  rw [BitVec.toNat_sub, h.size]
  omega

theorem BurstHolds.step {start : EmbRtu} {b : Burst} {g : Gathered} (h : BurstHolds start b g)
    (i : BurstInput) :
    BurstHolds start (burstStep b i).1 (g.step start.rxBufSize.toNat i) := by
  cases i with
  | arrive bytes =>
    refine ⟨h.size, h.transport, h.counter, h.fits, h.buffer, ?_, h.handed⟩
    exact congrArg (· ++ bytes) h.waiting
  | dataReceived =>
    have hroom := h.room
    have hevent := dataReceived_upTo b.mbt b.waiting
    dsimp only at hevent
    unfold burstStep Gathered.step
    dsimp only
    rw [hroom, h.waiting] at hevent ⊢
    rw [hevent]
    by_cases hgot : g.waiting.take (start.rxBufSize.toNat - g.kept.length) = []
    · rw [if_pos hgot, if_pos hgot]
      refine ⟨h.size, h.transport, rfl, Nat.zero_le _, rfl, ?_, ?_⟩
      · have hsplit := List.take_append_drop (start.rxBufSize.toNat - g.kept.length) g.waiting
        rw [hgot, List.nil_append] at hsplit
        exact hsplit
      · change b.handed ++ _ = (g.lost ++ g.kept) ++ []
        rw [hgot, h.handed]
    · rw [if_neg hgot, if_neg hgot]
      have hlen := List.length_take_le (start.rxBufSize.toNat - g.kept.length) g.waiting
      have hfit := h.fits
      have hlt := start.rxBufSize.isLt
      refine ⟨h.size, h.transport, ?_, ?_, ?_, rfl, ?_⟩
      · dsimp only
        rw [BitVec.toNat_add, BitVec.toNat_ofNat, h.counter, List.length_append]
        omega
      · dsimp only
        rw [List.length_append]
        omega
      · dsimp only
        rw [h.counter]
        exact Mem.slice_blit_append _ _ h.buffer List.length_append
      · dsimp only
        rw [h.handed, List.append_assoc]

theorem burstHolds_run (start : EmbRtu) (ins : List BurstInput) {b : Burst} {g : Gathered}
    (h : BurstHolds start b g) :
    BurstHolds start (run burstStep b ins).1
      (ins.foldl (Gathered.step start.rxBufSize.toNat) g) := by
  induction ins generalizing b g with
  | nil => exact h
  | cons i ins ih => exact ih (h.step i)

/-! ## What is delivered -/

/-- A delivered PDU is all the high level hears, and it had room. -/
theorem upcalls_recvPacket {mbt : EmbRtu} {addr : ℤ} {q : EmbPdu}
    (h : Upcall.recvPacket addr q ∈ RtuOut.upcalls (rtuParsePacket mbt).2) :
    RtuOut.upcalls (rtuParsePacket mbt).2 = [.recvPacket addr q]
      ∧ ∃ p, mbt.transport.rxPdu = some p ∧ q.dataSize.toNat ≤ p.maxSize.toNat := by
  unfold rtuParsePacket at h ⊢
  dsimp only at h ⊢
  split_ifs at h ⊢ with hsize hcrc
  · simp [RtuOut.upcalls] at h
  · cases hp : mbt.transport.rxPdu with
    | none =>
      rw [hp] at h
      simp [RtuOut.upcalls] at h
    | some p =>
      rw [hp] at h
      dsimp only at h ⊢
      split_ifs at h ⊢ with hovf
      · simp [RtuOut.upcalls] at h
      · simp only [RtuOut.upcalls, List.mem_singleton] at h
        refine ⟨by simp [RtuOut.upcalls, h], p, rfl, ?_⟩
        cases h
        dsimp only
        rw [BitVec.toNat_ofInt]
        omega
  · simp [RtuOut.upcalls] at h

/-- A packet is delivered exactly if what the buffer holds is one that there is room for, and then
it is the decoding of that. -/
theorem delivered_iff {mbt : EmbRtu} {bytes : List Byte}
    (hcnt : mbt.rxBufCounter.toNat = bytes.length)
    (hbuf : Mem.slice mbt.rxBuffer 0 bytes.length = bytes) :
    (RtuAccepts mbt.transport.rxPdu bytes ↔
        ∃ addr q, Upcall.recvPacket addr q ∈ RtuOut.upcalls (rtuParsePacket mbt).2)
      ∧ ∀ addr q, Upcall.recvPacket addr q ∈ RtuOut.upcalls (rtuParsePacket mbt).2 →
        RtuDecoded bytes addr q := by
  have hdecoded : ∀ addr q, Upcall.recvPacket addr q ∈ RtuOut.upcalls (rtuParsePacket mbt).2 →
      RtuDecoded bytes addr q := by
    intro addr q h
    obtain ⟨haddr, hlen, hpkt⟩ := parsePacket_recvPacket (upcalls_recvPacket h).1
    rw [← hlen, hcnt, hbuf] at hpkt
    exact ⟨mbt.rxBuffer 0, haddr, hpkt⟩
  refine ⟨⟨?_, ?_⟩, hdecoded⟩
  · rintro ⟨p, addr, function, data, hp, rfl, hroom⟩
    have hmax := p.maxSize.isLt
    rw [length_rtuBytes] at hcnt hbuf
    obtain ⟨h0, h1, h2⟩ := packet_parts hbuf
    have hpkt : Mem.slice mbt.rxBuffer 0 (data.length + 4)
        = rtuBytes (mbt.rxBuffer 0) (mbt.rxBuffer 1) (Mem.slice mbt.rxBuffer 2 data.length) := by
      rw [hbuf, h0, h1, h2]
    have hparse := parsePacket_packet (by omega) hcnt hpkt hp
    rw [if_neg (by omega)] at hparse
    rw [hparse]
    exact ⟨_, _, List.mem_singleton.2 rfl⟩
  · rintro ⟨addr, q, h⟩
    obtain ⟨a, -, hbytes⟩ := hdecoded addr q h
    obtain ⟨p, hp, hroom⟩ := (upcalls_recvPacket h).2
    exact ⟨p, a, q.function, q.bytes, hp, hbytes, by rwa [EmbPdu.length_bytes]⟩

theorem BurstHolds.whole_iff {start : EmbRtu} {b : Burst} {g : Gathered}
    (h : BurstHolds start b g) :
    (∀ addr pdu, Upcall.recvPacket addr pdu ∈ RtuOut.upcalls (embRtuOnCharTimeout b.mbt).2 →
        RtuDecoded b.handed addr pdu)
      ↔ g.lost = [] ∨ ¬ RtuAccepts start.transport.rxPdu g.kept := by
  obtain ⟨hiff, hdecoded⟩ := delivered_iff h.counter h.buffer
  rw [h.transport] at hiff
  rw [hiff]
  change (∀ addr pdu, Upcall.recvPacket addr pdu ∈ RtuOut.upcalls (rtuParsePacket b.mbt).2 → _) ↔ _
  constructor
  · intro hall
    by_contra hcon
    push Not at hcon
    obtain ⟨hlost, addr, q, hq⟩ := hcon
    obtain ⟨a, -, hwhole⟩ := hall addr q hq
    obtain ⟨a', -, hkept⟩ := hdecoded addr q hq
    -- two packets with the same data have the same length
    have hlen := congrArg List.length hwhole
    have hlen' := congrArg List.length hkept
    rw [h.handed, List.length_append, length_rtuBytes] at hlen
    rw [length_rtuBytes] at hlen'
    exact hlost (List.eq_nil_of_length_eq_zero (by omega))
  · rintro (hlost | hnone) addr pdu hmem
    · rw [h.handed, hlost, List.nil_append]
      exact hdecoded addr pdu hmem
    · exact absurd ⟨addr, pdu, hmem⟩ hnone

/-- After a timeout the receiver holds nothing. -/
theorem burstHolds_start {start : EmbRtu} (h : start.rxBufCounter = 0) (waiting : List Byte) :
    BurstHolds start ⟨start, waiting, []⟩ ⟨[], [], waiting⟩ := by
  refine ⟨rfl, rfl, ?_, Nat.zero_le _, rfl, rfl, rfl⟩
  rw [h]
  rfl

/-- What a burst delivers is the decoding of all its bytes, if and only if no read that got nothing
came after others, or what was read since the last such read is no packet to be accepted. -/
theorem burst_whole_iff (mbt : EmbRtu) (waiting : List Byte) (ins : List BurstInput) :
    let start := (embRtuOnCharTimeout mbt).1
    let b := (run burstStep ⟨start, waiting, []⟩ ins).1
    let g := gather start.rxBufSize.toNat waiting ins
    (∀ addr pdu, Upcall.recvPacket addr pdu ∈ RtuOut.upcalls (embRtuOnCharTimeout b.mbt).2 →
        RtuDecoded b.handed addr pdu)
      ↔ g.lost = [] ∨ ¬ RtuAccepts start.transport.rxPdu g.kept :=
  (burstHolds_run (embRtuOnCharTimeout mbt).1 ins (burstHolds_start rfl waiting)).whole_iff

/-- A receiver with a buffer of eight bytes, for PDUs of 253, that holds nothing. -/
def burstReceiver : EmbRtu :=
  ⟨fun _ => 0, fun _ => 0, 8, 8, 0, 0, 0, ⟨some ⟨0, 0, 253, fun _ => 0⟩, true⟩⟩

/-- The buffer is filled, a read gets nothing, and the last five bytes of the burst are a packet. -/
def burstOfThirteen : List BurstInput :=
  [.arrive [9, 9, 9, 9, 9, 9, 9, 9], .dataReceived, .arrive [1, 3, 7, 97, 50], .dataReceived,
    .dataReceived]

theorem burst_part_delivered :
    let start := (embRtuOnCharTimeout burstReceiver).1
    let b := (run burstStep ⟨start, [], []⟩ burstOfThirteen).1
    ¬ ∀ addr pdu, Upcall.recvPacket addr pdu ∈ RtuOut.upcalls (embRtuOnCharTimeout b.mbt).2 →
      RtuDecoded b.handed addr pdu := by
  intro start b hall
  have hholds := burstHolds_run start burstOfThirteen (burstHolds_start rfl [])
  rcases hholds.whole_iff.1 hall with hlost | hnone
  · exact absurd hlost (by decide)
  · refine hnone ⟨⟨0, 0, 253, fun _ => 0⟩, 1, 3, [7], rfl, ?_, by simp⟩
    decide +kernel

end Emodbus
