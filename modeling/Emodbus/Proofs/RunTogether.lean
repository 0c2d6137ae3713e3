import Emodbus.Proofs.BitErrors

/-!
# Packets that run together

A station that misses a silence finds several packets in its buffer, one behind the other.  A packet
leaves nothing in the register, so what it was before the packet comes through it as so many shifts:
whether the whole passes for one packet depends on the lengths of those in the middle alone.
-/

namespace Emodbus

open Octets Lfsr

/-- What packets of these lengths, one behind the other, leave in the register. -/
def runTogether (lengths : List ℕ) : Word :=
  lengths.foldl (fun crc n => (shift crcPoly)^[8 * n] (crc ^^^ 0xFFFF)) 0xFFFF

/-- A byte string as the receiver is to find it in its buffer, and that passes for a packet. -/
structure PassesForPacket (bytes : List Byte) : Prop where
  long : 4 ≤ bytes.length
  short : bytes.length ≤ 65537
  passes : RtuCrcTest bytes

theorem PassesForPacket.leaves {bytes : List Byte} (h : PassesForPacket bytes) :
    bytes.foldl crcStep 0xFFFF = 0#16 :=
  have hlong := h.long
  (rtuCrcTest_iff (by omega) h.short).1 h.passes

/-- Whatever was in the register comes through a packet as so many shifts. -/
theorem PassesForPacket.foldl {bytes : List Byte} (h : PassesForPacket bytes) (crc : Word) :
    bytes.foldl crcStep crc = (shift crcPoly)^[8 * bytes.length] (crc ^^^ 0xFFFF) := by
  have hleaves := h.leaves
  rw [foldl_crcStep] at hleaves ⊢
  rw [reg_from crcPoly crc 0xFFFF, hleaves, BitVec.zero_xor]

theorem foldl_flatten {packets : List (List Byte)} (h : ∀ p ∈ packets, PassesForPacket p)
    (crc : Word) :
    packets.flatten.foldl crcStep crc
      = (packets.map List.length).foldl
          (fun crc n => (shift crcPoly)^[8 * n] (crc ^^^ 0xFFFF)) crc := by
  induction packets generalizing crc with
  | nil => rfl
  | cons p packets ih =>
    rw [List.flatten_cons, List.foldl_append, (h p List.mem_cons_self).foldl, List.map_cons,
      List.foldl_cons]
    exact ih (fun q hq => h q (List.mem_cons_of_mem _ hq)) _

theorem runTogether_one (a : ℕ) : runTogether [a] = 0 := by
  simp only [runTogether, List.foldl_cons, List.foldl_nil, BitVec.xor_self]
  exact iterate_shift_zero crcPoly _

theorem iterate_ones_ne_zero (n : ℕ) : (shift crcPoly)^[n] 0xFFFF ≠ 0#16 := by
  intro h
  rw [← iterate_shift_zero crcPoly n] at h
  have heq := (shift_injective crcPoly crcPoly_top).iterate n h
  exact absurd heq (by decide)

theorem runTogether_two (a b : ℕ) : runTogether [a, b] ≠ 0 := by
  have hone := runTogether_one a
  simp only [runTogether, List.foldl_cons, List.foldl_nil] at hone ⊢
  rw [hone, BitVec.ofNat_eq_ofNat, BitVec.zero_xor]
  exact iterate_ones_ne_zero (8 * b)

theorem crcPoly_avoids_ones :
    avoids crcPoly 0xFFFF#16 2048 (shift crcPoly 0xFFFF#16) = true := by decide +kernel

theorem runTogether_three (a : ℕ) {b : ℕ} (hb : 1 ≤ b ∧ b ≤ 256) (c : ℕ) :
    runTogether [a, b, c] ≠ 0 := by
  have hone := runTogether_one a
  simp only [runTogether, List.foldl_cons, List.foldl_nil] at hone ⊢
  rw [hone, BitVec.ofNat_eq_ofNat, BitVec.zero_xor]
  intro h
  -- the last packet finds what the one in the middle has left, and that is not what a packet is to
  -- find
  rw [← iterate_shift_zero crcPoly (8 * c)] at h
  have heq := BitVec.xor_eq_zero_iff.1
    ((shift_injective crcPoly crcPoly_top).iterate (8 * c) h)
  have hback := iterate_ne_of_avoids crcPoly_avoids_ones (8 * b - 1) (by omega)
  rw [← Function.iterate_succ_apply, Nat.succ_eq_add_one] at hback
  have hcancel : 8 * b - 1 + 1 = 8 * b := by omega
  rw [hcancel] at hback
  exact hback heq

/-- Two packets that run together never pass for one, and three only if the second has more than 256
bytes.  Whether more do is told by their lengths. -/
theorem packets_run_together {packets : List (List Byte)} (h : ∀ p ∈ packets, PassesForPacket p)
    (hne : packets ≠ []) (hmax : packets.flatten.length ≤ 65537) :
    (RtuCrcTest packets.flatten ↔ runTogether (packets.map List.length) = 0)
    ∧ (packets.length = 2 → RtuReportsBadCrc packets.flatten)
    ∧ (packets.length = 3 → (∀ p ∈ packets, p.length ≤ 256) →
        RtuReportsBadCrc packets.flatten) := by
  have hlong : 4 ≤ packets.flatten.length := by
    obtain ⟨p, rest, rfl⟩ := List.exists_cons_of_ne_nil hne
    have hp := (h p List.mem_cons_self).long
    simp only [List.flatten_cons, List.length_append]
    omega
  have hiff : RtuCrcTest packets.flatten ↔ runTogether (packets.map List.length) = 0 := by
    rw [rtuCrcTest_iff (by omega) hmax, foldl_flatten h]
    rfl
  refine ⟨hiff, fun htwo => ?_, fun hthree hshort => ?_⟩
  · refine reportsBadCrc hlong hmax fun htest => ?_
    obtain ⟨a, b, rfl⟩ := List.length_eq_two.1 htwo
    exact runTogether_two _ _ (hiff.1 htest)
  · refine reportsBadCrc hlong hmax fun htest => ?_
    obtain ⟨a, b, c, rfl⟩ := List.length_eq_three.1 hthree
    have hb : b ∈ [a, b, c] := by simp
    have hlong' := (h b hb).long
    exact runTogether_three _ ⟨by omega, hshort b hb⟩ _ (hiff.1 htest)

theorem passesForPacket_short : PassesForPacket [1, 2, 0x81, 0xE1] :=
  ⟨by simp, by simp, by decide +kernel⟩

/-- A packet of four bytes three times: a station that misses two silences. -/
theorem packets_run_together_three :
    RtuReportsBadCrc ([[1, 2, 0x81, 0xE1], [1, 2, 0x81, 0xE1], [1, 2, 0x81, 0xE1]] :
      List (List Byte)).flatten := by
  have hall : ∀ p ∈ ([[1, 2, 0x81, 0xE1], [1, 2, 0x81, 0xE1], [1, 2, 0x81, 0xE1]] :
      List (List Byte)), p = [1, 2, 0x81, 0xE1] := by simp
  have hpasses : ∀ p ∈ ([[1, 2, 0x81, 0xE1], [1, 2, 0x81, 0xE1], [1, 2, 0x81, 0xE1]] :
      List (List Byte)), PassesForPacket p := fun p hp => (hall p hp).symm ▸ passesForPacket_short
  exact (packets_run_together hpasses (by simp) (by simp)).2.2 rfl fun p hp => by simp [hall p hp]

/-- Four may pass. -/
example : runTogether [4, 56, 4, 4] = 0 := by decide +kernel

/-! ## What follows a packet -/

theorem rtuCrcTest_packet {bytes : List Byte} (h4 : 4 ≤ bytes.length)
    (hmax : bytes.length ≤ 65537) :
    RtuCrcTest bytes ↔ ∃ addr function data, bytes = rtuBytes addr function data := by
  constructor
  · intro htest
    obtain ⟨n, hn⟩ : ∃ n, bytes.length = n + 4 := ⟨bytes.length - 4, by omega⟩
    have hsize : bytes.length - 2 = n + 2 := by omega
    unfold RtuCrcTest at htest
    dsimp only at htest
    rw [hsize] at htest
    have hpkt := (crc_eq_iff (fun i => bytes.getD i 0) n (by omega)).1 htest
    rw [← hn, slice_getD] at hpkt
    exact ⟨_, _, _, hpkt⟩
  · rintro ⟨addr, function, data, rfl⟩
    rw [rtuCrcTest_iff (by omega) hmax]
    unfold rtuBytes Mem.le
    rw [List.foldl_append]
    exact (crcStep_crcStep_eq_zero _ _ _).2 (by rw [mkWord_eq, Word.ofBytes_hi_lo]; rfl)

/-- A packet that comes in whole, in whatever pieces, is delivered. -/
theorem receive_delivers {mbt : EmbRtu} {addr function : Byte} {data : List Byte} {p : EmbPdu}
    {chunks : List (List Byte)} (hcnt : mbt.rxBufCounter = 0)
    (hfit : data.length + 4 ≤ mbt.rxBufSize.toNat) (hne : ∀ c ∈ chunks, c ≠ [])
    (hbytes : chunks.flatten = rtuBytes addr function data)
    (hp : mbt.transport.rxPdu = some p) (hroom : data.length ≤ p.maxSize.toNat) :
    ∃ q, (rtuReceive mbt chunks).2 = [.recvPacket addr.toNat q] ∧ q.function = function
      ∧ q.bytes = data := by
  obtain ⟨r, htr, hrcnt, hrbuf, hrun⟩ := receive_packet chunks hfit hcnt hne hbytes
  obtain ⟨haddr, hfunction, hdata⟩ := packet_parts hrbuf
  have hn : data.length ≤ 255 := by
    have hmax := p.maxSize.isLt
    omega
  have hpkt : Mem.slice r.rxBuffer 0 (data.length + 4)
      = rtuBytes (r.rxBuffer 0) (r.rxBuffer 1) (Mem.slice r.rxBuffer 2 data.length) := by
    rw [hrbuf, haddr, hfunction, hdata]
  have hparse := parsePacket_packet hn hrcnt hpkt (by rwa [htr])
  rw [if_neg (by omega)] at hparse
  refine ⟨p.copied r.rxBuffer data.length, ?_, hfunction, ?_⟩
  · rw [hrun, embRtuOnCharTimeout, hparse, haddr]
    rfl
  · rw [EmbPdu.bytes_copied p _ hn, hdata]

theorem bitAt_replicate_zero (n k : ℕ) : bitAt (List.replicate n 0) k = false := by
  unfold bitAt
  rw [List.getD_eq_getElem?_getD, List.getElem?_replicate]
  split_ifs <;> simp

/-- What follows a packet in the buffer is told from it exactly if it leaves something in an empty
register.  Two bytes that are not both zero are; nothing but zeros is not, and the packet is
delivered with the CRC and the zeros at the end of its data. -/
theorem trailing_bytes {bytes rest : List Byte} (h : PassesForPacket bytes)
    (hmax : bytes.length + rest.length ≤ 65537) :
    (RtuCrcTest (bytes ++ rest) ↔ rest.foldl crcStep 0 = 0#16)
    ∧ (rest ≠ List.replicate rest.length 0 → rest.length ≤ 2 → RtuReportsBadCrc (bytes ++ rest))
    ∧ (rest = List.replicate rest.length 0 → ∀ (receiver : EmbRtu) (p : EmbPdu)
        (chunks : List (List Byte)), receiver.rxBufCounter = 0 →
      bytes.length + rest.length ≤ receiver.rxBufSize.toNat →
      receiver.transport.rxPdu = some p → bytes.length + rest.length ≤ p.maxSize.toNat + 4 →
      (∀ c ∈ chunks, c ≠ []) → chunks.flatten = bytes ++ rest →
      ∃ addr q, (rtuReceive receiver chunks).2 = [.recvPacket addr q]
        ∧ q.bytes = ((bytes ++ rest).drop 2).take (bytes.length + rest.length - 4)) := by
  have hlong := h.long
  have hlen : (bytes ++ rest).length = bytes.length + rest.length := List.length_append
  have hiff : RtuCrcTest (bytes ++ rest) ↔ rest.foldl crcStep 0 = 0#16 := by
    rw [rtuCrcTest_iff (by omega) (by omega), List.foldl_append, h.leaves]
    rfl
  refine ⟨hiff, fun hrest htwo => ?_, ?_⟩
  · refine reportsBadCrc (by omega) (by omega) fun htest => ?_
    have hzero := hiff.1 htest
    rw [foldl_crcStep] at hzero
    have hwindow : ∀ k < 8 * rest.length, bitAt rest k = true → 0 ≤ k ∧ k < 0 + 16 :=
      fun k hk _ => by omega
    refine reg_ne_zero_of_window crcPoly_top hwindow ?_ hzero
    by_contra hnone
    refine hrest (eq_of_bitAt_eq (by simp) fun k => ?_)
    rw [bitAt_replicate_zero]
    by_cases hk : k < 8 * rest.length
    · by_contra hbit
      exact hnone ⟨k, hk, by simpa using hbit⟩
    · exact bitAt_of_ge (by omega)
  · intro hrest receiver p chunks hcnt hfit hp hroom hne hbytes
    have htest : RtuCrcTest (bytes ++ rest) := by
      rw [hiff, hrest, foldl_crcStep, reg_false crcPoly _ fun k _ => bitAt_replicate_zero _ k]
      exact iterate_shift_zero crcPoly _
    obtain ⟨addr, function, data, hpkt⟩ := (rtuCrcTest_packet (by omega) (by omega)).1 htest
    have hdata : data.length + 4 = bytes.length + rest.length := by
      rw [← hlen, hpkt, length_rtuBytes]
    obtain ⟨q, hq, -, hqbytes⟩ := receive_delivers hcnt (by omega) hne (hbytes.trans hpkt) hp
      (by omega)
    refine ⟨addr.toNat, q, hq, ?_⟩
    have hcut : bytes.length + rest.length - 4 = data.length := by omega
    rw [hqbytes, hpkt, hcut]
    simp [rtuBytes]

theorem trailing_bytes_two :
    RtuCrcTest ([1, 2, 0x81, 0xE1] ++ [0, 0]) ∧ RtuReportsBadCrc ([1, 2, 0x81, 0xE1] ++ [0, 5]) :=
  ⟨(@trailing_bytes [1, 2, 0x81, 0xE1] [0, 0] passesForPacket_short (by simp)).1.2
      (by decide +kernel),
    (@trailing_bytes [1, 2, 0x81, 0xE1] [0, 5] passesForPacket_short (by simp)).2.1 (by decide)
      (by simp)⟩

end Emodbus
