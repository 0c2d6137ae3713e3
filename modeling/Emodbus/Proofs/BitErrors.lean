import Emodbus.BitErrors
import Emodbus.Proofs.Crc
import Emodbus.Proofs.RtuFraming

/-!
# Which bit errors the CRC shows

The bytes of a packet, its CRC included, leave zero in the register.  So the difference of two
packets of the same length leaves zero in a register that starts at zero, and there are differences
that do not.
-/

namespace Emodbus

open Octets Lfsr

/-! ## The test -/

theorem crcPoly_top : crcPoly.getLsbD (16 - 1) = true := by decide

theorem iterate_shift_byte (b : Byte) :
    (shift crcPoly)^[8] (b.setWidth 16 <<< 8) = (b.setWidth 16 : Word) := by
  refine iterate_shift_shiftLeft crcPoly fun i hi => ?_
  rw [BitVec.getLsbD_setWidth, BitVec.getLsbD_of_ge b i (by omega), Bool.and_false]

theorem mkWord_eq_xor (l h : Byte) :
    mkWord l h = l.setWidth 16 ^^^ (h.setWidth 16 <<< 8) := by
  unfold mkWord
  refine BitVec.eq_of_getLsbD_eq fun i hi => ?_
  simp only [BitVec.getLsbD_or, BitVec.getLsbD_xor, BitVec.getLsbD_setWidth,
    BitVec.getLsbD_shiftLeft]
  by_cases h8 : i < 8
  · simp [h8]
  · simp [h8, BitVec.getLsbD_of_ge l i (by omega)]

theorem xor_eq_iff {w : ℕ} {a b c : BitVec w} : a ^^^ b = c ↔ a = b ^^^ c := by
  constructor
  · rintro rfl
    rw [BitVec.xor_comm a, ← BitVec.xor_assoc, BitVec.xor_self, BitVec.zero_xor]
  · rintro rfl
    rw [BitVec.xor_comm b, BitVec.xor_assoc, BitVec.xor_self, BitVec.xor_zero]

/-- The two bytes behind a CRC bring it to zero if and only if they are the CRC, low byte first. -/
theorem crcStep_crcStep_eq_zero (crc : Word) (l h : Byte) :
    crcStep (crcStep crc l) h = 0#16 ↔ crc = mkWord l h := by
  have hinj := (shift_injective crcPoly crcPoly_top).iterate 8
  have hzero (s : Word) : (shift crcPoly)^[8] s = 0#16 ↔ s = 0#16 := by
    constructor
    · intro hs
      exact hinj (hs.trans (iterate_shift_zero crcPoly 8).symm)
    · rintro rfl
      exact iterate_shift_zero crcPoly 8
  rw [crcStep_eq _ h, hzero, BitVec.xor_eq_zero_iff, crcStep_eq, ← iterate_shift_byte h,
    hinj.eq_iff, xor_eq_iff, ← mkWord_eq_xor]

/-- The test of the receiver, on its buffer. -/
theorem crc_test_iff (buf : Mem Byte) {n : ℕ} (hn : n ≤ 65535) :
    crc16 buf (BitVec.ofInt 16 n) = mkWord (buf n) (buf (n + 1))
      ↔ (Mem.slice buf 0 (n + 2)).foldl crcStep 0xFFFF = 0#16 := by
  have hlen : (BitVec.ofInt 16 (n : ℤ)).toNat = n := by
    rw [BitVec.toNat_ofInt]
    omega
  have hslice : Mem.slice buf 0 (n + 2) = Mem.slice buf 0 n ++ [buf n, buf (n + 1)] := by
    rw [Mem.slice_add, Nat.zero_add, Mem.slice_succ, Mem.slice_succ, Mem.slice_zero]
  rw [hslice, List.foldl_append, List.foldl_cons, List.foldl_cons, List.foldl_nil,
    crcStep_crcStep_eq_zero, crc16, hlen, crcOf]

theorem slice_getD (bytes : List Byte) :
    Mem.slice (fun i => bytes.getD i 0) 0 bytes.length = bytes := by
  rw [Mem.slice_eq_iff]
  refine ⟨rfl, fun i hi => ?_⟩
  simp [List.getD_eq_getElem?_getD, List.getElem?_eq_getElem hi]

theorem rtuCrcTest_iff {bytes : List Byte} (h2 : 2 ≤ bytes.length)
    (hmax : bytes.length ≤ 65537) :
    RtuCrcTest bytes ↔ bytes.foldl crcStep 0xFFFF = 0#16 := by
  have hn : bytes.length - 2 + 2 = bytes.length := by omega
  have htest := crc_test_iff (fun i => bytes.getD i 0) (n := bytes.length - 2) (by omega)
  rwa [hn, slice_getD] at htest

/-- A packet in the buffer that fails the test is reported, and nothing else is done with it. -/
theorem parsePacket_badCrc {mbt : EmbRtu} {bytes : List Byte} (h4 : 4 ≤ bytes.length)
    (hmax : bytes.length ≤ 65537) (hcnt : mbt.rxBufCounter.toNat = bytes.length)
    (hbuf : Mem.slice mbt.rxBuffer 0 bytes.length = bytes) (htest : ¬ RtuCrcTest bytes) :
    rtuParsePacket mbt = (mbt, [.upcall (.error (-modbusBadCrc))]) := by
  have hn : bytes.length - 2 + 2 = bytes.length := by omega
  have hsize : (mbt.rxBufCounter - 2).toInt = ((bytes.length - 2 : ℕ) : ℤ) := by
    have h := @size_eq mbt.rxBufCounter (bytes.length - 4) (by omega) (by omega)
    rw [h]
    omega
  have hcrc := crc_test_iff mbt.rxBuffer (n := bytes.length - 2) (by omega)
  rw [hn, hbuf, ← rtuCrcTest_iff (by omega) hmax] at hcrc
  unfold rtuParsePacket
  dsimp only
  rw [hsize, if_pos (by omega), Int.toNat_natCast, if_pos (fun h => htest (hcrc.1 h))]

/-- Bytes that fail the test are reported, whatever the pieces they come in. -/
theorem reportsBadCrc {bytes : List Byte} (h4 : 4 ≤ bytes.length) (hmax : bytes.length ≤ 65537)
    (htest : ¬ RtuCrcTest bytes) : RtuReportsBadCrc bytes := by
  intro receiver chunks hzero hfit hne hbytes
  obtain ⟨r, -, hcnt, hbuf, hrun⟩ := receive_bytes chunks (by rwa [hbytes]) hzero hne
  rw [hbytes] at hcnt hbuf
  rw [hrun]
  unfold embRtuOnCharTimeout
  rw [parsePacket_badCrc h4 hmax hcnt hbuf htest]
  rfl

/-- A frame the transport sends passes the test. -/
theorem rtuCrcTest_sent {mbt : EmbRtu} {pdu : EmbPdu} (addr : ℤ)
    (wrote : List Byte → ℤ × BitVec 32)
    (hfit : pdu.dataSize.toNat + 4 ≤ mbt.txBufSize.toNat) :
    RtuCrcTest (rtuSent mbt addr pdu wrote) := by
  have hds := pdu.dataSize.isLt
  rw [rtuSent_eq addr wrote hfit]
  rw [rtuCrcTest_iff (by simp) (by simp; omega)]
  unfold rtuBytes Mem.le
  rw [List.foldl_append]
  exact (crcStep_crcStep_eq_zero _ _ _).2 (by rw [mkWord_eq, Word.ofBytes_hi_lo]; rfl)

/-! ## Differences -/

/-- Two packets of one length leave a difference that leaves nothing in the register. -/
theorem reg_difference {bytes bytes' : List Byte} (hlen : bytes'.length = bytes.length)
    (h2 : 2 ≤ bytes.length) (hmax : bytes.length ≤ 65537) (h : RtuCrcTest bytes)
    (h' : RtuCrcTest bytes') :
    reg crcPoly 0#16 (fun k => bitAt bytes k ^^ bitAt bytes' k) (8 * bytes.length) = 0#16 := by
  rw [rtuCrcTest_iff h2 hmax, foldl_crcStep] at h
  rw [rtuCrcTest_iff (by omega) (by omega), foldl_crcStep, hlen] at h'
  have hxor := reg_xor crcPoly 0xFFFF 0xFFFF (bitAt bytes) (bitAt bytes') (8 * bytes.length)
  rw [h, h', BitVec.xor_self, BitVec.xor_self] at hxor
  exact hxor

/-- Of two different byte strings of one length whose bits differ within a window of 16, one fails
the test; so a packet hit by such a burst is reported, and never delivered. -/
theorem burst_errors_detected {bytes bytes' : List Byte} (hlen : bytes'.length = bytes.length)
    (h4 : 4 ≤ bytes.length) (hmax : bytes.length ≤ 65537) (hne : bytes ≠ bytes') (start : ℕ)
    (hwindow : ∀ k, bitAt bytes k ≠ bitAt bytes' k → start ≤ k ∧ k < start + 16) :
    ¬ (RtuCrcTest bytes ∧ RtuCrcTest bytes')
    ∧ (RtuCrcTest bytes → RtuReportsBadCrc bytes')
    ∧ ∀ (sender : EmbRtu) (addr : ℤ) (pdu : EmbPdu) (wrote : List Byte → ℤ × BitVec 32),
      pdu.dataSize.toNat + 4 ≤ sender.txBufSize.toNat → rtuSent sender addr pdu wrote = bytes →
      RtuReportsBadCrc bytes' := by
  have hboth : ¬ (RtuCrcTest bytes ∧ RtuCrcTest bytes') := by
    rintro ⟨h, h'⟩
    refine reg_ne_zero_of_window crcPoly_top (fun k _ hk => hwindow k (by simpa using hk)) ?_
      (reg_difference hlen (by omega) hmax h h')
    by_contra hnone
    refine hne (eq_of_bitAt_eq hlen.symm fun k => ?_)
    by_cases hk : k < 8 * bytes.length
    · by_contra hdiff
      exact hnone ⟨k, hk, by simpa using hdiff⟩
    · rw [bitAt_of_ge (by omega), bitAt_of_ge (by omega)]
  have hreports : RtuCrcTest bytes → RtuReportsBadCrc bytes' := fun h =>
    reportsBadCrc (by omega) (by omega) fun h' => hboth ⟨h, h'⟩
  refine ⟨hboth, hreports, ?_⟩
  rintro sender addr pdu wrote hfit rfl
  exact hreports (rtuCrcTest_sent addr wrote hfit)

/-- A burst over the border between the data and the CRC. -/
theorem burst_errors_detected_border : RtuReportsBadCrc [1, 3, 6, 96, 50] := by
  have hbits : ∀ k < 40, bitAt [1, 3, 7, 97, 50] k ≠ bitAt [1, 3, 6, 96, 50] k →
      16 ≤ k ∧ k < 16 + 16 := by
    decide +kernel
  refine (@burst_errors_detected [1, 3, 7, 97, 50] [1, 3, 6, 96, 50] rfl (by simp) (by simp)
    (by simp) 16 ?_).2.1 (by decide +kernel)
  intro k hk
  by_cases hlt : k < 40
  · exact hbits k hlt hk
  · rw [bitAt_of_ge (by simpa using hlt), bitAt_of_ge (by simpa using hlt)] at hk
    exact absurd rfl hk

/-! ## Single bits -/

theorem crcPoly_parity : parity crcPoly = 1 := by decide +kernel

/-- The register does not come back to 1 within 256 bytes. -/
theorem crcPoly_avoids : avoids crcPoly 1#16 2047 (shift crcPoly 1#16) = true := by decide +kernel

theorem flipBits_difference (places : Finset ℕ) (bytes : List Byte) (s : Word) :
    reg crcPoly s (fun k => bitAt bytes k ^^ bitAt (flipBits places bytes) k) (8 * bytes.length)
      = reg crcPoly s (fun k => decide (k ∈ places)) (8 * bytes.length) := by
  refine reg_congr crcPoly s fun k hk => ?_
  rw [bitAt_flipBits places hk, ← Bool.xor_assoc, Bool.xor_self, Bool.false_xor]

/-- Neither an odd number of inverted bits nor, in a buffer of 256 bytes, two of them pass the
test. -/
theorem odd_and_double_errors_detected {bytes : List Byte} (h4 : 4 ≤ bytes.length)
    (htest : RtuCrcTest bytes) (places : Finset ℕ) (hplaces : ∀ k ∈ places, k < 8 * bytes.length) :
    (bytes.length ≤ 65537 → Odd places.card → ¬ RtuCrcTest (flipBits places bytes))
    ∧ (bytes.length ≤ 256 → places.card = 2 → ¬ RtuCrcTest (flipBits places bytes)) := by
  constructor
  · intro hmax hodd htest'
    have hdiff := reg_difference (length_flipBits places bytes) (by omega) hmax htest htest'
    rw [flipBits_difference] at hdiff
    have hfilter : (Finset.range (8 * bytes.length)).filter (fun k => decide (k ∈ places) = true)
        = places := by
      ext k
      simp only [Finset.mem_filter, Finset.mem_range, decide_eq_true_eq]
      exact ⟨fun h => h.2, fun h => ⟨hplaces k h, h⟩⟩
    exact reg_ne_zero_of_odd crcPoly_parity (by rwa [hfilter]) hdiff
  · intro hmax htwo htest'
    have hdiff := reg_difference (length_flipBits places bytes) (by omega) (by omega) htest htest'
    rw [flipBits_difference] at hdiff
    obtain ⟨x, y, hxy, rfl⟩ := Finset.card_eq_two.1 htwo
    obtain ⟨a, b, hab, hset⟩ : ∃ a b, a < b ∧ ({x, y} : Finset ℕ) = {a, b} := by
      rcases Nat.lt_or_gt_of_ne hxy with h | h
      · exact ⟨x, y, h, rfl⟩
      · exact ⟨y, x, h, Finset.pair_comm x y⟩
    rw [hset] at hplaces hdiff
    have hb := hplaces b (by simp)
    have hback := iterate_ne_of_avoids crcPoly_avoids (b - a - 1) (by omega)
    rw [← Function.iterate_succ_apply, Nat.succ_eq_add_one,
      Nat.sub_add_cancel (by omega)] at hback
    exact reg_ne_zero_of_pair crcPoly_top hab hb (by simp) hback hdiff

/-- Three bits of a packet, and two. -/
theorem odd_and_double_errors_detected_five :
    ¬ RtuCrcTest (flipBits {0, 9, 33} [1, 3, 7, 97, 50])
      ∧ ¬ RtuCrcTest (flipBits {3, 39} [1, 3, 7, 97, 50]) := by
  constructor
  · exact (@odd_and_double_errors_detected [1, 3, 7, 97, 50] (by simp) (by decide +kernel)
      {0, 9, 33} (by simp)).1 (by simp) (by decide)
  · exact (@odd_and_double_errors_detected [1, 3, 7, 97, 50] (by simp) (by decide +kernel)
      {3, 39} (by simp)).2 (by simp) (by simp)

end Emodbus
