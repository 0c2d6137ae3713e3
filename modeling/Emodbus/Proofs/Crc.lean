import Emodbus.Lib.Bits
import Emodbus.Lib.Lfsr
import Emodbus.SimpleCrc

/-!
# The table and the shifts

An entry of `wCRCTable` is eight shifts of its index, and a shift is linear, so a turn of `crc16` is
eight shifts of the CRC with the byte put into its low half.  Bit by bit, the CRC of some bytes is
what they leave in the register.
-/

namespace Emodbus

open Octets Lfsr

/-- The polynomial of the CRC, lowest power in the top bit. -/
def crcPoly : Word := 0xA001

theorem wCRCTable_eq :
    ∀ i < 256, wCRCTable.getD i 0 = (shift crcPoly)^[8] (BitVec.ofNat 16 i) := by
  decide +kernel

theorem simpleCrcShift_eq (crc : Word) : simpleCrcShift crc = shift crcPoly crc := by
  have hlow : crc &&& 0x0001 ≠ 0 ↔ crc.getLsbD 0 = true := by
    have h := BitVec.and_one_eq_setWidth_ofBool_getLsbD (x := crc)
    cases hb : crc.getLsbD 0 <;> rw [hb] at h <;> simp [h]
  unfold simpleCrcShift shift crcPoly
  simp only [hlow]

/-- The table answers for the low byte, and the high byte only moves. -/
theorem crcStep_eq (crc : Word) (data : Byte) :
    crcStep crc data = (shift crcPoly)^[8] (crc ^^^ data.setWidth 16) := by
  have hsplit : crc ^^^ data.setWidth 16
      = ((crc >>> 8) <<< 8) ^^^ (data ^^^ crc.setWidth 8).setWidth 16 := by
    refine BitVec.eq_of_getLsbD_eq fun i hi => ?_
    simp only [BitVec.getLsbD_xor, BitVec.getLsbD_setWidth, BitVec.getLsbD_shiftLeft,
      BitVec.getLsbD_ushiftRight]
    by_cases h8 : i < 8
    · simp [h8, hi, Bool.xor_comm]
    · have hback : 8 + (i - 8) = i := by omega
      rw [hback, BitVec.getLsbD_of_ge data i (by omega)]
      simp [h8, hi]
  have hhigh : (shift crcPoly)^[8] ((crc >>> 8) <<< 8) = crc >>> 8 := by
    refine iterate_shift_shiftLeft crcPoly fun i hi => ?_
    rw [BitVec.getLsbD_ushiftRight]
    exact BitVec.getLsbD_of_ge crc _ (by omega)
  have htable := wCRCTable_eq (data ^^^ crc.setWidth 8).toNat (BitVec.isLt _)
  rw [BitVec.ofNat_toNat] at htable
  unfold crcStep
  dsimp only
  rw [hsplit, iterate_shift_xor, hhigh, htable]

theorem simpleCrcStep_eq (crc : Word) (data : Byte) :
    simpleCrcStep crc data = crcStep crc data := by
  have hshift : simpleCrcShift = shift crcPoly := funext simpleCrcShift_eq
  rw [crcStep_eq, simpleCrcStep, hshift]

theorem crc16_eq (buf : Mem Byte) (len : Word) :
    crc16 buf len = simpleCrc16 buf (len.setWidth 32) := by
  have hstep : simpleCrcStep = crcStep := funext fun c => funext fun b => simpleCrcStep_eq c b
  have hlen : (len.setWidth 32).toNat = len.toNat := by
    have := len.isLt
    rw [BitVec.toNat_setWidth, Nat.mod_eq_of_lt (by omega)]
  unfold crc16 crcOf simpleCrc16
  rw [hstep, hlen]

/-- The two functions compute the same, and so the transport accepts and produces the same frames
with either. -/
theorem crc_functions_agree :
    (∀ (buf : Mem Byte) (len : Word), crc16 buf len = simpleCrc16 buf (len.setWidth 32))
    ∧ (∀ mbt : EmbRtu, mbt.rxBufCounter.toNat ≤ 65537 →
      rtuParsePacketWith simpleCrcFunction mbt = rtuParsePacket mbt)
    ∧ ∀ (mbt : EmbRtu) (slaveAddr : ℤ) (pdu : EmbPdu),
      buildPacketWith simpleCrcFunction mbt slaveAddr pdu = buildPacket mbt slaveAddr pdu := by
  have hagree : ∀ (buf : Mem Byte) (n : ℕ), n ≤ 65535 →
      simpleCrcFunction buf n = crcFunction buf n := by
    intro buf n hn
    unfold simpleCrcFunction crcFunction
    rw [crc16_eq]
    congr 1
    refine BitVec.eq_of_toNat_eq ?_
    rw [BitVec.toNat_setWidth, BitVec.toNat_ofInt, BitVec.toNat_ofInt]
    omega
  refine ⟨crc16_eq, fun mbt hcounter => ?_, fun mbt slaveAddr pdu => ?_⟩
  · rw [rtuParsePacket_eq_with]
    unfold rtuParsePacketWith
    dsimp only
    by_cases hsize : 2 ≤ (mbt.rxBufCounter - 2).toInt
    · obtain ⟨n, hn, hle⟩ : ∃ n : ℕ, (mbt.rxBufCounter - 2).toInt = n ∧ n ≤ 65535 := by
        have hcond := BitVec.toInt_eq_toNat_cond (mbt.rxBufCounter - 2)
        have hsub := BitVec.toNat_sub mbt.rxBufCounter 2
        have h2 : (2 : BitVec 32).toNat = 2 := rfl
        refine ⟨(mbt.rxBufCounter - 2).toInt.toNat, by omega, ?_⟩
        split_ifs at hcond <;> omega
      rw [if_pos hsize, if_pos hsize, hn, hagree _ _ hle]
    · rw [if_neg hsize, if_neg hsize]
  · have hsz : pdu.dataSize.toNat + 2 ≤ 65535 := by
      have := pdu.dataSize.isLt
      omega
    rw [buildPacket_eq_with]
    unfold buildPacketWith
    dsimp only
    rw [hagree _ _ hsz]

/-- A packet of five bytes in the buffer. -/
theorem crc_functions_agree_five :
    let mbt : EmbRtu := ⟨Mem.blit (fun _ => 0) 0 [1, 3, 7, 97, 50], fun _ => 0, 8, 8, 5, 0, 0,
      ⟨some ⟨0, 0, 253, fun _ => 0⟩, true⟩⟩
    rtuParsePacketWith simpleCrcFunction mbt = rtuParsePacket mbt :=
  crc_functions_agree.2.1 _ (by simp)

/-! ## Bit by bit -/

theorem crcStep_eq_reg (crc : Word) (data : Byte) (bytes : List Byte) :
    crcStep crc data = reg crcPoly crc (bitAt (data :: bytes)) 8 := by
  have hword : (data.setWidth 16 : Word) = word (bitAt (data :: bytes)) 8 := by
    refine BitVec.eq_of_getLsbD_eq fun i hi => ?_
    rw [getLsbD_word _ (by simp), BitVec.getLsbD_setWidth]
    by_cases h8 : i < 8
    · simp [h8, hi, bitAt_cons_of_lt]
    · simp [h8, BitVec.getLsbD_of_ge data i (by omega)]
  rw [crcStep_eq, reg_word _ _ _ (by simp), hword]

/-- What is left in the register once the bits of these bytes have gone in. -/
theorem foldl_crcStep (crc : Word) (bytes : List Byte) :
    bytes.foldl crcStep crc = reg crcPoly crc (bitAt bytes) (8 * bytes.length) := by
  induction bytes generalizing crc with
  | nil => rfl
  | cons b bytes ih =>
    have hlen : 8 * (b :: bytes).length = 8 + 8 * bytes.length := by
      rw [List.length_cons]
      omega
    rw [List.foldl_cons, ih, hlen, reg_add, ← crcStep_eq_reg]
    exact reg_congr crcPoly _ fun i _ => (bitAt_cons_add b bytes i).symm

end Emodbus
