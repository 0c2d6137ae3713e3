import Emodbus.BitsRun
import Emodbus.Proofs.PackLoop
import Emodbus.Proofs.ServerBits

/-!
# What the client's functions for bits write and read
-/

namespace Emodbus

open Octets

theorem toNat_bytesCount {quantity : Word} (h : quantity.toNat ≤ 2000) :
    (bytesCount quantity).toNat = (quantity.toNat + 7) / 8 := by
  unfold bytesCount
  refine toNat_countBytes h ?_
  have h8 : (8 : Word).toNat = 8 := rfl
  rw [BitVec.toNat_setWidth, BitVec.toNat_udiv, h8]
  omega

/-! ## Requests -/

/-- A request that was built without an error. -/
structure BitsRequest.Built (request : BitsRequest) (pdu : EmbPdu) : Prop where
  inRange : request.InRange
  carries : pdu.Carries request.function request.bytes

theorem readBits_built {req : EmbPdu} {type : EmbRbType} {a n : Word}
    (h : (embReadBitsMakeReq req type a n).1 = 0) :
    (BitsRequest.readBits type a n).Built (embReadBitsMakeReq req type a n).2 := by
  unfold embReadBitsMakeReq at h ⊢
  split_ifs at h ⊢ with hmax hn
  · exact absurd h neg_enomem_ne
  · refine ⟨hn, ⟨?_, slice_two _ _ _⟩⟩
    cases type <;> rfl
  · exact absurd h neg_einval_ne

theorem writeCoil_built {req : EmbPdu} {a : Word} {value : Byte}
    (h : (embWriteCoilMakeReq req a value).1 = 0) :
    (BitsRequest.writeCoil a value).Built (embWriteCoilMakeReq req a value).2 := by
  unfold embWriteCoilMakeReq at h ⊢
  by_cases hmax : req.maxSize.toNat < writeCoilReqSize
  · rw [if_pos hmax] at h
    exact absurd h neg_enomem_ne
  · rw [if_neg hmax]
    exact ⟨trivial, ⟨rfl, slice_two _ _ _⟩⟩

theorem embWriteCoilsMakeReq_built {req : EmbPdu} {a n : Word} {pcoils : Mem Byte}
    {coils : Mem Bool} (h : (embWriteCoilsMakeReq req a n pcoils).1 = 0)
    (hcoils : Mem.slice pcoils 0 ((n.toNat + 7) / 8) = pack coils n.toNat) :
    (BitsRequest.writeCoils a n coils).Built (embWriteCoilsMakeReq req a n pcoils).2 := by
  unfold embWriteCoilsMakeReq at h ⊢
  dsimp only at h ⊢
  split_ifs at h ⊢ with hmax hn
  · exact absurd h neg_enomem_ne
  · have hn' : 1 ≤ n.toNat ∧ n.toNat ≤ 1968 := hn
    have hcount := toNat_bytesCount (show n.toNat ≤ 2000 by omega)
    have hcalc : BitVec.ofInt 8 (embWriteCoilsCalcReqDataSize n)
        = BitVec.ofNat 8 (5 + (n.toNat + 7) / 8) := by
      unfold embWriteCoilsCalcReqDataSize
      rw [if_pos hn, BitVec.ofInt_natCast, writeCoilsReqSize, hcount]
    have hsize : (BitVec.ofInt 8 (embWriteCoilsCalcReqDataSize n)).toNat
        = 5 + (n.toNat + 7) / 8 := by
      rw [hcalc, dataSize_of_lt (by omega)]
    have hcoilsCount : BitVec.ofInt 8 (embWriteCoilsCalcReqDataSize n) - 5
        = BitVec.ofNat 8 ((n.toNat + 7) / 8) := by
      have h5 : (5 : Byte).toNat = 5 := rfl
      apply BitVec.eq_of_toNat_eq
      rw [BitVec.toNat_sub, hsize, h5, dataSize_of_lt (by omega)]
      omega
    refine ⟨hn', ⟨rfl, ?_⟩⟩
    unfold EmbPdu.bytes
    dsimp only
    rw [hsize, hcoilsCount, dataSize_of_lt (by omega), hcoils]
    have h4 := Mem.slice_blit_append _ [BitVec.ofNat 8 ((n.toNat + 7) / 8)]
      (slice_two req.data a n) (n := 5) rfl
    exact Mem.slice_blit_append _ _ h4 (by rw [length_pack])
  · exact absurd h neg_einval_ne

theorem writeCoils_built {req pdu : EmbPdu} {a n : Word} {coils : Mem Bool}
    (h : writeCoilsBuildReq req a n coils = some (0, pdu)) :
    (BitsRequest.writeCoils a n coils).Built pdu := by
  unfold writeCoilsBuildReq at h
  dsimp only at h
  split_ifs at h with hsize
  rw [Option.some.injEq] at h
  have hcoils : Mem.slice (fun i => (packLoop coils n.toNat 0 n.toNat).getD i 0) 0
      ((n.toNat + 7) / 8) = pack coils n.toNat := by
    have hloop : packLoop coils n.toNat 0 n.toNat = pack coils n.toNat := by
      rw [packLoop_eq coils _ _ _ le_rfl]
      simp only [Nat.zero_mul, Nat.zero_add]
    rw [hloop, Mem.slice_eq_iff]
    refine ⟨length_pack _ _, fun i hi => ?_⟩
    rw [Nat.zero_add, List.getD_eq_getElem?_getD, List.getElem?_eq_getElem hi, Option.getD_some]
  have hbuilt := embWriteCoilsMakeReq_built (congrArg Prod.fst h) hcoils
  rwa [h] at hbuilt

theorem BitsRequest.built {request : BitsRequest} {req pdu : EmbPdu}
    (h : request.makeReq req = some (0, pdu)) : request.Built pdu := by
  cases request with
  | readBits type a n =>
    have hres : embReadBitsMakeReq req type a n = (0, pdu) := Option.some.inj h
    have hbuilt := readBits_built (congrArg Prod.fst hres)
    rwa [hres] at hbuilt
  | writeCoil a value =>
    have hres : embWriteCoilMakeReq req a value = (0, pdu) := Option.some.inj h
    have hbuilt := writeCoil_built (congrArg Prod.fst hres)
    rwa [hres] at hbuilt
  | writeCoils a n coils => exact writeCoils_built h

/-! ## Answers -/

/-- `emb_read_bits_get_bit` gives a bit of the bytes behind their number. -/
theorem embReadBitsGetBit_eq_bitAt {p : EmbPdu} {i : ℕ} (h : i / 8 + 1 < p.bytes.length) :
    (embReadBitsGetBit p i != 0) = bitAt (p.bytes.drop 1) i := by
  have hbyte : (p.bytes.drop 1).getD (i / 8) 0 = p.data (i / 8 + 1) := by
    have hat : p.bytes[i / 8 + 1]? = some (p.data (0 + (i / 8 + 1))) := by
      rw [EmbPdu.length_bytes] at h
      exact Mem.getElem?_slice _ h
    rw [Nat.zero_add] at hat
    rw [List.getD_eq_getElem?_getD, List.getElem?_drop, Nat.add_comm, hat, Option.getD_some]
  have hmod : i &&& 7 = i % 8 := Nat.and_two_pow_sub_one_eq_mod i 3
  unfold embReadBitsGetBit bitAt
  rw [hbyte, hmod]
  generalize p.data (i / 8 + 1) = x
  have hlsb : ((x >>> (i % 8)) &&& 1).getLsbD 0 = x.getLsbD (i % 8) := by
    simp
  cases hx : x.getLsbD (i % 8) with
  | true =>
    have hne : (x >>> (i % 8)) &&& 1 ≠ 0 := by
      intro h0
      rw [h0, hx] at hlsb
      simp at hlsb
    simpa using hne
  | false =>
    have hzero : (x >>> (i % 8)) &&& 1 = 0 := by
      refine BitVec.eq_of_getLsbD_eq fun j hj => ?_
      by_cases hj0 : j = 0
      · rw [hj0, hlsb, hx]
        simp
      · simp [hj0]
    rw [hzero]
    rfl

/-- What `emb_read_bits_get_bit` gives is the bit that was packed. -/
theorem embReadBitsGetBit_eq {p : EmbPdu} {f count : Byte} {bit : ℕ → Bool} {n i : ℕ}
    (hp : p.Carries f ([count] ++ pack bit n)) (hi : i < n) :
    (embReadBitsGetBit p i != 0) = bit i := by
  have hlen : p.bytes.length = 1 + (n + 7) / 8 := by
    rw [hp.bytes, List.length_append, List.length_singleton, length_pack]
  rw [embReadBitsGetBit_eq_bitAt (by omega), hp.bytes]
  exact bitAt_pack bit hi

end Emodbus
