import Emodbus.Proofs.Server
import Emodbus.ServerBits

/-!
# What the handlers for bits answer

As `Proofs.ServerRegs` is for registers.
-/

namespace Emodbus

open Octets

variable {σ : Type}

theorem and_seven_ne_zero (quantity : Word) : quantity &&& 7 ≠ 0 ↔ quantity.toNat % 8 ≠ 0 := by
  have hand : (quantity &&& 7).toNat = quantity.toNat % 8 := by
    rw [BitVec.toNat_and]
    exact Nat.and_two_pow_sub_one_eq_mod quantity.toNat 3
  rw [← hand]
  constructor
  · intro h h0
    exact h (BitVec.eq_of_toNat_eq h0)
  · intro h h0
    exact h (congrArg BitVec.toNat h0)

/-- The number of bytes, counted as a quotient and one more for a rest. -/
theorem toNat_countBytes {quantity : Word} {whole : Byte} (h : quantity.toNat ≤ 2000)
    (hwhole : whole.toNat = quantity.toNat / 8) :
    (whole + if quantity &&& 7 ≠ 0 then 1 else 0).toNat = (quantity.toNat + 7) / 8 := by
  have h1 : (1 : Byte).toNat = 1 := rfl
  have h0 : (0 : Byte).toNat = 0 := rfl
  split_ifs with hrest
  · rw [and_seven_ne_zero] at hrest
    rw [BitVec.toNat_add, hwhole, h1]
    omega
  · rw [and_seven_ne_zero] at hrest
    rw [BitVec.toNat_add, hwhole, h0]
    omega

theorem toNat_bitsByteCount {quantity : Word} (h : quantity.toNat ≤ 2000) :
    (bitsByteCount quantity).toNat = (quantity.toNat + 7) / 8 := by
  unfold bitsByteCount
  refine toNat_countBytes h ?_
  rw [BitVec.toNat_setWidth, BitVec.toNat_ushiftRight, Nat.shiftRight_eq_div_pow]
  omega

variable (srv : EmbServer σ) {r : SrvRun σ} {f : Byte} {a n : Word}

/-! ## Reading -/

theorem embSrvReadBits_answered {block : EmbSrvBits σ} {readBits} {values : List Byte}
    (hreq : r.rxPdu.Carries f (Mem.be [a, n])) (hn : 1 ≤ n.toNat ∧ n.toNat ≤ 2000)
    (htx : r.txPdu.maxSize = 253) (hfind : lookUp (bitsGetter srv f) a r.store = .ok block)
    (hfit : a.toNat + n.toNat ≤ block.start.toNat + block.size.toNat)
    (hread : block.readBits = some readBits)
    (hvalues : readBits (a - block.start) n r.store = (0, values, r.store))
    (hlen : values.length = (n.toNat + 7) / 8) :
    Answered (embSrvReadBits srv r) f ([bitsByteCount n] ++ values) r.store := by
  obtain ⟨h0, h2⟩ := two_words hreq
  have hcount := toNat_bitsByteCount hn.2
  have hsize : (BitVec.ofNat 8 (readCoilsAnsSize (bitsByteCount n).toNat)).toNat
      = 1 + (n.toNat + 7) / 8 := by
    rw [hcount]
    exact dataSize_of_lt (by unfold readCoilsAnsSize; omega)
  have hroom : ¬ r.txPdu.maxSize.toNat
      < (BitVec.ofNat 8 (readCoilsAnsSize (bitsByteCount n).toNat)).toNat := by
    rw [hsize, htx]
    change ¬ 253 < _
    omega
  have hblock : ¬ block.start.toNat + block.size.toNat < a.toNat + n.toNat := by omega
  unfold embSrvReadBits
  dsimp only
  rw [h0, h2, hreq.function, if_neg (not_not.2 hn), hfind]
  dsimp only
  rw [if_neg hblock, hread]
  dsimp only
  rw [if_neg hroom, hvalues]
  refine ⟨rfl, ⟨rfl, ?_⟩, rfl⟩
  unfold EmbPdu.bytes
  dsimp only
  rw [hsize]
  have h1 := Mem.slice_blit_append r.txPdu.data [bitsByteCount n] (Mem.slice_zero _ 0) (n := 1) rfl
  exact Mem.slice_blit_append _ _ h1 (by rw [hlen])

theorem embSrvReadBits_refused (hreq : r.rxPdu.Carries f (Mem.be [a, n]))
    (hn : 1 ≤ n.toNat ∧ n.toNat ≤ 2000)
    (hout : OutOfBlocks EmbSrvBits.stop (lookUp (bitsGetter srv f) a r.store) a.toNat n.toNat) :
    embSrvReadBits srv r = (mbeIllegalDataAddr, r) := by
  obtain ⟨h0, h2⟩ := two_words hreq
  unfold embSrvReadBits
  dsimp only
  rw [h0, h2, hreq.function, if_neg (not_not.2 hn)]
  rcases hout with hnone | ⟨block, hfind, hlt⟩
  · rw [hnone]
  · unfold EmbSrvBits.stop at hlt
    rw [hfind]
    dsimp only
    rw [if_pos hlt]

/-! ## Writing one coil -/

theorem embSrvWriteCoil_answered {value : Word} {block : EmbSrvBits σ} {writeBits} {store : σ}
    (hreq : r.rxPdu.Carries f (Mem.be [a, value])) (hvalue : value = 0x0000 ∨ value = 0xFF00)
    (htx : r.txPdu.maxSize = 253) (hfind : lookUp srv.getCoils a r.store = .ok block)
    (hwrite : block.writeBits = some writeBits)
    (hstore : writeBits (a - block.start) 1 [if value = 0x0000 then 0 else 1] r.store
      = (0, store)) :
    Answered (embSrvWriteCoil srv r) 0x05 (Mem.be [a, value]) store := by
  obtain ⟨h0, h2⟩ := two_words hreq
  have hroom : ¬ r.txPdu.maxSize.toNat < (BitVec.ofNat 8 writeCoilAnsSize).toNat := by
    rw [htx]
    decide
  unfold embSrvWriteCoil
  dsimp only
  rw [h0, h2, if_neg (not_not.2 hvalue), hfind]
  dsimp only
  rw [hwrite]
  dsimp only
  rw [if_neg hroom, hstore]
  exact ⟨rfl, ⟨rfl, slice_two _ _ _⟩, rfl⟩

theorem embSrvWriteCoil_refused {value : Word} (hreq : r.rxPdu.Carries f (Mem.be [a, value]))
    (hvalue : value = 0x0000 ∨ value = 0xFF00)
    (hout : lookUp srv.getCoils a r.store = .error mbeIllegalDataAddr) :
    embSrvWriteCoil srv r = (mbeIllegalDataAddr, r) := by
  obtain ⟨h0, h2⟩ := two_words hreq
  unfold embSrvWriteCoil
  dsimp only
  rw [h0, h2, if_neg (not_not.2 hvalue), hout]

/-! ## Writing coils -/

section WriteCoils

variable {values : List Byte}

theorem writeCoils_bytes
    (hreq : r.rxPdu.Carries f
      (Mem.be [a, n] ++ [BitVec.ofNat 8 ((n.toNat + 7) / 8)] ++ values))
    (hlen : values.length = (n.toNat + 7) / 8) :
    getBigEnd16 r.rxPdu.data 0 = a ∧ getBigEnd16 r.rxPdu.data 2 = n
      ∧ (r.rxPdu.dataSize.toNat : ℤ) - 5 = (r.rxPdu.data 4).toNat
      ∧ Mem.slice r.rxPdu.data 5 (bitsBytes n) = values := by
  have h4 : r.rxPdu.data 4 = BitVec.ofNat 8 ((n.toNat + 7) / 8) :=
    EmbPdu.Carries.byte (Mem.be [a, n]) values hreq
  have hreq' : r.rxPdu.bytes
      = (Mem.be [a, n] ++ [BitVec.ofNat 8 ((n.toNat + 7) / 8)]) ++ values ++ [] := by
    rw [List.append_nil]
    exact hreq.bytes
  have h5 := Mem.slice_of_append hreq'
  have hsize : r.rxPdu.dataSize.toNat = 5 + (n.toNat + 7) / 8 := by
    rw [hreq.dataSize, List.length_append, hlen]
    rfl
  refine ⟨EmbPdu.Carries.word [] _ hreq, EmbPdu.Carries.word (Mem.be [a]) _ hreq,
    ?_, ?_⟩
  · rw [h4, dataSize_of_lt (by omega), hsize]
    omega
  · unfold bitsBytes
    rw [← hlen]
    exact h5

theorem embSrvWriteCoils_answered {block : EmbSrvBits σ} {writeBits} {store : σ}
    (hreq : r.rxPdu.Carries f
      (Mem.be [a, n] ++ [BitVec.ofNat 8 ((n.toNat + 7) / 8)] ++ values))
    (hn : 1 ≤ n.toNat ∧ n.toNat ≤ 1968) (hlen : values.length = (n.toNat + 7) / 8)
    (htx : r.txPdu.maxSize = 253) (hfind : lookUp srv.getCoils a r.store = .ok block)
    (hfit : a.toNat + n.toNat ≤ block.start.toNat + block.size.toNat)
    (hwrite : block.writeBits = some writeBits)
    (hstore : writeBits (a - block.start) n values r.store = (0, store)) :
    Answered (embSrvWriteCoils srv r) 0x0F (Mem.be [a, n]) store := by
  obtain ⟨h0, h2, h4, h5⟩ := writeCoils_bytes hreq hlen
  have hroom : ¬ r.txPdu.maxSize.toNat < (BitVec.ofNat 8 writeCoilsAnsSize).toNat := by
    rw [htx]
    decide
  have hblock : ¬ block.start.toNat + block.size.toNat < a.toNat + n.toNat := by omega
  unfold embSrvWriteCoils
  dsimp only
  rw [h0, h2, if_neg (not_not.2 hn), if_neg (not_not.2 h4), hfind]
  dsimp only
  rw [if_neg hblock, hwrite]
  dsimp only
  rw [if_neg hroom, h5, hstore]
  exact ⟨rfl, ⟨rfl, slice_two _ _ _⟩, rfl⟩

theorem embSrvWriteCoils_refused
    (hreq : r.rxPdu.Carries f
      (Mem.be [a, n] ++ [BitVec.ofNat 8 ((n.toNat + 7) / 8)] ++ values))
    (hn : 1 ≤ n.toNat ∧ n.toNat ≤ 1968) (hlen : values.length = (n.toNat + 7) / 8)
    (hout : OutOfBlocks EmbSrvBits.stop (lookUp srv.getCoils a r.store) a.toNat n.toNat) :
    embSrvWriteCoils srv r = (mbeIllegalDataAddr, r) := by
  obtain ⟨h0, h2, h4, -⟩ := writeCoils_bytes hreq hlen
  unfold embSrvWriteCoils
  dsimp only
  rw [h0, h2, if_neg (not_not.2 hn), if_neg (not_not.2 h4)]
  rcases hout with hnone | ⟨block, hfind, hlt⟩
  · rw [hnone]
  · unfold EmbSrvBits.stop at hlt
    rw [hfind]
    dsimp only
    rw [if_pos hlt]

end WriteCoils

end Emodbus
