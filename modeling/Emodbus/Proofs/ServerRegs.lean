import Emodbus.Proofs.Server
import Emodbus.ServerRegs

/-!
# What the handlers for registers answer

Where the block of a request is found and large enough, the handler answers with what the block's
callbacks give and leaves the store that they leave; elsewhere it changes nothing.
-/

namespace Emodbus

open Octets

variable {σ : Type}

variable (srv : EmbServer σ) {r : SrvRun σ}

/-- Words that were read into the response and swapped. -/
theorem slice_swapped (d : Mem Byte) (x : Byte) {values : List Word} {n : ℕ}
    (hlen : values.length = n) :
    Mem.slice (Mem.swapWords (Mem.blit (Mem.blit d 0 [x]) 1 (Mem.le values)) 1 n) 0 (1 + n * 2)
      = [x] ++ Mem.be values := by
  rw [← hlen, Mem.swapWords_blit_le]
  have h1 := Mem.slice_blit_append d [x] (Mem.slice_zero d 0) (n := 1) rfl
  exact Mem.slice_blit_append _ _ h1 (by rw [Mem.length_be]; omega)

/-- Two words that are echoed. -/
theorem slice_bigEnd (d : Mem Byte) (a b : Word) :
    Mem.slice (bigEndMk16 (bigEndMk16 d 0 a) 2 b) 0 4 = Mem.be [a, b] := by
  rw [bigEndMk16_eq, bigEndMk16_eq]
  have h1 := Mem.slice_blit_append d (Mem.be [a]) (Mem.slice_zero d 0) (n := 2) rfl
  exact Mem.slice_blit_append _ (Mem.be [b]) h1 rfl

/-! ## Reading -/

section ReadRegs

variable {f : Byte} {a n : Word}

theorem embSrvReadRegs_answers {block : EmbSrvRegs σ} {readRegs} {values : List Word}
    (hreq : r.rxPdu.Carries f (Mem.be [a, n])) (hn : 1 ≤ n.toNat ∧ n.toNat ≤ 125)
    (htx : 1 + n.toNat * 2 ≤ r.txPdu.maxSize.toNat)
    (hfind : lookUp (regsGetter srv f) a r.store = .ok block)
    (hfit : a.toNat + n.toNat ≤ block.start.toNat + block.size.toNat)
    (hread : block.readRegs = some readRegs)
    (hvalues : readRegs (a - block.start) n r.store = (0, values, r.store))
    (hlen : values.length = n.toNat) :
    Answered (embSrvReadRegs srv r) f
      ([BitVec.ofNat 8 (n.toNat * 2)] ++ Mem.be values) r.store := by
  obtain ⟨h0, h2⟩ := two_words hreq
  have hsize : (BitVec.ofNat 8 (readHoldingsAnsSize n.toNat)).toNat = 1 + n.toNat * 2 :=
    dataSize_of_lt (by unfold readHoldingsAnsSize; omega)
  have hroom : ¬ r.txPdu.maxSize.toNat < (BitVec.ofNat 8 (readHoldingsAnsSize n.toNat)).toNat := by
    rw [hsize]
    exact Nat.not_lt.2 htx
  have hblock : ¬ block.start.toNat + block.size.toNat < a.toNat + n.toNat := by omega
  have hcode : ¬ (0 : Byte) ≠ 0 := not_not.2 rfl
  unfold embSrvReadRegs
  dsimp only
  rw [h0, h2, hreq.function, hfind]
  dsimp only
  rw [if_neg (not_not.2 hn), if_neg hblock, hread]
  dsimp only
  rw [if_neg hroom, hvalues]
  dsimp only
  rw [if_neg hcode]
  refine ⟨rfl, ⟨rfl, ?_⟩, rfl⟩
  unfold EmbPdu.bytes
  dsimp only
  rw [hsize]
  exact slice_swapped _ _ hlen

theorem embSrvReadRegs_answered {block : EmbSrvRegs σ} {readRegs} {values : List Word}
    (hreq : r.rxPdu.Carries f (Mem.be [a, n])) (hn : 1 ≤ n.toNat ∧ n.toNat ≤ 125)
    (htx : r.txPdu.maxSize = 253) (hfind : lookUp (regsGetter srv f) a r.store = .ok block)
    (hfit : a.toNat + n.toNat ≤ block.start.toNat + block.size.toNat)
    (hread : block.readRegs = some readRegs)
    (hvalues : readRegs (a - block.start) n r.store = (0, values, r.store))
    (hlen : values.length = n.toNat) :
    Answered (embSrvReadRegs srv r) f
      ([BitVec.ofNat 8 (n.toNat * 2)] ++ Mem.be values) r.store := by
  have hroom : 1 + n.toNat * 2 ≤ r.txPdu.maxSize.toNat := by
    rw [htx]
    change _ ≤ 253
    omega
  exact embSrvReadRegs_answers srv hreq hn hroom hfind hfit hread hvalues hlen

theorem embSrvReadRegs_refused (hreq : r.rxPdu.Carries f (Mem.be [a, n]))
    (hn : 1 ≤ n.toNat ∧ n.toNat ≤ 125)
    (hout : OutOfBlocks EmbSrvRegs.stop (lookUp (regsGetter srv f) a r.store) a.toNat n.toNat) :
    embSrvReadRegs srv r = (mbeIllegalDataAddr, r) := by
  obtain ⟨h0, h2⟩ := two_words hreq
  unfold embSrvReadRegs
  dsimp only
  rw [h0, h2, hreq.function]
  rcases hout with hnone | ⟨block, hfind, hlt⟩
  · rw [hnone]
  · unfold EmbSrvRegs.stop at hlt
    rw [hfind]
    dsimp only
    rw [if_neg (not_not.2 hn), if_pos hlt]

end ReadRegs

/-! ## Writing one register -/

section WriteReg

variable {f : Byte} {a value : Word}

theorem embSrvWriteReg_answered {block : EmbSrvRegs σ} {writeRegs} {store : σ}
    (hreq : r.rxPdu.Carries f (Mem.be [a, value])) (htx : r.txPdu.maxSize = 253)
    (hfind : lookUp srv.getHoldingRegs a r.store = .ok block)
    (hwrite : block.writeRegs = some writeRegs)
    (hstore : writeRegs (a - block.start) 1 [value] r.store = (0, store)) :
    Answered (embSrvWriteReg srv r) 0x06 (Mem.be [a, value]) store := by
  obtain ⟨h0, h2⟩ := two_words hreq
  have hroom : ¬ r.txPdu.maxSize.toNat < writeRegisterAnsSize := by
    rw [htx]
    decide
  have hcode : ¬ (0 : Byte) ≠ 0 := not_not.2 rfl
  unfold embSrvWriteReg
  dsimp only
  rw [h0, h2, hfind]
  dsimp only
  rw [hwrite]
  dsimp only
  rw [hstore]
  dsimp only
  rw [if_neg hcode, if_neg hroom]
  exact ⟨rfl, ⟨rfl, slice_bigEnd _ _ _⟩, rfl⟩

theorem embSrvWriteReg_refused (hreq : r.rxPdu.Carries f (Mem.be [a, value]))
    (hout : lookUp srv.getHoldingRegs a r.store = .error mbeIllegalDataAddr) :
    embSrvWriteReg srv r = (mbeIllegalDataAddr, r) := by
  obtain ⟨h0, -⟩ := two_words hreq
  unfold embSrvWriteReg
  dsimp only
  rw [h0, hout]

end WriteReg

/-! ## Writing registers -/

section WriteRegs

variable {f : Byte} {a n : Word} {values : List Word}

theorem writeRegs_words
    (hreq : r.rxPdu.Carries f (Mem.be [a, n] ++ [BitVec.ofNat 8 (n.toNat * 2)] ++ Mem.be values))
    (hn : n.toNat ≤ 123) (hlen : values.length = n.toNat) :
    getBigEnd16 r.rxPdu.data 0 = a ∧ getBigEnd16 r.rxPdu.data 2 = n
      ∧ (r.rxPdu.data 4).toNat = n.toNat * 2
      ∧ Mem.leWords (Mem.swapWords r.rxPdu.data 5 n.toNat) 5 n.toNat = values := by
  have h4 : r.rxPdu.data 4 = BitVec.ofNat 8 (n.toNat * 2) :=
    EmbPdu.Carries.byte (Mem.be [a, n]) (Mem.be values) hreq
  have hreq' : r.rxPdu.Carries f
      ((Mem.be [a, n] ++ [BitVec.ofNat 8 (n.toNat * 2)]) ++ Mem.be values ++ []) := by
    rw [List.append_nil]
    exact hreq
  have h5 : Mem.beWords r.rxPdu.data 5 values.length = values := hreq'.words
  refine ⟨EmbPdu.Carries.word [] _ hreq, EmbPdu.Carries.word (Mem.be [a]) _ hreq,
    ?_, ?_⟩
  · rw [h4, dataSize_of_lt (by omega)]
  · rw [Mem.leWords_swapWords, ← hlen, h5]

theorem embSrvWriteRegs_answered {block : EmbSrvRegs σ} {writeRegs} {store : σ}
    (hreq : r.rxPdu.Carries f (Mem.be [a, n] ++ [BitVec.ofNat 8 (n.toNat * 2)] ++ Mem.be values))
    (hn : 1 ≤ n.toNat ∧ n.toNat ≤ 123) (hlen : values.length = n.toNat)
    (htx : r.txPdu.maxSize = 253) (hfind : lookUp srv.getHoldingRegs a r.store = .ok block)
    (hfit : a.toNat + n.toNat ≤ block.start.toNat + block.size.toNat)
    (hwrite : block.writeRegs = some writeRegs)
    (hstore : writeRegs (a - block.start) n values r.store = (0, store)) :
    Answered (embSrvWriteRegs srv r) 0x10 (Mem.be [a, n]) store := by
  obtain ⟨h0, h2, h4, h5⟩ := writeRegs_words hreq hn.2 hlen
  have hroom : ¬ r.txPdu.maxSize.toNat < writeRegistersAnsSize := by
    rw [htx]
    decide
  have hok : ¬ (¬ (1 ≤ n.toNat ∧ n.toNat ≤ 0x007B) ∨ (r.rxPdu.data 4).toNat ≠ n.toNat * 2) := by
    omega
  have hblock : ¬ block.start.toNat + block.size.toNat < a.toNat + n.toNat := by omega
  have hcode : ¬ (0 : Byte) ≠ 0 := not_not.2 rfl
  unfold embSrvWriteRegs
  dsimp only
  rw [h0, h2, if_neg hok, hfind]
  dsimp only
  rw [if_neg hblock, hwrite]
  dsimp only
  rw [if_neg hroom, h5, hstore]
  dsimp only
  rw [if_neg hcode]
  exact ⟨rfl, ⟨rfl, slice_bigEnd _ _ _⟩, rfl⟩

theorem embSrvWriteRegs_refused
    (hreq : r.rxPdu.Carries f (Mem.be [a, n] ++ [BitVec.ofNat 8 (n.toNat * 2)] ++ Mem.be values))
    (hn : 1 ≤ n.toNat ∧ n.toNat ≤ 123) (hlen : values.length = n.toNat)
    (hout : OutOfBlocks EmbSrvRegs.stop (lookUp srv.getHoldingRegs a r.store) a.toNat n.toNat) :
    embSrvWriteRegs srv r = (mbeIllegalDataAddr, r) := by
  obtain ⟨h0, h2, h4, -⟩ := writeRegs_words hreq hn.2 hlen
  have hok : ¬ (¬ (1 ≤ n.toNat ∧ n.toNat ≤ 0x007B) ∨ (r.rxPdu.data 4).toNat ≠ n.toNat * 2) := by
    omega
  unfold embSrvWriteRegs
  dsimp only
  rw [h0, h2, if_neg hok]
  rcases hout with hnone | ⟨block, hfind, hlt⟩
  · rw [hnone]
  · unfold EmbSrvRegs.stop at hlt
    rw [hfind]
    dsimp only
    rw [if_pos hlt]

end WriteRegs

/-! ## Masking a register -/

section MaskReg

variable {f : Byte} {a andMask orMask : Word}

theorem embSrvMaskReg_answers {block : EmbSrvRegs σ} {readRegs writeRegs} {value : Word}
    {store : σ} (hreq : r.rxPdu.Carries f (Mem.be [a, andMask, orMask]))
    (htx : maskRegisterAnsSize ≤ r.txPdu.maxSize.toNat)
    (hfind : lookUp srv.getHoldingRegs a r.store = .ok block)
    (hread : block.readRegs = some readRegs) (hwrite : block.writeRegs = some writeRegs)
    (hvalue : readRegs (a - block.start) 1 r.store = (0, [value], r.store))
    (hstore : writeRegs (a - block.start) 1 [(value &&& andMask) ||| (orMask &&& ~~~andMask)]
      r.store = (0, store)) :
    Answered (embSrvMaskReg srv r) 0x16 (Mem.be [a, andMask, orMask]) store := by
  obtain ⟨h0, h2, h4⟩ := three_words hreq
  have hroom : ¬ r.txPdu.maxSize.toNat < maskRegisterAnsSize := Nat.not_lt.2 htx
  have hcode : ¬ (0 : Byte) ≠ 0 := not_not.2 rfl
  unfold embSrvMaskReg
  dsimp only
  rw [h0, h2, h4, hfind]
  dsimp only
  rw [hread, hwrite]
  dsimp only
  rw [hvalue]
  dsimp only
  rw [if_neg hcode, List.headD_cons, hstore]
  dsimp only
  rw [if_neg hcode, if_neg hroom]
  refine ⟨rfl, ⟨rfl, ?_⟩, rfl⟩
  unfold EmbPdu.bytes
  dsimp only
  rw [storeWord_swapBytes, storeWord_swapBytes, storeWord_swapBytes]
  have h1 := Mem.slice_blit_append r.txPdu.data (Mem.be [a]) (Mem.slice_zero _ 0) (n := 2) rfl
  have h3 := Mem.slice_blit_append _ (Mem.be [andMask]) h1 (n := 4) rfl
  exact Mem.slice_blit_append _ (Mem.be [orMask]) h3 rfl

theorem embSrvMaskReg_answered {block : EmbSrvRegs σ} {readRegs writeRegs} {value : Word}
    {store : σ} (hreq : r.rxPdu.Carries f (Mem.be [a, andMask, orMask]))
    (htx : r.txPdu.maxSize = 253) (hfind : lookUp srv.getHoldingRegs a r.store = .ok block)
    (hread : block.readRegs = some readRegs) (hwrite : block.writeRegs = some writeRegs)
    (hvalue : readRegs (a - block.start) 1 r.store = (0, [value], r.store))
    (hstore : writeRegs (a - block.start) 1 [(value &&& andMask) ||| (orMask &&& ~~~andMask)]
      r.store = (0, store)) :
    Answered (embSrvMaskReg srv r) 0x16 (Mem.be [a, andMask, orMask]) store := by
  have hroom : maskRegisterAnsSize ≤ r.txPdu.maxSize.toNat := by
    rw [htx]
    decide
  exact embSrvMaskReg_answers srv hreq hroom hfind hread hwrite hvalue hstore

theorem embSrvMaskReg_refused (hreq : r.rxPdu.Carries f (Mem.be [a, andMask, orMask]))
    (hout : lookUp srv.getHoldingRegs a r.store = .error mbeIllegalDataAddr) :
    embSrvMaskReg srv r = (mbeIllegalDataAddr, r) := by
  obtain ⟨h0, -, -⟩ := three_words hreq
  unfold embSrvMaskReg
  dsimp only
  rw [h0, hout]

end MaskReg

/-! ## Writing and reading -/

section ReadWriteRegs

variable {f : Byte} {ra rn wa wn : Word} {written : List Word}

theorem readWriteRegs_words
    (hreq : r.rxPdu.Carries f
      (Mem.be [ra, rn, wa, wn] ++ [BitVec.ofNat 8 (wn.toNat * 2)] ++ Mem.be written))
    (hwn : wn.toNat ≤ 121) (hlen : written.length = wn.toNat) :
    (getBigEnd16 r.rxPdu.data 0 = ra ∧ getBigEnd16 r.rxPdu.data 2 = rn
      ∧ getBigEnd16 r.rxPdu.data 4 = wa ∧ getBigEnd16 r.rxPdu.data 6 = wn)
      ∧ (r.rxPdu.data 8).toNat = wn.toNat * 2
      ∧ Mem.leWords (Mem.swapWords r.rxPdu.data 9 wn.toNat) 9 wn.toNat = written := by
  have h8 : r.rxPdu.data 8 = BitVec.ofNat 8 (wn.toNat * 2) :=
    EmbPdu.Carries.byte (Mem.be [ra, rn, wa, wn]) (Mem.be written) hreq
  have hreq' : r.rxPdu.Carries f
      ((Mem.be [ra, rn, wa, wn] ++ [BitVec.ofNat 8 (wn.toNat * 2)]) ++ Mem.be written ++ []) := by
    rw [List.append_nil]
    exact hreq
  have h9 : Mem.beWords r.rxPdu.data 9 written.length = written := hreq'.words
  refine ⟨⟨EmbPdu.Carries.word [] _ hreq, EmbPdu.Carries.word (Mem.be [ra]) _ hreq,
    EmbPdu.Carries.word (Mem.be [ra, rn]) _ hreq,
    EmbPdu.Carries.word (Mem.be [ra, rn, wa]) _ hreq⟩, ?_, ?_⟩
  · rw [h8, dataSize_of_lt (by omega)]
  · rw [Mem.leWords_swapWords, ← hlen, h9]

theorem embSrvReadWriteRegs_answered {wrRegs rdRegs : EmbSrvRegs σ} {writeRegs readRegs}
    {store : σ} {values : List Word}
    (hreq : r.rxPdu.Carries f
      (Mem.be [ra, rn, wa, wn] ++ [BitVec.ofNat 8 (wn.toNat * 2)] ++ Mem.be written))
    (hrn : 1 ≤ rn.toNat ∧ rn.toNat ≤ 125) (hwn : 1 ≤ wn.toNat ∧ wn.toNat ≤ 121)
    (hlen : written.length = wn.toNat) (htx : r.txPdu.maxSize = 253)
    (hwr : lookUp srv.getHoldingRegs wa r.store = .ok wrRegs)
    (hwrFit : wa.toNat + wn.toNat ≤ wrRegs.start.toNat + wrRegs.size.toNat)
    (hwrite : wrRegs.writeRegs = some writeRegs)
    (hrd : lookUp srv.getHoldingRegs ra r.store = .ok rdRegs)
    (hrdFit : ra.toNat + rn.toNat ≤ rdRegs.start.toNat + rdRegs.size.toNat)
    (hread : rdRegs.readRegs = some readRegs)
    (hstore : writeRegs (wa - wrRegs.start) wn written r.store = (0, store))
    (hvalues : readRegs (ra - rdRegs.start) rn store = (0, values, store))
    (hvlen : values.length = rn.toNat) :
    Answered (embSrvReadWriteRegs srv r) 0x17
      ([BitVec.ofNat 8 (rn.toNat * 2)] ++ Mem.be values) store := by
  obtain ⟨⟨h0, h2, h4, h6⟩, h8, h9⟩ := readWriteRegs_words hreq hwn.2 hlen
  have hsize : (BitVec.ofNat 8 (readWriteRegsAnsSize rn.toNat)).toNat = 1 + rn.toNat * 2 :=
    dataSize_of_lt (by unfold readWriteRegsAnsSize; omega)
  have hroom : ¬ r.txPdu.maxSize.toNat < readWriteRegsAnsSize rn.toNat := by
    rw [htx]
    change ¬ 253 < 1 + rn.toNat * 2
    omega
  have hwrBlock : ¬ wrRegs.start.toNat + wrRegs.size.toNat < wa.toNat + wn.toNat := by omega
  have hrdBlock : ¬ rdRegs.start.toNat + rdRegs.size.toNat < ra.toNat + rn.toNat := by omega
  have hcode : ¬ (0 : Byte) ≠ 0 := not_not.2 rfl
  have hrn' : ¬ ¬ (1 ≤ rn.toNat ∧ rn.toNat ≤ embSrvRdwrRegsMaxReadRegs) := not_not.2 hrn
  have hwn' : ¬ ¬ (1 ≤ wn.toNat ∧ wn.toNat ≤ embSrvRdwrRegsMaxWriteRegs) := not_not.2 hwn
  unfold embSrvReadWriteRegs
  dsimp only
  rw [h0, h2, h4, h6, h8, if_neg hrn', if_neg hwn', if_neg (not_not.2 rfl),
    hwr]
  dsimp only
  rw [if_neg hwrBlock, hwrite]
  dsimp only
  rw [hrd]
  dsimp only
  rw [if_neg hrdBlock, hread]
  dsimp only
  rw [if_neg hroom]
  unfold writeThenRead
  dsimp only
  rw [h9, hstore]
  dsimp only
  rw [if_neg hcode, hvalues]
  dsimp only
  rw [if_neg hcode]
  refine ⟨rfl, ⟨rfl, ?_⟩, rfl⟩
  unfold EmbPdu.bytes
  dsimp only
  rw [hsize]
  exact slice_swapped _ _ hvlen

theorem embSrvReadWriteRegs_refused
    (hreq : r.rxPdu.Carries f
      (Mem.be [ra, rn, wa, wn] ++ [BitVec.ofNat 8 (wn.toNat * 2)] ++ Mem.be written))
    (hrn : 1 ≤ rn.toNat ∧ rn.toNat ≤ 125) (hwn : 1 ≤ wn.toNat ∧ wn.toNat ≤ 121)
    (hlen : written.length = wn.toNat)
    (hout : OutOfBlocks EmbSrvRegs.stop (lookUp srv.getHoldingRegs wa r.store) wa.toNat wn.toNat
      ∨ OutOfBlocks EmbSrvRegs.stop (lookUp srv.getHoldingRegs ra r.store) ra.toNat rn.toNat
        ∧ ∃ wrRegs, lookUp srv.getHoldingRegs wa r.store = .ok wrRegs
          ∧ wa.toNat + wn.toNat ≤ wrRegs.start.toNat + wrRegs.size.toNat
          ∧ wrRegs.writeRegs.isSome) :
    embSrvReadWriteRegs srv r = (mbeIllegalDataAddr, r) := by
  obtain ⟨⟨h0, h2, h4, h6⟩, h8, -⟩ := readWriteRegs_words hreq hwn.2 hlen
  have hrn' : ¬ ¬ (1 ≤ rn.toNat ∧ rn.toNat ≤ embSrvRdwrRegsMaxReadRegs) := not_not.2 hrn
  have hwn' : ¬ ¬ (1 ≤ wn.toNat ∧ wn.toNat ≤ embSrvRdwrRegsMaxWriteRegs) := not_not.2 hwn
  unfold embSrvReadWriteRegs
  dsimp only
  rw [h0, h2, h4, h6, h8, if_neg hrn', if_neg hwn', if_neg (not_not.2 rfl)]
  rcases hout with (hnone | ⟨block, hfind, hlt⟩) | ⟨hrd, wrRegs, hwr, hfit, hsome⟩
  · rw [hnone]
  · unfold EmbSrvRegs.stop at hlt
    rw [hfind]
    dsimp only
    rw [if_pos hlt]
  · obtain ⟨writeRegs, hwrite⟩ := Option.isSome_iff_exists.1 hsome
    have hblock : ¬ wrRegs.start.toNat + wrRegs.size.toNat < wa.toNat + wn.toNat := by omega
    rw [hwr]
    dsimp only
    rw [if_neg hblock, hwrite]
    dsimp only
    rcases hrd with hnone | ⟨block, hfind, hlt⟩
    · rw [hnone]
    · unfold EmbSrvRegs.stop at hlt
      rw [hfind]
      dsimp only
      rw [if_pos hlt]

end ReadWriteRegs

end Emodbus
