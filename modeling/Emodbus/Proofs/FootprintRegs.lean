import Emodbus.Proofs.Footprint

/-!
# What the handlers for registers read
-/

namespace Emodbus

open Octets

variable {σ : Type} {function dataSize : Byte} {d d' : Mem Byte}

/-! ## Reading -/

section ReadRegs

theorem readRegs_refused (hfn : function = 0x03 ∨ function = 0x04)
    (hp : ¬ SrvHandlerKind.readRegs.passes function dataSize d) (srv : EmbServer σ)
    (maxSize : Byte) (tx : EmbPdu) (s : σ) (calls : List StoreCall) :
    embSrvReadRegs srv (request function dataSize maxSize d tx s calls)
      = match lookUp (regsGetter srv function) (getBigEnd16 d 0) s with
        | .error code => (code, request function dataSize maxSize d tx s calls)
        | .ok _ => (mbeIllegalDataValue, request function dataSize maxSize d tx s calls) := by
  simp only [SrvHandlerKind.passes, hfn, true_and] at hp
  simp only [embSrvReadRegs]
  cases lookUp (regsGetter srv function) (getBigEnd16 d 0) s with
  | error code => rfl
  | ok block =>
    dsimp only
    rw [if_pos hp]

/-- A function that is neither of the two has no block. -/
theorem readRegs_other (hfn : ¬ (function = 0x03 ∨ function = 0x04)) (srv : EmbServer σ)
    (maxSize : Byte) (tx : EmbPdu) (s : σ) (calls : List StoreCall) :
    embSrvReadRegs srv (request function dataSize maxSize d tx s calls)
      = (mbeIllegalDataAddr, request function dataSize maxSize d tx s calls) := by
  have hnone : regsGetter srv function = some fun _ _ => none := by
    unfold regsGetter
    rw [not_or] at hfn
    rw [if_neg hfn.1, if_neg hfn.2]
  simp only [embSrvReadRegs]
  rw [hnone]
  rfl

theorem lookUp_recorder_regs (hfn : function = 0x03 ∨ function = 0x04) (addr : Word) :
    lookUp (regsGetter recorder function) addr () = .ok wholeRegs := by
  rcases hfn with rfl | rfl <;> rfl

theorem recorded_readRegs (hp : SrvHandlerKind.readRegs.passes function dataSize d) :
    (SrvHandlerKind.readRegs.recorded function dataSize d).1 = 0
      ∧ (SrvHandlerKind.readRegs.recorded function dataSize d).2.calls
        = [.readRegs 65535 65535 (getBigEnd16 d 0 - 65535) (getBigEnd16 d 2) (some 1)] := by
  obtain ⟨hfn, hq⟩ := hp
  simp only [SrvHandlerKind.recorded, SrvHandlerKind.handler, embSrvReadRegs]
  rw [lookUp_recorder_regs hfn]
  dsimp only [wholeRegs]
  rw [if_neg (not_not.2 hq), if_neg (whole_inside _ _ (by omega)), if_neg (roomyPdu_room _)]
  exact ⟨rfl, rfl⟩

/-- A request too short to hold its count can be filled up to one that passes. -/
theorem readRegs_short (hfn : function = 0x03 ∨ function = 0x04) (hshort : dataSize.toNat < 2)
    (henc : SrvHandlerKind.readRegs.Enclosed function dataSize d) : False := by
  have hagree : ∀ w : Byte, Mem.Agree dataSize.toNat d (Mem.blit d 2 [0, w]) :=
    fun w i hi => (Mem.blit_of_lt d _ (by omega)).symm
  have hword : ∀ w : Byte, getBigEnd16 (Mem.blit d 2 [0, w]) 2 = Word.ofBytes 0 w := by
    intro w
    rw [getBigEnd16_eq]
    rfl
  have hpass : SrvHandlerKind.readRegs.passes function dataSize (Mem.blit d 2 [0, 1]) := by
    refine ⟨hfn, ?_⟩
    rw [hword]
    decide
  obtain ⟨⟨-, h1, -⟩, -⟩ := henc _ _ (hagree 1) (hagree 0) hpass
  rw [hword] at h1
  exact absurd h1 (by decide)

theorem readRegs_footprint : Footprint .readRegs where
  within := by
    intro function dataSize d d' hd hp hp' hspan σ srv maxSize tx s calls
    obtain ⟨hfn, hq⟩ := hp
    simp only [SrvHandlerKind.span] at hspan
    simp only [SrvHandlerKind.handler, embSrvReadRegs]
    rw [agree_big16 hd (show 0 + 2 ≤ _ by omega), agree_big16 hd (show 2 + 2 ≤ _ by omega)]
    cases lookUp (regsGetter srv function) (getBigEnd16 d' 0) s with
    | error code => rfl
    | ok block =>
      obtain ⟨start, size, readRegs, writeRegs⟩ := block
      cases readRegs with
      | none => dsimp only; split_ifs <;> rfl
      | some readRegs => dsimp only; split_ifs <;> rfl
  refused := by
    intro function dataSize d d' hd henc hp hp' σ srv maxSize tx s calls
    simp only [SrvHandlerKind.handler]
    by_cases hfn : function = 0x03 ∨ function = 0x04
    · rcases Nat.lt_or_ge dataSize.toNat 2 with hshort | hlong
      · exact (readRegs_short hfn hshort henc).elim
      · rw [readRegs_refused hfn hp, readRegs_refused hfn hp',
          agree_big16 hd (show 0 + 2 ≤ _ by omega)]
        cases lookUp (regsGetter srv function) (getBigEnd16 d' 0) s <;> rfl
    · rw [readRegs_other hfn, readRegs_other hfn]
      rfl
  told := by
    intro function dataSize d d' hd halike hp
    obtain ⟨hcode, -, hcalls⟩ := halike.recorded
    by_cases hp' : SrvHandlerKind.readRegs.passes function dataSize d'
    · refine ⟨hp', six_iff_of_eq ?_ _⟩
      rw [(recorded_readRegs hp).2, (recorded_readRegs hp').2] at hcalls
      simp only [List.cons.injEq, StoreCall.readRegs.injEq, and_true, true_and] at hcalls
      exact header_eq (offset_inj hcalls.1) hcalls.2
    · have hcode' : (SrvHandlerKind.readRegs.recorded function dataSize d').1
          = mbeIllegalDataValue := by
        have hrun := readRegs_refused hp.1 hp' recorder 0 roomyPdu () []
        rw [lookUp_recorder_regs hp.1] at hrun
        exact congrArg Prod.fst hrun
      rw [(recorded_readRegs hp).1, hcode'] at hcode
      exact absurd hcode (by decide)

end ReadRegs

/-! ## Writing -/

section WriteRegs

theorem writeReg_footprint : Footprint .writeReg where
  within := by
    intro function dataSize d d' hd _ _ hspan σ srv maxSize tx s calls
    simp only [SrvHandlerKind.span] at hspan
    simp only [SrvHandlerKind.handler, embSrvWriteReg]
    rw [agree_big16 hd (show 0 + 2 ≤ _ by omega), agree_big16 hd (show 2 + 2 ≤ _ by omega)]
    cases lookUp srv.getHoldingRegs (getBigEnd16 d' 0) s with
    | error code => rfl
    | ok block =>
      obtain ⟨start, size, readRegs, writeRegs⟩ := block
      cases writeRegs with
      | none => rfl
      | some writeRegs => dsimp only; split_ifs <;> rfl
  refused := fun _ _ hp => absurd trivial hp
  told := by
    intro function dataSize d d' hd halike _
    obtain ⟨-, -, hcalls⟩ := halike.recorded
    refine ⟨trivial, six_iff_of_eq ?_ _⟩
    have hcalls' : ∀ e : Mem Byte,
        (SrvHandlerKind.writeReg.recorded function dataSize e).2.calls
          = [.writeRegs 65535 65535 (getBigEnd16 e 0 - 65535) 1 [getBigEnd16 e 2]] :=
      fun _ => rfl
    rw [hcalls' d, hcalls' d'] at hcalls
    simp only [List.cons.injEq, StoreCall.writeRegs.injEq, and_true, true_and] at hcalls
    exact header_eq (offset_inj hcalls.1) hcalls.2

theorem recorded_writeRegs (hp : SrvHandlerKind.writeRegs.passes function dataSize d) :
    (SrvHandlerKind.writeRegs.recorded function dataSize d).1 = 0
      ∧ (SrvHandlerKind.writeRegs.recorded function dataSize d).2.calls
        = [.writeRegs 65535 65535 (getBigEnd16 d 0 - 65535) (getBigEnd16 d 2)
          (Mem.beWords d 5 (getBigEnd16 d 2).toNat)] := by
  obtain ⟨hq, hbc⟩ := hp
  have hchecks : ¬ (¬ (1 ≤ (getBigEnd16 d 2).toNat ∧ (getBigEnd16 d 2).toNat ≤ 0x007B)
      ∨ (d 4).toNat ≠ (getBigEnd16 d 2).toNat * 2) := by
    rintro (h | h)
    · exact h hq
    · exact h hbc
  simp only [SrvHandlerKind.recorded, SrvHandlerKind.handler, embSrvWriteRegs]
  rw [if_neg hchecks]
  dsimp only [recorder, lookUp, wholeRegs]
  rw [if_neg (whole_inside _ _ (by omega)), Mem.leWords_swapWords]
  exact ⟨rfl, rfl⟩

theorem writeRegs_refused (hp : ¬ SrvHandlerKind.writeRegs.passes function dataSize d)
    (srv : EmbServer σ) (maxSize : Byte) (tx : EmbPdu) (s : σ) (calls : List StoreCall) :
    embSrvWriteRegs srv (request function dataSize maxSize d tx s calls)
      = (mbeIllegalDataValue, request function dataSize maxSize d tx s calls) := by
  simp only [SrvHandlerKind.passes] at hp
  simp only [embSrvWriteRegs]
  rw [if_pos (not_and_or.1 hp)]

theorem writeRegs_footprint : Footprint .writeRegs where
  within := by
    intro function dataSize d d' hd hp hp' hspan σ srv maxSize tx s calls
    simp only [SrvHandlerKind.span] at hspan
    have h2 := agree_big16 hd (show 2 + 2 ≤ _ by omega)
    have h4 : d 4 = d' 4 := hd 4 (by omega)
    simp only [SrvHandlerKind.handler, embSrvWriteRegs, Mem.leWords_swapWords]
    rw [hd.beWords_eq hspan, h4, agree_big16 hd (show 0 + 2 ≤ _ by omega), h2]
    cases lookUp srv.getHoldingRegs (getBigEnd16 d' 0) s with
    | error code => dsimp only; split_ifs <;> rfl
    | ok block =>
      obtain ⟨start, size, readRegs, writeRegs⟩ := block
      cases writeRegs with
      | none => dsimp only; split_ifs <;> rfl
      | some writeRegs => dsimp only; split_ifs <;> rfl
  refused := by
    intro function dataSize d d' hd _ hp hp' σ srv maxSize tx s calls
    simp only [SrvHandlerKind.handler]
    rw [writeRegs_refused hp, writeRegs_refused hp']
    rfl
  told := by
    intro function dataSize d d' hd halike hp
    obtain ⟨hcode, -, hcalls⟩ := halike.recorded
    by_cases hp' : SrvHandlerKind.writeRegs.passes function dataSize d'
    · refine ⟨hp', six_iff_of_eq ?_ _⟩
      rw [(recorded_writeRegs hp).2, (recorded_writeRegs hp').2] at hcalls
      simp only [List.cons.injEq, StoreCall.writeRegs.injEq, and_true, true_and] at hcalls
      obtain ⟨haddr, hq, hvalues⟩ := hcalls
      have hhead := header_eq (offset_inj haddr) hq
      have hslice := congrArg Mem.be hvalues
      rw [Mem.be_beWords, Mem.be_beWords, ← hq] at hslice
      simp only [SrvHandlerKind.passes] at hp hp'
      intro i hi
      simp only [SrvHandlerKind.span] at hi
      rcases Nat.lt_or_ge i 4 with h4 | h4
      · exact hhead i h4
      rcases Nat.lt_or_ge i 5 with h5 | h5
      · have hi4 : i = 4 := by omega
        subst hi4
        exact BitVec.eq_of_toNat_eq (by rw [hp.2, hp'.2, hq])
      · obtain ⟨j, rfl⟩ := Nat.exists_eq_add_of_le h5
        exact Mem.eq_of_slice_eq hslice (by omega)
    · have hcode' : (SrvHandlerKind.writeRegs.recorded function dataSize d').1
          = mbeIllegalDataValue :=
        congrArg Prod.fst (writeRegs_refused hp' recorder 0 roomyPdu () [])
      rw [(recorded_writeRegs hp).1, hcode'] at hcode
      exact absurd hcode (by decide)

end WriteRegs

/-! ## Reading and writing -/

section Both

/-- The three words that `emb_srv_mask_reg` echoes. -/
theorem slice_storeWords (p : Mem Byte) (a b c : Word) :
    Mem.slice (storeWord (storeWord (storeWord p 0 (swapBytes a)) 2 (swapBytes b)) 4 (swapBytes c))
      0 6 = Mem.be [a, b, c] := by
  rw [storeWord_swapBytes, storeWord_swapBytes, storeWord_swapBytes]
  have h1 : Mem.slice (Mem.blit p 0 (Mem.be [a])) 0 2 = Mem.be [a] := Mem.slice_blit p 0 _
  have h2 := Mem.slice_blit_append _ (Mem.be [b]) h1 (n := 4) rfl
  exact Mem.slice_blit_append _ (Mem.be [c]) h2 rfl

theorem recorded_maskReg_bytes (e : Mem Byte) :
    (SrvHandlerKind.maskReg.recorded function dataSize e).2.txPdu.bytes = Mem.slice e 0 6 := by
  have hbytes : (SrvHandlerKind.maskReg.recorded function dataSize e).2.txPdu.bytes
      = Mem.be [getBigEnd16 e 0, getBigEnd16 e 2, getBigEnd16 e 4] := slice_storeWords _ _ _ _
  rw [hbytes, getBigEnd16_eq, getBigEnd16_eq, getBigEnd16_eq, ← Mem.be_beWords e 0 3]
  rfl

theorem maskReg_footprint : Footprint .maskReg where
  within := by
    intro function dataSize d d' hd _ _ hspan σ srv maxSize tx s calls
    simp only [SrvHandlerKind.span] at hspan
    simp only [SrvHandlerKind.handler, embSrvMaskReg]
    rw [agree_big16 hd (show 0 + 2 ≤ _ by omega), agree_big16 hd (show 2 + 2 ≤ _ by omega),
      agree_big16 hd (show 4 + 2 ≤ _ by omega)]
    cases lookUp srv.getHoldingRegs (getBigEnd16 d' 0) s with
    | error code => rfl
    | ok block =>
      obtain ⟨start, size, readRegs, writeRegs⟩ := block
      cases readRegs with
      | none => rfl
      | some readRegs =>
        cases writeRegs with
        | none => rfl
        | some writeRegs => dsimp only; split_ifs <;> rfl
  refused := fun _ _ hp => absurd trivial hp
  told := by
    intro function dataSize d d' hd halike _
    obtain ⟨-, htx, -⟩ := halike.recorded
    refine ⟨trivial, six_iff_of_eq ?_ _⟩
    have hslice := htx.bytes
    rw [recorded_maskReg_bytes, recorded_maskReg_bytes] at hslice
    intro i hi
    have hbyte := Mem.eq_of_slice_eq hslice hi
    rwa [Nat.zero_add] at hbyte

theorem recorded_readWriteRegs (hp : SrvHandlerKind.readWriteRegs.passes function dataSize d) :
    (SrvHandlerKind.readWriteRegs.recorded function dataSize d).1 = 0
      ∧ (SrvHandlerKind.readWriteRegs.recorded function dataSize d).2.calls
        = [.writeRegs 65535 65535 (getBigEnd16 d 4 - 65535) (getBigEnd16 d 6)
            (Mem.beWords d 9 (getBigEnd16 d 6).toNat),
          .readRegs 65535 65535 (getBigEnd16 d 0 - 65535) (getBigEnd16 d 2) (some 1)] := by
  obtain ⟨hr, hw, hbc⟩ := hp
  have hr2 : (getBigEnd16 d 2).toNat ≤ 125 := hr.2
  have hw2 : (getBigEnd16 d 6).toNat ≤ 121 := hw.2
  have hroom : ¬ roomyPdu.maxSize.toNat < readWriteRegsAnsSize (getBigEnd16 d 2).toNat := by
    unfold readWriteRegsAnsSize
    change ¬ 255 < _
    omega
  simp only [SrvHandlerKind.recorded, SrvHandlerKind.handler, embSrvReadWriteRegs]
  rw [if_neg (not_not.2 hr), if_neg (not_not.2 hw), if_neg (not_not.2 hbc)]
  dsimp only [recorder, lookUp, wholeRegs]
  rw [if_neg (whole_inside _ _ (by omega)), if_neg (whole_inside _ _ (by omega)), if_neg hroom]
  simp only [writeThenRead, Mem.leWords_swapWords]
  exact ⟨rfl, rfl⟩

theorem readWriteRegs_refused (hp : ¬ SrvHandlerKind.readWriteRegs.passes function dataSize d)
    (srv : EmbServer σ) (maxSize : Byte) (tx : EmbPdu) (s : σ) (calls : List StoreCall) :
    embSrvReadWriteRegs srv (request function dataSize maxSize d tx s calls)
      = (mbeIllegalDataValue, request function dataSize maxSize d tx s calls) := by
  simp only [SrvHandlerKind.passes] at hp
  simp only [embSrvReadWriteRegs]
  by_cases hr : 1 ≤ (getBigEnd16 d 2).toNat ∧ (getBigEnd16 d 2).toNat ≤ embSrvRdwrRegsMaxReadRegs
  · rw [if_neg (not_not.2 hr)]
    by_cases hw : 1 ≤ (getBigEnd16 d 6).toNat
        ∧ (getBigEnd16 d 6).toNat ≤ embSrvRdwrRegsMaxWriteRegs
    · rw [if_neg (not_not.2 hw), if_pos fun hbc => hp ⟨hr, hw, hbc⟩]
    · rw [if_pos hw]
  · rw [if_pos hr]

theorem readWriteRegs_footprint : Footprint .readWriteRegs where
  within := by
    intro function dataSize d d' hd hp hp' hspan σ srv maxSize tx s calls
    simp only [SrvHandlerKind.span] at hspan
    obtain ⟨hr, hw, hbc⟩ := hp
    obtain ⟨hr', hw', hbc'⟩ := hp'
    have h6 := agree_big16 hd (show 6 + 2 ≤ _ by omega)
    simp only [SrvHandlerKind.handler, embSrvReadWriteRegs, writeThenRead, Mem.leWords_swapWords]
    rw [if_neg (not_not.2 hr), if_neg (not_not.2 hw), if_neg (not_not.2 hbc),
      if_neg (not_not.2 hr'), if_neg (not_not.2 hw'), if_neg (not_not.2 hbc'),
      hd.beWords_eq hspan, agree_big16 hd (show 0 + 2 ≤ _ by omega),
      agree_big16 hd (show 2 + 2 ≤ _ by omega), agree_big16 hd (show 4 + 2 ≤ _ by omega), h6]
    cases lookUp srv.getHoldingRegs (getBigEnd16 d' 4) s with
    | error code => rfl
    | ok wrRegs =>
      obtain ⟨wrStart, wrSize, readRegs, writeRegs⟩ := wrRegs
      cases writeRegs with
      | none => dsimp only; split_ifs <;> rfl
      | some writeRegs =>
        cases lookUp srv.getHoldingRegs (getBigEnd16 d' 0) s with
        | error code => dsimp only; split_ifs <;> rfl
        | ok rdRegs =>
          obtain ⟨rdStart, rdSize, readRegs, writeRegs⟩ := rdRegs
          cases readRegs with
          | none => dsimp only; split_ifs <;> rfl
          | some readRegs => dsimp only; split_ifs <;> rfl
  refused := by
    intro function dataSize d d' hd _ hp hp' σ srv maxSize tx s calls
    simp only [SrvHandlerKind.handler]
    rw [readWriteRegs_refused hp, readWriteRegs_refused hp']
    rfl
  told := by
    intro function dataSize d d' hd halike hp
    obtain ⟨hcode, -, hcalls⟩ := halike.recorded
    by_cases hp' : SrvHandlerKind.readWriteRegs.passes function dataSize d'
    · refine ⟨hp', six_iff_of_eq ?_ _⟩
      rw [(recorded_readWriteRegs hp).2, (recorded_readWriteRegs hp').2] at hcalls
      simp only [List.cons.injEq, StoreCall.writeRegs.injEq, StoreCall.readRegs.injEq, and_true,
        true_and] at hcalls
      obtain ⟨⟨hwaddr, hwq, hvalues⟩, hraddr, hrq⟩ := hcalls
      have hhead := header_eq (offset_inj hraddr) hrq
      obtain ⟨b4, b5⟩ := bytes_of_big16 (offset_inj hwaddr)
      obtain ⟨b6, b7⟩ := bytes_of_big16 hwq
      have b8 : d 8 = d' 8 := BitVec.eq_of_toNat_eq (by rw [hp.2.2, hp'.2.2, hwq])
      have hslice := congrArg Mem.be hvalues
      rw [Mem.be_beWords, Mem.be_beWords, ← hwq] at hslice
      intro i hi
      simp only [SrvHandlerKind.span] at hi
      rcases Nat.lt_or_ge i 4 with h4 | h4
      · exact hhead i h4
      rcases Nat.lt_or_ge i 9 with h9 | h9
      · interval_cases i
        · exact b4
        · exact b5
        · exact b6
        · exact b7
        · exact b8
      · obtain ⟨j, rfl⟩ := Nat.exists_eq_add_of_le h9
        exact Mem.eq_of_slice_eq hslice (by omega)
    · have hcode' : (SrvHandlerKind.readWriteRegs.recorded function dataSize d').1
          = mbeIllegalDataValue :=
        congrArg Prod.fst (readWriteRegs_refused hp' recorder 0 roomyPdu () [])
      rw [(recorded_readWriteRegs hp).1, hcode'] at hcode
      exact absurd hcode (by decide)

end Both

end Emodbus
