import Emodbus.LengthFields
import Emodbus.Proofs.FileSubs
import Emodbus.Proofs.SrvCases

/-!
# Which requests to write are answered

A handler returns 0 exactly where its comparisons hold and the store takes the values, so a request
whose length fields do not agree is answered exactly where it is a field that is not compared.
-/

namespace Emodbus

open Octets

variable {σ : Type} (srv : EmbServer σ) {r : SrvRun σ}

/-! ## Coils and registers -/

theorem writeCoils_zero_iff (hmax : writeCoilsAnsSize ≤ r.txPdu.maxSize.toNat) :
    (embSrvWriteCoils srv r).1 = 0 ↔ CoilChecks r.rxPdu ∧ TakesCoils srv r.rxPdu r.store := by
  unfold embSrvWriteCoils
  dsimp only
  by_cases hq : 1 ≤ (getBigEnd16 r.rxPdu.data 2).toNat
      ∧ (getBigEnd16 r.rxPdu.data 2).toNat ≤ 0x07B0
  swap
  · rw [if_pos hq]
    exact iff_of_false mbeIllegalDataValue_ne fun h => hq h.1.quantity
  rw [if_neg (not_not.2 hq)]
  by_cases hsize : (r.rxPdu.dataSize.toNat : ℤ) - 5 ≠ (r.rxPdu.data 4).toNat
  · rw [if_pos hsize]
    refine iff_of_false mbeIllegalDataValue_ne fun h => ?_
    have := h.1.dataSize
    omega
  rw [if_neg hsize]
  have hchecks : CoilChecks r.rxPdu := ⟨hq, by omega⟩
  unfold TakesCoils
  dsimp only
  cases hfind : lookUp srv.getCoils (getBigEnd16 r.rxPdu.data 0) r.store with
  | error code =>
    refine iff_of_false (lookUp_error_ne hfind) ?_
    rintro ⟨-, block, writeBits, hblock, -⟩
    cases hblock
  | ok block =>
    dsimp only
    by_cases hfit : block.start.toNat + block.size.toNat
        < (getBigEnd16 r.rxPdu.data 0).toNat + (getBigEnd16 r.rxPdu.data 2).toNat
    · rw [if_pos hfit]
      refine iff_of_false mbeIllegalDataAddr_ne ?_
      rintro ⟨-, block', writeBits, hblock, hle, -⟩
      cases hblock
      omega
    rw [if_neg hfit]
    cases hwrite : block.writeBits with
    | none =>
      refine iff_of_false mbeIllegalDataAddr_ne ?_
      rintro ⟨-, block', writeBits, hblock, -, hsome, -⟩
      cases hblock
      rw [hwrite] at hsome
      cases hsome
    | some writeBits =>
      have hroom : ¬ r.txPdu.maxSize.toNat < (BitVec.ofNat 8 writeCoilsAnsSize).toNat :=
        Nat.not_lt.2 hmax
      dsimp only
      rw [if_neg hroom]
      constructor
      · intro h
        exact ⟨hchecks, block, writeBits, rfl, Nat.not_lt.1 hfit, hwrite, h⟩
      · rintro ⟨-, block', writeBits', hblock, -, hsome, hzero⟩
        cases hblock
        rw [hwrite] at hsome
        cases hsome
        exact hzero

/-- Where the block has been found, it is left to its size and its callback. -/
theorem takesRegs_iff {req : EmbPdu} {addr quantity : Word} {pos : ℕ} {s s' : σ}
    {block : EmbSrvRegs σ} (hfind : lookUp srv.getHoldingRegs addr s = .ok block) :
    TakesRegs srv req addr quantity pos s s'
      ↔ addr.toNat + quantity.toNat ≤ block.start.toNat + block.size.toNat
        ∧ ∃ writeRegs, block.writeRegs = some writeRegs
          ∧ writeRegs (addr - block.start) quantity (Mem.beWords req.data pos quantity.toNat) s
            = (0, s') := by
  constructor
  · rintro ⟨block', writeRegs, hblock, hfit, hwrite, hzero⟩
    rw [hfind] at hblock
    cases hblock
    exact ⟨hfit, writeRegs, hwrite, hzero⟩
  · rintro ⟨hfit, writeRegs, hwrite, hzero⟩
    exact ⟨block, writeRegs, hfind, hfit, hwrite, hzero⟩

theorem givesRegs_iff {addr quantity : Word} {s s' : σ} {block : EmbSrvRegs σ}
    (hfind : lookUp srv.getHoldingRegs addr s = .ok block) :
    GivesRegs srv addr quantity s s'
      ↔ addr.toNat + quantity.toNat ≤ block.start.toNat + block.size.toNat
        ∧ ∃ readRegs, block.readRegs = some readRegs
          ∧ (readRegs (addr - block.start) quantity s').1 = 0 := by
  constructor
  · rintro ⟨block', readRegs, hblock, hfit, hread, hzero⟩
    rw [hfind] at hblock
    cases hblock
    exact ⟨hfit, readRegs, hread, hzero⟩
  · rintro ⟨hfit, readRegs, hread, hzero⟩
    exact ⟨block, readRegs, hfind, hfit, hread, hzero⟩

theorem writeRegs_zero_iff (hmax : writeRegistersAnsSize ≤ r.txPdu.maxSize.toNat) :
    (embSrvWriteRegs srv r).1 = 0 ↔ RegChecks r.rxPdu
      ∧ ∃ s', TakesRegs srv r.rxPdu (getBigEnd16 r.rxPdu.data 0) (getBigEnd16 r.rxPdu.data 2) 5
        r.store s' := by
  unfold embSrvWriteRegs
  dsimp only
  set addr := getBigEnd16 r.rxPdu.data 0
  by_cases hq : ¬ (1 ≤ (getBigEnd16 r.rxPdu.data 2).toNat
      ∧ (getBigEnd16 r.rxPdu.data 2).toNat ≤ 0x007B)
      ∨ (r.rxPdu.data 4).toNat ≠ (getBigEnd16 r.rxPdu.data 2).toNat * 2
  · rw [if_pos hq]
    refine iff_of_false mbeIllegalDataValue_ne fun h => ?_
    have hquantity := h.1.quantity
    have hbytes := h.1.bytes
    omega
  rw [if_neg hq]
  have hchecks : RegChecks r.rxPdu := ⟨by omega, by omega⟩
  set quantity := getBigEnd16 r.rxPdu.data 2
  cases hfind : lookUp srv.getHoldingRegs addr r.store with
  | error code =>
    refine iff_of_false (lookUp_error_ne hfind) ?_
    rintro ⟨-, s', block, writeRegs, hblock, -⟩
    rw [hfind] at hblock
    cases hblock
  | ok block =>
    simp only [takesRegs_iff srv hfind]
    by_cases hfit : block.start.toNat + block.size.toNat < addr.toNat + quantity.toNat
    · rw [if_pos hfit]
      refine iff_of_false mbeIllegalDataAddr_ne ?_
      rintro ⟨-, s', hle, -⟩
      omega
    rw [if_neg hfit]
    cases hwrite : block.writeRegs with
    | none =>
      refine iff_of_false mbeIllegalDataAddr_ne ?_
      rintro ⟨-, s', -, writeRegs, hsome, -⟩
      cases hsome
    | some writeRegs =>
      dsimp only
      rw [if_neg (Nat.not_lt.2 hmax), Mem.leWords_swapWords]
      rcases hres : writeRegs (addr - block.start) quantity
        (Mem.beWords r.rxPdu.data 5 quantity.toNat) r.store with ⟨code, s'⟩
      dsimp only
      by_cases hcode : code = 0
      · rw [if_neg (not_not.2 hcode)]
        subst hcode
        exact ⟨fun _ => ⟨hchecks, s', Nat.not_lt.1 hfit, writeRegs, rfl, hres⟩, fun _ => rfl⟩
      · rw [if_pos hcode]
        refine iff_of_false hcode ?_
        rintro ⟨-, s'', -, writeRegs', hsome, hzero⟩
        cases hsome
        rw [hres] at hzero
        exact hcode (congrArg Prod.fst hzero)

theorem writeThenRead_zero_iff {wrRegs rdRegs : EmbSrvRegs σ}
    {writeRegs : Word → Word → List Word → σ → Byte × σ}
    {readRegs : Word → Word → σ → Byte × List Word × σ} {wa wn a n : Word} :
    (writeThenRead r wrRegs rdRegs writeRegs readRegs wa wn a n).1 = 0
      ↔ ∃ s', writeRegs (wa - wrRegs.start) wn (Mem.beWords r.rxPdu.data 9 wn.toNat) r.store
            = (0, s')
        ∧ (readRegs (a - rdRegs.start) n s').1 = 0 := by
  unfold writeThenRead
  dsimp only
  rw [Mem.leWords_swapWords]
  rcases hwritten : writeRegs (wa - wrRegs.start) wn (Mem.beWords r.rxPdu.data 9 wn.toNat)
    r.store with ⟨code, s'⟩
  dsimp only
  by_cases hcode : code = 0
  · rw [if_neg (not_not.2 hcode)]
    subst hcode
    split_ifs with hread
    · refine iff_of_false hread ?_
      rintro ⟨s'', hs, hzero⟩
      cases hs
      exact hread hzero
    · exact ⟨fun _ => ⟨s', rfl, not_not.1 hread⟩, fun _ => rfl⟩
  · rw [if_pos hcode]
    refine iff_of_false hcode ?_
    rintro ⟨s'', hs, -⟩
    exact hcode (congrArg Prod.fst hs)

theorem readWriteRegs_zero_iff (hmax : r.txPdu.maxSize = 253) :
    (embSrvReadWriteRegs srv r).1 = 0 ↔ ReadWriteChecks r.rxPdu
      ∧ ∃ s', TakesRegs srv r.rxPdu (getBigEnd16 r.rxPdu.data 4) (getBigEnd16 r.rxPdu.data 6) 9
          r.store s'
        ∧ GivesRegs srv (getBigEnd16 r.rxPdu.data 0) (getBigEnd16 r.rxPdu.data 2) r.store s' := by
  unfold embSrvReadWriteRegs
  dsimp only
  by_cases hq : 1 ≤ (getBigEnd16 r.rxPdu.data 2).toNat
      ∧ (getBigEnd16 r.rxPdu.data 2).toNat ≤ embSrvRdwrRegsMaxReadRegs
  swap
  · rw [if_pos hq]
    exact iff_of_false mbeIllegalDataValue_ne fun h => hq h.1.rdQuantity
  rw [if_neg (not_not.2 hq)]
  by_cases hwq : 1 ≤ (getBigEnd16 r.rxPdu.data 6).toNat
      ∧ (getBigEnd16 r.rxPdu.data 6).toNat ≤ embSrvRdwrRegsMaxWriteRegs
  swap
  · rw [if_pos hwq]
    exact iff_of_false mbeIllegalDataValue_ne fun h => hwq h.1.wrQuantity
  rw [if_neg (not_not.2 hwq)]
  by_cases hbytes : (r.rxPdu.data 8).toNat ≠ (getBigEnd16 r.rxPdu.data 6).toNat * 2
  · rw [if_pos hbytes]
    refine iff_of_false mbeIllegalDataValue_ne fun h => ?_
    have := h.1.bytes
    omega
  rw [if_neg hbytes]
  have hchecks : ReadWriteChecks r.rxPdu := ⟨hq, hwq, by omega⟩
  have hroom : ¬ r.txPdu.maxSize.toNat
      < readWriteRegsAnsSize (getBigEnd16 r.rxPdu.data 2).toNat := by
    have h253 : (253 : Byte).toNat = 253 := rfl
    have hmaxRead := hq.2
    rw [hmax, h253]
    unfold embSrvRdwrRegsMaxReadRegs at hmaxRead
    unfold readWriteRegsAnsSize
    omega
  set a := getBigEnd16 r.rxPdu.data 0
  set n := getBigEnd16 r.rxPdu.data 2
  set wa := getBigEnd16 r.rxPdu.data 4
  set wn := getBigEnd16 r.rxPdu.data 6
  cases hfind : lookUp srv.getHoldingRegs wa r.store with
  | error code =>
    refine iff_of_false (lookUp_error_ne hfind) ?_
    rintro ⟨-, s', ⟨block, writeRegs, hblock, -⟩, -⟩
    rw [hfind] at hblock
    cases hblock
  | ok wrRegs =>
    simp only [takesRegs_iff srv hfind]
    by_cases hfit : wrRegs.start.toNat + wrRegs.size.toNat < wa.toNat + wn.toNat
    · rw [if_pos hfit]
      refine iff_of_false mbeIllegalDataAddr_ne ?_
      rintro ⟨-, s', ⟨hle, -⟩, -⟩
      omega
    rw [if_neg hfit]
    cases hwrite : wrRegs.writeRegs with
    | none =>
      refine iff_of_false mbeIllegalFunction_ne ?_
      rintro ⟨-, s', ⟨-, writeRegs, hsome, -⟩, -⟩
      cases hsome
    | some writeRegs =>
      dsimp only
      cases hfindRd : lookUp srv.getHoldingRegs a r.store with
      | error code =>
        refine iff_of_false (lookUp_error_ne hfindRd) ?_
        rintro ⟨-, s', -, block, readRegs, hblock, -⟩
        rw [hfindRd] at hblock
        cases hblock
      | ok rdRegs =>
        simp only [givesRegs_iff srv hfindRd]
        by_cases hfitRd : rdRegs.start.toNat + rdRegs.size.toNat < a.toNat + n.toNat
        · rw [if_pos hfitRd]
          refine iff_of_false mbeIllegalDataAddr_ne ?_
          rintro ⟨-, s', -, hle, -⟩
          omega
        rw [if_neg hfitRd]
        cases hread : rdRegs.readRegs with
        | none =>
          refine iff_of_false mbeIllegalFunction_ne ?_
          rintro ⟨-, s', -, -, readRegs, hsome, -⟩
          cases hsome
        | some readRegs =>
          dsimp only
          rw [if_neg hroom, writeThenRead_zero_iff]
          constructor
          · rintro ⟨s', hwritten, hzero⟩
            exact ⟨hchecks, s', ⟨Nat.not_lt.1 hfit, writeRegs, rfl, hwritten⟩,
              Nat.not_lt.1 hfitRd, readRegs, rfl, hzero⟩
          · rintro ⟨-, s', ⟨-, writeRegs', hsome, hwritten⟩, -, readRegs', hsomeRd, hzero⟩
            cases hsome
            cases hsomeRd
            exact ⟨s', hwritten, hzero⟩

/-! ## Files -/

theorem writeSubs_zero_iff (subs : List FileSub) (s : σ) (calls : List StoreCall) :
    (writeSubs srv subs s calls).1 = 0 ↔ TakesSubs srv subs s := by
  induction subs generalizing s calls with
  | nil => simp [writeSubs, TakesSubs]
  | cons sub subs ih =>
    unfold writeSubs TakesSubs
    cases hcheck : sub.check srv s with
    | error code =>
      refine iff_of_false (check_error_ne srv hcheck) ?_
      rintro ⟨file, writeFile, s', hok, -⟩
      cases hok
    | ok found =>
      obtain ⟨file, writeFile⟩ := found
      rcases hres : writeFile sub.startAddr sub.regCount sub.values s with ⟨code, s'⟩
      dsimp only
      rw [hres]
      by_cases hcode : code = 0
      · rw [if_neg (not_not.2 hcode), ih]
        subst hcode
        constructor
        · intro h
          exact ⟨file, writeFile, s', rfl, hres, h⟩
        · rintro ⟨file', writeFile', s'', hok, hwritten, hrest⟩
          cases hok
          rw [hres] at hwritten
          cases hwritten
          exact hrest
      · rw [if_pos hcode]
        refine iff_of_false hcode ?_
        rintro ⟨file', writeFile', s'', hok, hwritten, -⟩
        cases hok
        rw [hres] at hwritten
        exact hcode (congrArg Prod.fst hwritten)

theorem writeFile_zero_iff (hmax : r.txPdu.maxSize = 253) :
    (embSrvWriteFile srv r).1 = 0
      ↔ FileChecks r.rxPdu ∧ TakesSubs srv r.rxPdu.fileSubs r.store := by
  have h253 : r.txPdu.maxSize.toNat = 253 := by rw [hmax]; rfl
  by_cases hcount : 0x09 < (r.rxPdu.data 0).toNat ∧ (r.rxPdu.data 0).toNat < 0xFB
  swap
  · refine ⟨fun h => ?_, fun h => absurd h.1.byteCount hcount⟩
    unfold embSrvWriteFile at h
    dsimp only at h
    rw [if_pos (by omega)] at h
    exact absurd h mbeIllegalDataValue_ne
  by_cases hroom : r.rxPdu.dataSize.toNat ≤ 253
  swap
  · refine ⟨fun h => ?_, fun h => absurd h.1.dataSize hroom⟩
    unfold embSrvWriteFile at h
    dsimp only at h
    rw [if_neg (by omega), if_pos (by omega)] at h
    exact absurd h mbeSlaveFailure_ne
  have heq := embSrvWriteFile_eq srv hcount (by omega)
  dsimp only at heq
  rw [← writeSubs_zero_iff srv r.rxPdu.fileSubs r.store r.calls, ← heq]
  exact ⟨fun h => ⟨⟨hcount, hroom⟩, h⟩, fun h => h.2⟩

/-- Sub-requests that all fit fill what there is. -/
theorem fileSubs_filled (d : Mem Byte) {stop : ℕ} (fuel pos : ℕ) (hfuel : stop ≤ pos + fuel)
    (hpos : pos ≤ stop) (hfits : ∀ sub ∈ fileSubs d stop fuel pos, sub.fits = true) :
    ((fileSubs d stop fuel pos).map FileSub.size).sum = stop - pos := by
  induction fuel generalizing pos with
  | zero =>
    have hend : stop - pos = 0 := by omega
    rw [hend]
    rfl
  | succ fuel ih =>
    unfold fileSubs at hfits ⊢
    by_cases hlt : pos < stop
    swap
    · rw [if_neg hlt]
      have hend : stop - pos = 0 := by omega
      rw [hend]
      rfl
    rw [if_pos hlt] at hfits ⊢
    dsimp only at hfits ⊢
    rw [List.forall_mem_cons] at hfits
    obtain ⟨hfit, hrest⟩ := hfits
    rw [if_pos hfit] at hrest ⊢
    have hend : pos + 7 + (fileSubAt d stop pos).values.length * 2 ≤ stop := by
      unfold fileSubAt at hfit ⊢
      rw [Mem.length_beWords]
      exact of_decide_eq_true hfit
    rw [List.map_cons, List.sum_cons, ih _ (by omega) hend hrest, FileSub.size]
    omega

theorem TakesSubs.fits {subs : List FileSub} {s : σ} (h : TakesSubs srv subs s) :
    ∀ sub ∈ subs, sub.fits = true := by
  induction subs generalizing s with
  | nil => simp
  | cons sub subs ih =>
    obtain ⟨file, writeFile, s', hcheck, -, hrest⟩ := h
    rw [List.forall_mem_cons]
    exact ⟨(check_ok srv hcheck).2.2.2, ih hrest⟩

/-- An answered request has length fields that agree if and only if the one the handler does not
compare agrees wherever it is all that could be wrong. -/
theorem length_fields_agree_iff (hmax : r.txPdu.maxSize = 253) :
    (((embSrvWriteCoils srv r).1 = 0 → CoilLengths r.rxPdu)
      ↔ (CoilChecks r.rxPdu → TakesCoils srv r.rxPdu r.store →
        (r.rxPdu.data 4).toNat = bitsBytes (getBigEnd16 r.rxPdu.data 2)))
    ∧ (((embSrvWriteRegs srv r).1 = 0 → RegLengths r.rxPdu)
      ↔ (RegChecks r.rxPdu → ∀ s', TakesRegs srv r.rxPdu (getBigEnd16 r.rxPdu.data 0)
          (getBigEnd16 r.rxPdu.data 2) 5 r.store s' →
        r.rxPdu.dataSize.toNat = 5 + (r.rxPdu.data 4).toNat))
    ∧ (((embSrvReadWriteRegs srv r).1 = 0 → ReadWriteLengths r.rxPdu)
      ↔ (ReadWriteChecks r.rxPdu → ∀ s', TakesRegs srv r.rxPdu (getBigEnd16 r.rxPdu.data 4)
          (getBigEnd16 r.rxPdu.data 6) 9 r.store s' →
        GivesRegs srv (getBigEnd16 r.rxPdu.data 0) (getBigEnd16 r.rxPdu.data 2) r.store s' →
        r.rxPdu.dataSize.toNat = 9 + (r.rxPdu.data 8).toNat))
    ∧ (((embSrvWriteFile srv r).1 = 0 → FileLengths r.rxPdu)
      ↔ (FileChecks r.rxPdu → TakesSubs srv r.rxPdu.fileSubs r.store →
        r.rxPdu.dataSize.toNat = 1 + (r.rxPdu.data 0).toNat)) := by
  have h253 : r.txPdu.maxSize.toNat = 253 := by rw [hmax]; rfl
  have hcoils : writeCoilsAnsSize ≤ r.txPdu.maxSize.toNat := by rw [h253]; decide
  have hregs : writeRegistersAnsSize ≤ r.txPdu.maxSize.toNat := by rw [h253]; decide
  rw [writeCoils_zero_iff srv hcoils, writeRegs_zero_iff srv hregs,
    readWriteRegs_zero_iff srv hmax, writeFile_zero_iff srv hmax]
  refine ⟨⟨?_, ?_⟩, ⟨?_, ?_⟩, ⟨?_, ?_⟩, ⟨?_, ?_⟩⟩
  · intro h hchecks htakes
    exact (h ⟨hchecks, htakes⟩).bytes
  · rintro h ⟨hchecks, htakes⟩
    exact ⟨h hchecks htakes, hchecks.dataSize⟩
  · intro h hchecks s' htakes
    exact (h ⟨hchecks, s', htakes⟩).dataSize
  · rintro h ⟨hchecks, s', htakes⟩
    exact ⟨hchecks.bytes, h hchecks s' htakes⟩
  · intro h hchecks s' htakes hgives
    exact (h ⟨hchecks, s', htakes, hgives⟩).dataSize
  · rintro h ⟨hchecks, s', htakes, hgives⟩
    exact ⟨hchecks.bytes, h hchecks s' htakes hgives⟩
  · intro h hchecks htakes
    exact (h ⟨hchecks, htakes⟩).dataSize
  · rintro h ⟨hchecks, htakes⟩
    have hsize := h hchecks htakes
    refine ⟨hsize, ?_⟩
    have hfilled := fileSubs_filled r.rxPdu.data r.rxPdu.dataSize.toNat 1 (by omega) (by omega)
      (htakes.fits srv)
    unfold EmbPdu.fileSubs
    omega

/-- A server that takes whatever it is given. -/
def obligingServer : EmbServer Unit where
  getCoils := some fun _ _ => some ⟨0, 100, none, some fun _ _ _ s => (0, s)⟩
  getDiscreteInputs := none
  getHoldingRegs := some fun _ _ => some ⟨0, 100, some fun _ _ s => (0, [7], s),
    some fun _ _ _ s => (0, s)⟩
  getInputRegs := none
  getFile := some fun fileno _ => some ⟨fileno, none, some fun _ _ _ s => (0, s)⟩
  readFifo := none

/-- A request of these bytes. -/
def bareRequest (function : Byte) (bytes : List Byte) : SrvRun Unit where
  rxPdu := ⟨function, BitVec.ofNat 8 bytes.length, 253, Mem.blit (fun _ => 0) 0 bytes⟩
  txPdu := ⟨0, 0, 253, fun _ => 0⟩
  store := ()
  calls := []

/-- One register, and all the length fields say so. -/
theorem length_fields_agree_one :
    (embSrvWriteRegs obligingServer (bareRequest 0x10 [0, 0, 0, 1, 2, 0, 7])).1 = 0
      ∧ RegLengths (bareRequest 0x10 [0, 0, 0, 1, 2, 0, 7]).rxPdu := by
  have hzero :
      (embSrvWriteRegs obligingServer (bareRequest 0x10 [0, 0, 0, 1, 2, 0, 7])).1 = 0 := by decide
  have hagree := length_fields_agree_iff obligingServer
    (r := bareRequest 0x10 [0, 0, 0, 1, 2, 0, 7]) rfl
  exact ⟨hzero, hagree.2.1.2 (fun _ _ _ => rfl) hzero⟩

/-- Sixteen coils in one byte, a register with a byte too many in both of the requests for
registers, and files whose bytes are one more than their number says. -/
theorem disagreeing_lengths_answered :
    ¬ ((embSrvWriteCoils obligingServer (bareRequest 0x0F [0, 0, 0, 16, 1, 255])).1 = 0 →
      CoilLengths (bareRequest 0x0F [0, 0, 0, 16, 1, 255]).rxPdu)
    ∧ ¬ ((embSrvWriteRegs obligingServer (bareRequest 0x10 [0, 0, 0, 1, 2, 0, 7, 9])).1 = 0 →
      RegLengths (bareRequest 0x10 [0, 0, 0, 1, 2, 0, 7, 9]).rxPdu)
    ∧ ¬ ((embSrvReadWriteRegs obligingServer
        (bareRequest 0x17 [0, 0, 0, 1, 0, 0, 0, 1, 2, 0, 7, 9])).1 = 0 →
      ReadWriteLengths (bareRequest 0x17 [0, 0, 0, 1, 0, 0, 0, 1, 2, 0, 7, 9]).rxPdu)
    ∧ ¬ ((embSrvWriteFile obligingServer
        (bareRequest 0x15 [10, 6, 0, 1, 0, 0, 0, 2, 0, 1, 0, 2])).1 = 0 →
      FileLengths (bareRequest 0x15 [10, 6, 0, 1, 0, 0, 0, 2, 0, 1, 0, 2]).rxPdu) := by
  refine ⟨fun h => ?_, fun h => ?_, fun h => ?_, fun h => ?_⟩
  · exact absurd (h (by decide)).bytes (by decide)
  · exact absurd (h (by decide)).dataSize (by decide)
  · exact absurd (h (by decide)).dataSize (by decide)
  · exact absurd (h (by decide)).dataSize (by decide)

end Emodbus
