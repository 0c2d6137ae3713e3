import Emodbus.FileSubs

/-!
# Writing files is writing the list of sub-requests

The swaps of one sub-request stay behind the next, so the loop finds every sub-request as it was
sent.
-/

namespace Emodbus

open Octets

variable {σ : Type} {d d' : Mem Byte}

theorem getBigEnd16_congr {off : ℕ} (h0 : d off = d' off) (h1 : d (off + 1) = d' (off + 1)) :
    getBigEnd16 d off = getBigEnd16 d' off := by
  rw [getBigEnd16_eq, getBigEnd16_eq]
  exact Mem.beWord_congr h0 h1

theorem fileSubAt_congr {stop pos : ℕ} (h : ∀ i, pos ≤ i → d i = d' i) :
    fileSubAt d stop pos = fileSubAt d' stop pos := by
  have hword : ∀ off, pos ≤ off → getBigEnd16 d off = getBigEnd16 d' off :=
    fun off hoff => getBigEnd16_congr (h off hoff) (h (off + 1) (by omega))
  have hvalues (n : ℕ) : Mem.beWords d (pos + 7) n = Mem.beWords d' (pos + 7) n := by
    refine List.map_congr_left fun i _ => ?_
    exact Mem.beWord_congr (h _ (by omega)) (h _ (by omega))
  unfold fileSubAt
  rw [h pos le_rfl, hword (pos + 1) (by omega), hword (pos + 3) (by omega),
    hword (pos + 5) (by omega), hvalues]

theorem fileSubs_congr {stop fuel pos : ℕ} (h : ∀ i, pos ≤ i → d i = d' i) :
    fileSubs d stop fuel pos = fileSubs d' stop fuel pos := by
  induction fuel generalizing pos with
  | zero => rfl
  | succ fuel ih =>
    have hrest : fileSubs d stop fuel (pos + 7 + (fileSubAt d' stop pos).values.length * 2)
        = fileSubs d' stop fuel (pos + 7 + (fileSubAt d' stop pos).values.length * 2) :=
      ih fun i hi => h i (by omega)
    unfold fileSubs
    dsimp only
    rw [fileSubAt_congr h, hrest]

theorem regCount_fileSubAt (stop pos : ℕ) :
    (fileSubAt d stop pos).regCount = getBigEnd16 d (pos + 5) := by
  unfold FileSub.regCount fileSubAt
  rw [Mem.length_beWords, BitVec.ofNat_toNat, BitVec.setWidth_eq]

variable (srv : EmbServer σ)

/-- What it takes to pass the checks. -/
theorem check_ok {sub : FileSub} {s : σ} {file : EmbSrvFile σ}
    {writeFile : Word → Word → List Word → σ → Byte × σ}
    (h : sub.check srv s = .ok (file, writeFile)) :
    sub.refType = embFileRefType
      ∧ (∃ getFile, srv.getFile = some getFile ∧ getFile sub.fileno s = some file)
      ∧ file.writeFile = some writeFile ∧ sub.fits = true := by
  unfold FileSub.check at h
  by_cases h6 : sub.refType ≠ embFileRefType
  · rw [if_pos h6] at h
    cases h
  rw [if_neg h6] at h
  cases hget : srv.getFile with
  | none =>
    rw [hget] at h
    cases h
  | some getFile =>
    rw [hget] at h
    dsimp only at h
    cases hfile : getFile sub.fileno s with
    | none =>
      rw [hfile] at h
      cases h
    | some file' =>
      rw [hfile] at h
      dsimp only at h
      cases hwrite : file'.writeFile with
      | none =>
        rw [hwrite] at h
        cases h
      | some writeFile' =>
        rw [hwrite] at h
        dsimp only at h
        split_ifs at h with hfits
        cases h
        exact ⟨not_not.1 h6, ⟨getFile, rfl, hfile⟩, hwrite, hfits⟩

/-- What it takes to fail a check, and the code of it. -/
theorem check_error {sub : FileSub} {s : σ} {code : Byte} (h : sub.check srv s = .error code) :
    (sub.refType ≠ embFileRefType ∧ code = mbeIllegalDataAddr)
      ∨ sub.refType = embFileRefType ∧ ((srv.getFile = none ∧ code = mbeSlaveFailure)
        ∨ ∃ getFile, srv.getFile = some getFile
          ∧ ((getFile sub.fileno s = none ∧ code = mbeIllegalDataAddr)
            ∨ ∃ file, getFile sub.fileno s = some file
              ∧ ((file.writeFile = none ∧ code = mbeIllegalDataAddr)
                ∨ ∃ writeFile, file.writeFile = some writeFile ∧ sub.fits = false
                  ∧ code = mbeIllegalDataValue))) := by
  unfold FileSub.check at h
  by_cases h6 : sub.refType ≠ embFileRefType
  · rw [if_pos h6] at h
    exact .inl ⟨h6, (Except.error.inj h).symm⟩
  rw [if_neg h6] at h
  refine .inr ⟨not_not.1 h6, ?_⟩
  cases hget : srv.getFile with
  | none =>
    rw [hget] at h
    exact .inl ⟨rfl, (Except.error.inj h).symm⟩
  | some getFile =>
    rw [hget] at h
    refine .inr ⟨getFile, rfl, ?_⟩
    dsimp only at h
    cases hfile : getFile sub.fileno s with
    | none =>
      rw [hfile] at h
      exact .inl ⟨rfl, (Except.error.inj h).symm⟩
    | some file =>
      rw [hfile] at h
      refine .inr ⟨file, rfl, ?_⟩
      dsimp only at h
      cases hwrite : file.writeFile with
      | none =>
        rw [hwrite] at h
        exact .inl ⟨rfl, (Except.error.inj h).symm⟩
      | some writeFile =>
        rw [hwrite] at h
        dsimp only at h
        split_ifs at h with hfits
        exact .inr ⟨writeFile, rfl, Bool.not_eq_true _ ▸ hfits, (Except.error.inj h).symm⟩

theorem check_error_ne {sub : FileSub} {s : σ} {code : Byte} (h : sub.check srv s = .error code) :
    code ≠ 0 := by
  rcases check_error srv h with ⟨-, rfl⟩ | ⟨-, ⟨-, rfl⟩ | ⟨_, -, ⟨-, rfl⟩ | ⟨_, -, ⟨-, rfl⟩ |
    ⟨_, -, -, rfl⟩⟩⟩⟩
  all_goals decide

/-- A turn of the loop over a sub-request that fails a check. -/
theorem writeFileSub_error {stop pos : ℕ} {r : SrvRun σ} {code : Byte}
    (h : (fileSubAt r.rxPdu.data stop pos).check srv r.store = .error code) :
    writeFileSub srv stop pos r = (.error code, r) := by
  unfold writeFileSub
  rcases check_error srv h with ⟨h6, rfl⟩ | ⟨h6, hget⟩
  · exact if_pos h6
  refine (if_neg (not_not.2 h6)).trans ?_
  rcases hget with ⟨hget, rfl⟩ | ⟨getFile, hget, hfile⟩
  · simp only [hget]
  have hfileno : (fileSubAt r.rxPdu.data stop pos).fileno
      = getBigEnd16 r.rxPdu.data (pos + 1) := rfl
  rw [hfileno] at hfile
  rcases hfile with ⟨hfile, rfl⟩ | ⟨file, hfile, hwrite⟩
  · simp only [hget, hfile]
  rcases hwrite with ⟨hwrite, rfl⟩ | ⟨writeFile, hwrite, hfits, rfl⟩
  · simp only [hget, hfile, hwrite]
  · have hover : pos + 7 + (getBigEnd16 r.rxPdu.data (pos + 5)).toNat * 2 > stop :=
      Nat.not_le.1 (of_decide_eq_false hfits)
    simp only [hget, hfile, hwrite, if_pos hover]

/-- A turn of the loop over a sub-request that passes its checks. -/
theorem writeFileSub_call {stop pos : ℕ} {r : SrvRun σ} {file : EmbSrvFile σ}
    {writeFile : Word → Word → List Word → σ → Byte × σ}
    (h : (fileSubAt r.rxPdu.data stop pos).check srv r.store = .ok (file, writeFile)) :
    let sub := fileSubAt r.rxPdu.data stop pos
    let res := writeFile sub.startAddr sub.regCount sub.values r.store
    let r' : SrvRun σ := { r with
      rxPdu := { r.rxPdu with data := Mem.swapWords r.rxPdu.data (pos + 7) sub.values.length }
      store := res.2
      calls := r.calls ++ [.writeFile file.fileno sub.startAddr sub.regCount sub.values] }
    writeFileSub srv stop pos r
      = (if res.1 ≠ 0 then (.error res.1, r')
        else (.ok (pos + 7 + sub.values.length * 2), r')) := by
  obtain ⟨h6, ⟨getFile, hget, hfile⟩, hwrite, hfits⟩ := check_ok srv h
  dsimp only
  rw [regCount_fileSubAt]
  unfold fileSubAt at h6 hfile hfits ⊢
  dsimp only at h6 hfile hfits ⊢
  have hover : ¬ pos + 7 + (getBigEnd16 r.rxPdu.data (pos + 5)).toNat * 2 > stop := by
    simpa using hfits
  unfold writeFileSub
  refine (if_neg (not_not.2 h6)).trans ?_
  simp only [hget, hfile, hwrite, if_neg hover, Mem.leWords_swapWords, Mem.length_beWords]

/-- The loop of `emb_srv_write_file` does what `writeSubs` does of the sub-requests it finds. -/
theorem writeFileLoop_eq (stop fuel pos : ℕ) (r : SrvRun σ) :
    let res := writeFileLoop srv stop fuel pos r
    (res.1, res.2.store, res.2.calls)
      = writeSubs srv (fileSubs r.rxPdu.data stop fuel pos) r.store r.calls := by
  induction fuel generalizing pos r with
  | zero => rfl
  | succ fuel ih =>
    unfold writeFileLoop fileSubs
    by_cases hpos : pos < stop
    swap
    · rw [if_neg hpos, if_neg hpos]
      rfl
    rw [if_pos hpos, if_pos hpos]
    dsimp only
    unfold writeSubs
    cases hcheck : (fileSubAt r.rxPdu.data stop pos).check srv r.store with
    | error code =>
      rw [writeFileSub_error srv hcheck]
    | ok found =>
      obtain ⟨file, writeFile⟩ := found
      have hsub := writeFileSub_call srv hcheck
      dsimp only at hsub ⊢
      rw [hsub]
      rw [if_pos (check_ok srv hcheck).2.2.2]
      split_ifs with hcode
      · rfl
      · -- the next sub-request lies behind the registers that were swapped
        have hrest : ∀ i, pos + 7 + (fileSubAt r.rxPdu.data stop pos).values.length * 2 ≤ i →
            r.rxPdu.data i = Mem.swapWords r.rxPdu.data (pos + 7)
              (fileSubAt r.rxPdu.data stop pos).values.length i := by
          intro i hi
          rw [Mem.swapWords_of_ge _ (by omega)]
        rw [fileSubs_congr hrest]
        exact ih _ _

/-- `emb_srv_write_file` of a request that passes its first checks. -/
theorem embSrvWriteFile_eq {r : SrvRun σ}
    (hcount : 0x09 < (r.rxPdu.data 0).toNat ∧ (r.rxPdu.data 0).toNat < 0xFB)
    (hroom : r.rxPdu.dataSize.toNat ≤ r.txPdu.maxSize.toNat) :
    let res := embSrvWriteFile srv r
    (res.1, res.2.store, res.2.calls) = writeSubs srv r.rxPdu.fileSubs r.store r.calls := by
  unfold embSrvWriteFile
  dsimp only
  rw [if_neg (by omega), if_neg (Nat.not_lt.2 hroom)]
  exact writeFileLoop_eq srv _ _ 1 _

end Emodbus
