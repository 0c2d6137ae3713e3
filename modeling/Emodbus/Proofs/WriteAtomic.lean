import Emodbus.Proofs.FileSubs
import Emodbus.Proofs.SrvCases
import Emodbus.WriteAtomic

/-!
# When an exception means that nothing was changed
-/

namespace Emodbus

open Octets

variable {σ : Type} {srv : EmbServer σ} {r : SrvRun σ}

/-- An exception leaves the store as it was. -/
def Intact (r : SrvRun σ) (res : Byte × SrvRun σ) : Prop := res.1 ≠ 0 → res.2.store = r.store

theorem Refused.intact {res : Byte × SrvRun σ} (h : Refused r res) : Intact r res :=
  fun _ => h.store

theorem intact_of_zero {res : Byte × SrvRun σ} (h : res.1 = 0) : Intact r res :=
  fun hne => absurd h hne

theorem embSrvWriteCoil_intact (hsrv : srv.NeverFails) : Intact r (embSrvWriteCoil srv r) := by
  rcases embSrvWriteCoil_cases srv rfl rfl with h | ⟨block, write, hfind, hwrite, -, -, hcode, -⟩
  · exact h.intact
  · exact intact_of_zero (hcode.trans (hsrv.writeBits hfind hwrite _ _ _ _))

theorem embSrvWriteCoils_intact (hsrv : srv.NeverFails) : Intact r (embSrvWriteCoils srv r) := by
  rcases embSrvWriteCoils_cases srv rfl rfl with
    h | ⟨block, write, values, hreach, hwrite, -, -, hcode, -⟩
  · exact h.intact
  · exact intact_of_zero (hcode.trans (hsrv.writeBits hreach.found hwrite _ _ _ _))

theorem embSrvWriteRegs_intact (hsrv : srv.NeverFails) : Intact r (embSrvWriteRegs srv r) := by
  rcases embSrvWriteRegs_cases srv rfl rfl with
    h | ⟨block, write, values, hreach, hwrite, -, -, -, hcode, -⟩
  · exact h.intact
  · exact intact_of_zero (hcode.trans (hsrv.writeRegs hreach.found hwrite _ _ _ _))

theorem embSrvReadWriteRegs_intact (hsrv : srv.NeverFails) :
    Intact r (embSrvReadWriteRegs srv r) := by
  rcases embSrvReadWriteRegs_cases srv rfl rfl rfl rfl with
    h | ⟨wrRegs, rdRegs, write, read, values, hwr, hrd, hwrite, hread, -, -, hdone⟩
  · exact h.intact
  rcases hdone with ⟨hne, -, -⟩ | ⟨-, hcode, -⟩
  · exact absurd (hsrv.writeRegs hwr.found hwrite _ _ _ _) hne
  · exact intact_of_zero (hcode.trans (hsrv.readRegs hrd.found hread _ _ _))

/-- The code after a write that has not failed, with this much room needed. -/
theorem late_code {max need : ℕ} {code written : Byte} (h0 : written = 0)
    (h : code = if written ≠ 0 then written else if max < need then mbeSlaveFailure else 0) :
    code ≠ 0 ↔ max < need := by
  rw [if_neg (not_not.2 h0)] at h
  rw [h]
  split_ifs with hlt
  · exact ⟨fun _ => hlt, fun _ => mbeSlaveFailure_ne⟩
  · exact ⟨fun hne => absurd rfl hne, fun hlt' => absurd hlt' hlt⟩

theorem embSrvWriteReg_intact_iff (hsrv : srv.NeverFails) :
    Intact r (embSrvWriteReg srv r) ↔ SrvWriter.writeReg.Harmless srv r := by
  rcases embSrvWriteReg_cases srv rfl rfl with
    ⟨h, hnone⟩ | ⟨block, write, hfind, hwrite, hcalled, hcode, -⟩
  · refine ⟨fun _ _ block write hfind hwrite => ?_, fun _ => h.intact⟩
    rw [hnone block hfind] at hwrite
    cases hwrite
  · have hlate := late_code (hsrv.writeRegs hfind hwrite _ _ _ _) hcode
    constructor
    · intro h hroom block' write' hfind' hwrite'
      rw [hfind] at hfind'
      cases hfind'
      rw [hwrite] at hwrite'
      cases hwrite'
      exact hcalled.store.symm.trans (h (hlate.2 hroom))
    · intro h hne
      exact hcalled.store.trans (h (hlate.1 hne) block write hfind hwrite)

theorem embSrvMaskReg_intact_iff (hsrv : srv.NeverFails) :
    Intact r (embSrvMaskReg srv r) ↔ SrvWriter.maskReg.Harmless srv r := by
  rcases embSrvMaskReg_cases srv rfl rfl rfl with
    ⟨h, hnone⟩ | ⟨block, read, write, hfind, hread, hwrite, hdone⟩
  · refine ⟨fun _ _ block read write hfind hread hwrite => ?_, fun _ => h.intact⟩
    rcases hnone block hfind with hno | hno
    · rw [hno] at hread
      cases hread
    · rw [hno] at hwrite
      cases hwrite
  rcases hdone with ⟨hne, -, -⟩ | ⟨-, hcalled, hcode, -⟩
  · exact absurd (hsrv.readRegs hfind hread _ _ _) hne
  · have hlate := late_code (hsrv.writeRegs hfind hwrite _ _ _ _) hcode
    constructor
    · intro h hroom block' read' write' hfind' hread' hwrite'
      rw [hfind] at hfind'
      cases hfind'
      rw [hread] at hread'
      cases hread'
      rw [hwrite] at hwrite'
      cases hwrite'
      exact hcalled.store.symm.trans (h (hlate.2 hroom))
    · intro h hne
      exact hcalled.store.trans (h (hlate.1 hne) block read write hfind hread hwrite)

/-! ## Files -/

/-- A list of sub-requests that ends with a code has left the store `s₀`, or each of them passes its
checks. -/
theorem writeSubs_intact_iff (hsrv : srv.NeverFails) (s₀ : σ) (subs : List FileSub) (s : σ)
    (calls : List StoreCall) :
    ((writeSubs srv subs s calls).1 ≠ 0 → (writeSubs srv subs s calls).2.1 = s₀)
      ↔ Undisturbed srv s₀ subs s := by
  induction subs generalizing s calls with
  | nil => exact ⟨fun _ => trivial, fun _ h => absurd rfl h⟩
  | cons sub subs ih =>
    unfold writeSubs Undisturbed
    cases hcheck : sub.check srv s with
    | error code =>
      exact ⟨fun h => h (check_error_ne srv hcheck), fun h _ => h⟩
    | ok found =>
      obtain ⟨file, write⟩ := found
      obtain ⟨-, ⟨getFile, hget, hfile⟩, hwrite, -⟩ := check_ok srv hcheck
      have hfound : lookUp srv.getFile sub.fileno s = .ok file := by
        unfold lookUp
        rw [hget]
        dsimp only
        rw [hfile]
      have hzero := hsrv.writeFile hfound hwrite sub.startAddr sub.regCount sub.values s
      dsimp only
      rw [if_neg (not_not.2 hzero)]
      exact ih _ _

theorem embSrvWriteFile_intact_iff (hsrv : srv.NeverFails) :
    Intact r (embSrvWriteFile srv r) ↔ SrvWriter.writeFile.Harmless srv r := by
  by_cases hcount : 0x09 < (r.rxPdu.data 0).toNat ∧ (r.rxPdu.data 0).toNat < 0xFB
  swap
  · refine ⟨fun _ h1 h2 => absurd ⟨h1, h2⟩ hcount, fun _ _ => ?_⟩
    unfold embSrvWriteFile
    dsimp only
    rw [if_pos (by omega)]
  by_cases hroom : r.rxPdu.dataSize.toNat ≤ r.txPdu.maxSize.toNat
  swap
  · refine ⟨fun _ _ _ h => absurd h hroom, fun _ _ => ?_⟩
    unfold embSrvWriteFile
    dsimp only
    rw [if_neg (by omega), if_pos (Nat.not_le.1 hroom)]
  have heq := embSrvWriteFile_eq srv hcount hroom
  dsimp only at heq
  have hiff := writeSubs_intact_iff hsrv r.store r.rxPdu.fileSubs r.store r.calls
  rw [← heq] at hiff
  exact ⟨fun h _ _ _ => hiff.1 h, fun h => hiff.2 (h hcount.1 hcount.2 hroom)⟩

/-- A handler that writes leaves the store as it was when it returns a code, if and only if it is
harmless. -/
theorem exception_intact_iff (k : SrvWriter) (srv : EmbServer σ) (r : SrvRun σ)
    (hsrv : srv.NeverFails) :
    ((k.handler srv r).1 ≠ 0 → (k.handler srv r).2.store = r.store) ↔ k.Harmless srv r := by
  cases k with
  | writeCoil => exact ⟨fun _ => trivial, fun _ => embSrvWriteCoil_intact hsrv⟩
  | writeCoils => exact ⟨fun _ => trivial, fun _ => embSrvWriteCoils_intact hsrv⟩
  | writeReg => exact embSrvWriteReg_intact_iff hsrv
  | writeRegs => exact ⟨fun _ => trivial, fun _ => embSrvWriteRegs_intact hsrv⟩
  | maskReg => exact embSrvMaskReg_intact_iff hsrv
  | readWriteRegs => exact ⟨fun _ => trivial, fun _ => embSrvReadWriteRegs_intact hsrv⟩
  | writeFile => exact embSrvWriteFile_intact_iff hsrv

/-- One file, number 1, whose only register is the store. -/
def oneRegFile : EmbSrvFile Word where
  fileno := 1
  readFile := none
  writeFile := some fun _ _ values _ => (0, values.headD 0)

def oneFileServer : EmbServer Word where
  getCoils := none
  getDiscreteInputs := none
  getHoldingRegs := none
  getInputRegs := none
  getFile := some fun fileno _ => if fileno = 1 then some oneRegFile else none
  readFifo := none

theorem oneFileServer_neverFails : oneFileServer.NeverFails where
  writeBits h := by cases h
  readRegs h := by cases h
  writeRegs h := by cases h
  writeFile := by
    intro fileno s file write hfile hwrite
    have hget : (if fileno = 1 then some oneRegFile else none) = some file := by
      unfold lookUp oneFileServer at hfile
      dsimp only at hfile
      split_ifs at hfile ⊢
      cases hfile
      rfl
    split_ifs at hget
    cases hget
    cases hwrite
    intro _ _ _ _
    rfl

/-- The register 7 to file 1, and then a register to file 2. -/
def writeTwoFiles : SrvRun Word where
  rxPdu := ⟨0x15, 19, 253, fun i =>
    [18, 6, 0, 1, 0, 0, 0, 1, 0, 7, 6, 0, 2, 0, 0, 0, 1, 0, 9].getD i 0⟩
  txPdu := ⟨0, 0, 253, fun _ => 0⟩
  store := 0
  calls := []

/-- The register is there already. -/
def writeSameReg : SrvRun Word := { writeTwoFiles with store := 7 }

theorem write_one_file_intact :
    (SrvWriter.writeFile.handler oneFileServer writeSameReg).1 ≠ 0
      ∧ (SrvWriter.writeFile.handler oneFileServer writeSameReg).2.store = 7 := by
  have hcode : (SrvWriter.writeFile.handler oneFileServer writeSameReg).1 ≠ 0 := by decide
  have hiff := exception_intact_iff .writeFile oneFileServer writeSameReg oneFileServer_neverFails
  exact ⟨hcode, hiff.2 (fun _ _ _ => rfl) hcode⟩

/-- The second sub-request is for no file, and the first has been written. -/
theorem write_two_files_changes :
    ¬ ((SrvWriter.writeFile.handler oneFileServer writeTwoFiles).1 ≠ 0 →
      (SrvWriter.writeFile.handler oneFileServer writeTwoFiles).2.store = writeTwoFiles.store) := by
  intro h
  exact absurd (h (by decide)) (by decide)

end Emodbus
