import Emodbus.Builders
import Emodbus.Proofs.ClientFile

/-!
# What a builder that fails has written

Eleven builders, and three ways to end (`ends`): the request is built, it is refused before
anything is written, or the builder writes some of it and then fails.
-/

namespace Emodbus

open Octets

/-- A builder that fails before it writes. -/
theorem refused_ite {c : Prop} [Decidable c] {req : EmbPdu} {code : ℤ} {res : ℤ × EmbPdu}
    (h : res.1 = 0 ∨ res.2 = req) :
    (if c then (code, req) else res).1 = 0 ∨ (if c then (code, req) else res).2 = req := by
  split_ifs
  · exact .inr rfl
  · exact h

theorem two_stored (d : Mem Byte) (a b : Word) :
    storeWord (storeWord d 0 (swapBytes a)) 2 (swapBytes b) = Mem.blit d 0 (Mem.be [a, b]) := by
  rw [storeWord_swapBytes, storeWord_swapBytes]
  exact (Mem.blit_append d 0 (Mem.be [a]) (Mem.be [b])).symm

/-- How a builder ends that has left `spill` behind if it fails too late. -/
def EndsWith (req : EmbPdu) (spill : Option Spill) (res : ℤ × EmbPdu) : Prop :=
  (spill = none ∧ (res.1 = 0 ∨ res.2 = req)) ∨ ∃ s, spill = some s ∧ res.1 ≠ 0 ∧ res.2 = s.into req

/-- A builder that looks at the type last, for a type that is none. -/
theorem untyped_endsWith {req : EmbPdu} {a n : Word} {maxQuantity : ℕ} :
    EndsWith req
      (if 4 ≤ req.maxSize.toNat ∧ 1 ≤ n.toNat ∧ n.toNat ≤ maxQuantity then
        some ⟨req.function, 4, Mem.be [a, n]⟩
      else none)
      (if (req.maxSize.toNat : ℤ) < (4 : ℕ) then (-enomem, req)
      else if 1 ≤ n.toNat ∧ n.toNat ≤ maxQuantity then
        (-einval, { req with
          data := storeWord (storeWord req.data 0 (swapBytes a)) 2 (swapBytes n), dataSize := 4 })
      else (-einval, req)) := by
  by_cases hroom : (req.maxSize.toNat : ℤ) < (4 : ℕ)
  · have hnot : ¬ 4 ≤ req.maxSize.toNat := by omega
    rw [if_pos hroom, if_neg fun h => hnot h.1]
    exact .inl ⟨rfl, .inr rfl⟩
  · have hle : 4 ≤ req.maxSize.toNat := by omega
    by_cases hn : 1 ≤ n.toNat ∧ n.toNat ≤ maxQuantity
    · rw [if_neg hroom, if_pos hn, if_pos ⟨hle, hn⟩, two_stored]
      exact .inr ⟨_, rfl, neg_einval_ne, rfl⟩
    · rw [if_neg hroom, if_neg hn, if_neg fun h => hn h.2]
      exact .inl ⟨rfl, .inr rfl⟩

/-- A builder that looks at the record numbers one after the other, with `length` bytes of
sub-requests. -/
theorem subs_endsWith {α : Type*} {req : EmbPdu} {function : Byte} {length : ℕ} {subs : List α}
    (recordNumber : α → Word) (bytes : α → List Byte) :
    EndsWith req
      (if 1 + length ≤ req.maxSize.toNat
          ∧ ∃ sub ∈ subs, maxRecordNumber < (recordNumber sub).toNat then
        some ⟨function, BitVec.ofNat 8 (1 + length), BitVec.ofNat 8 length
          :: (subs.takeWhile fun sub => (recordNumber sub).toNat ≤ maxRecordNumber).flatMap bytes⟩
      else none)
      (if req.maxSize.toNat < 1 + length then (-enomem, req)
      else
        (if ∀ sub ∈ subs, (recordNumber sub).toNat ≤ maxRecordNumber then 0 else -einval,
          { req with
            function := function
            dataSize := BitVec.ofNat 8 (1 + length)
            data := Mem.blit (Mem.blit req.data 0 [BitVec.ofNat 8 length]) 1
              ((subs.takeWhile fun sub =>
                (recordNumber sub).toNat ≤ maxRecordNumber).flatMap bytes) })) := by
  by_cases hroom : req.maxSize.toNat < 1 + length
  · have hnot : ¬ 1 + length ≤ req.maxSize.toNat := Nat.not_le.2 hroom
    rw [if_pos hroom, if_neg fun h => hnot h.1]
    exact .inl ⟨rfl, .inr rfl⟩
  rw [if_neg hroom]
  by_cases hall : ∀ sub ∈ subs, (recordNumber sub).toNat ≤ maxRecordNumber
  · have hnot : ¬ ∃ sub ∈ subs, maxRecordNumber < (recordNumber sub).toNat := by simpa using hall
    rw [if_neg fun h => hnot h.2]
    exact .inl ⟨rfl, .inl (if_pos hall)⟩
  · have hex : ∃ sub ∈ subs, maxRecordNumber < (recordNumber sub).toNat := by simpa using hall
    rw [if_pos ⟨Nat.not_lt.1 hroom, hex⟩]
    refine .inr ⟨_, rfl, ?_, ?_⟩
    · rw [if_neg hall]
      exact neg_einval_ne
    · unfold Spill.into
      dsimp only
      rw [Mem.blit_cons _ 0 _ (List.flatMap _ _)]

namespace BuilderCall

/-- How a call ends. -/
def Ends (call : BuilderCall) (req : EmbPdu) : Prop :=
  EndsWith req (call.spill req) (call.makeReq req)

theorem readBits_ends (req : EmbPdu) (type : Option EmbRbType) (a n : Word) :
    (readBits type a n).Ends req := by
  rcases type with _ | type
  · exact untyped_endsWith
  · refine .inl ⟨rfl, refused_ite ?_⟩
    split_ifs
    · cases type <;> exact .inl rfl
    · exact .inr rfl

theorem readRegs_ends (req : EmbPdu) (type : Option EmbRrType) (a n : Word) :
    (readRegs type a n).Ends req := by
  rcases type with _ | type
  · exact untyped_endsWith
  · refine .inl ⟨rfl, refused_ite ?_⟩
    split_ifs
    · cases type <;> exact .inl rfl
    · exact .inr rfl

theorem readFile_ends (req : EmbPdu) (subs : List EmbReadFileReq) : (readFile subs).Ends req := by
  unfold Ends makeReq spill embReadFileMakeReq readFileReqSize
  dsimp only
  rw [readFileReqLoop_run, Nat.add_sub_cancel_left]
  exact subs_endsWith EmbReadFileReq.recordNumber EmbReadFileReq.bytes

theorem writeFile_ends (req : EmbPdu) (subs : Option (List EmbWriteFileReq)) :
    (writeFile subs).Ends req := by
  rcases subs with _ | subs
  · exact .inl ⟨rfl, .inr rfl⟩
  unfold Ends makeReq spill embWriteFileMakeReq
  dsimp only
  rw [calcReqDataSize_eq]
  generalize (subs.flatMap EmbWriteFileReq.bytes).length = length
  have hcount : ((1 + length : ℕ) : ℤ) - 1 = (length : ℕ) := by omega
  rw [writeFileReqLoop_run, if_neg (show ¬ ((1 + length : ℕ) : ℤ) ≤ 0 by omega), hcount,
    BitVec.ofInt_natCast, BitVec.ofInt_natCast]
  simp only [Nat.cast_lt]
  exact subs_endsWith EmbWriteFileReq.recordNumber EmbWriteFileReq.bytes

/-- The other builders write nothing before they have made their checks. -/
theorem ends (call : BuilderCall) (req : EmbPdu) : call.Ends req := by
  cases call with
  | readBits type a n => exact readBits_ends req type a n
  | readRegs type a n => exact readRegs_ends req type a n
  | readFile subs => exact readFile_ends req subs
  | writeFile subs => exact writeFile_ends req subs
  | writeCoil address value => exact .inl ⟨rfl, refused_ite (.inl rfl)⟩
  | writeReg address value => exact .inl ⟨rfl, refused_ite (.inl rfl)⟩
  | writeMaskReg address andMask orMask => exact .inl ⟨rfl, refused_ite (.inl rfl)⟩
  | readFifo address => exact .inl ⟨rfl, refused_ite (.inl rfl)⟩
  | writeCoils a n pcoils =>
    refine .inl ⟨rfl, refused_ite ?_⟩
    split_ifs
    · exact .inl rfl
    · exact .inr rfl
  | writeRegs a n data =>
    refine .inl ⟨rfl, refused_ite ?_⟩
    split_ifs
    · exact .inl rfl
    · exact .inr rfl
  | rdwrRegs ra rn wa wn data =>
    refine .inl ⟨rfl, ?_⟩
    rcases data with _ | data
    · exact .inr rfl
    · exact refused_ite (refused_ite (refused_ite (.inl rfl)))

end BuilderCall

/-- A builder that fails leaves the PDU as it was exactly if it fails before it writes, or writes
what is there already. -/
theorem builder_leaves_untouched_iff (call : BuilderCall) (req : EmbPdu) :
    call.LeavesUntouched req ↔ ∀ s, call.spill req = some s →
      s.function = req.function ∧ s.dataSize = req.dataSize ∧ Mem.At req.data 0 s.bytes := by
  unfold BuilderCall.LeavesUntouched
  rcases call.ends req with ⟨hspill, hdone⟩ | ⟨s, hspill, hcode, hpdu⟩
  · rw [hspill]
    refine iff_of_true (fun hcode => ?_) (by simp)
    rcases hdone with hzero | hpdu
    · exact absurd hzero hcode
    · rw [hpdu]
      exact ⟨rfl, rfl, rfl⟩
  · rw [hspill, hpdu]
    unfold Spill.into
    dsimp only
    rw [Mem.blit_eq_self_iff]
    simp [hcode]

/-- A request to read one register of the record `0x2710` is too late for that: it is 8 bytes long
by then. -/
theorem failed_builder_writes :
    ((BuilderCall.readFile [⟨4, 0x2710, 1⟩]).makeReq ⟨0, 0, 253, fun _ => 0⟩).1 = -einval
      ∧ ((BuilderCall.readFile [⟨4, 0x2710, 1⟩]).makeReq ⟨0, 0, 253, fun _ => 0⟩).2.function = 0x14
      ∧ ((BuilderCall.readFile [⟨4, 0x2710, 1⟩]).makeReq ⟨0, 0, 253, fun _ => 0⟩).2.dataSize = 8
      ∧ ¬ (BuilderCall.readFile [⟨4, 0x2710, 1⟩]).LeavesUntouched ⟨0, 0, 253, fun _ => 0⟩ := by
  refine ⟨rfl, rfl, rfl, fun h => ?_⟩
  have hsize := (h neg_einval_ne).2.1
  exact absurd hsize (by decide)

end Emodbus
