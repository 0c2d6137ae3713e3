import Emodbus.Proofs.Builders
import Emodbus.Proofs.Transaction
import Emodbus.Reuse

/-!
# Which transactions can be used again

A buffer only grows, and `max_size` is always what is left of its size in eight bits
(`run_counted`).  So a transaction can be used again exactly while the sizes of both its buffers fit
(`reusable_iff_fits`), and that is decided at the calls at which they grow.
-/

namespace Emodbus

open Octets

theorem SizeFits.of_le {size : ℕ} (h : size ≤ 255) : SizeFits size := by
  unfold SizeFits
  rw [Nat.mod_eq_of_lt (by omega)]
  exact Nat.min_le_left _ _

/-! ## The buffers -/

/-- `max_size` is what eight bits hold of the size of the buffer. -/
def PduT.Counted (p : PduT) : Prop := p.pdu.maxSize.toNat = p.bufferSize % 256

theorem PduT.resize_counted {alloc : ℕ → Bool} {p q : PduT} {size : ℕ} (hp : p.Counted)
    (h : p.resize alloc size = some q) :
    q.Counted ∧ q.bufferSize = max p.bufferSize size ∧ p.Grows alloc size := by
  unfold resize at h
  split_ifs at h with hlt halloc
  · obtain rfl := Option.some.inj h
    exact ⟨BitVec.toNat_ofNat _ _, (max_eq_right hlt.le).symm, fun _ => halloc⟩
  · obtain rfl := Option.some.inj h
    exact ⟨hp, (max_eq_left (Nat.not_lt.1 hlt)).symm, fun hlt' => absurd hlt' hlt⟩

theorem PduT.not_grows_of_none {alloc : ℕ → Bool} {p : PduT} {size : ℕ}
    (h : p.resize alloc size = none) : ¬ p.Grows alloc size := by
  unfold resize at h
  split_ifs at h with hlt halloc
  exact fun hgrows => halloc (hgrows hlt)

theorem PduT.growsWell_of_none {alloc : ℕ → Bool} {p : PduT} {size : ℕ}
    (h : p.resize alloc size = none) : p.GrowsWell alloc size := fun _ halloc =>
  absurd (fun _ => halloc) (not_grows_of_none h)

/-- The new size fits exactly if the buffer grows well. -/
theorem PduT.growsWell_iff {alloc : ℕ → Bool} {p : PduT} {size : ℕ} (hp : SizeFits p.bufferSize)
    (h : p.Grows alloc size) : SizeFits (max p.bufferSize size) ↔ p.GrowsWell alloc size := by
  unfold GrowsWell
  rcases Nat.lt_or_ge p.bufferSize size with hlt | hle
  · rw [max_eq_right hlt.le]
    exact ⟨fun hfits _ _ => hfits, fun hwell => hwell hlt (h hlt)⟩
  · rw [max_eq_left hle]
    exact ⟨fun _ hlt => absurd hlt (Nat.not_lt.2 hle), fun _ => hp⟩

/-! ## One call -/

theorem maxSize_ite {c : Prop} [Decidable c] {maxSize : Byte} {x y : ℤ × EmbPdu}
    (hx : x.2.maxSize = maxSize) (hy : y.2.maxSize = maxSize) :
    (if c then x else y).2.maxSize = maxSize := by
  split_ifs
  · exact hx
  · exact hy

/-- No builder changes `max_size`. -/
theorem BuilderCall.makeReq_maxSize (call : BuilderCall) (req : EmbPdu) :
    (call.makeReq req).2.maxSize = req.maxSize := by
  cases call with
  | readBits type a n =>
    refine maxSize_ite rfl (maxSize_ite ?_ rfl)
    rcases type with _ | _ | _ <;> rfl
  | readRegs type a n =>
    refine maxSize_ite rfl (maxSize_ite ?_ rfl)
    rcases type with _ | _ | _ <;> rfl
  | writeCoil address value => exact maxSize_ite rfl rfl
  | writeReg address value => exact maxSize_ite rfl rfl
  | writeMaskReg address andMask orMask => exact maxSize_ite rfl rfl
  | readFifo address => exact maxSize_ite rfl rfl
  | writeCoils a n pcoils => exact maxSize_ite rfl (maxSize_ite rfl rfl)
  | writeRegs a n data => exact maxSize_ite rfl (maxSize_ite rfl rfl)
  | rdwrRegs ra rn wa wn data =>
    cases data with
    | none => rfl
    | some data => exact maxSize_ite rfl (maxSize_ite rfl (maxSize_ite rfl rfl))
  | readFile subs => exact maxSize_ite rfl rfl
  | writeFile subs =>
    cases subs with
    | none => rfl
    | some subs => exact maxSize_ite rfl (maxSize_ite rfl rfl)

theorem Build.req_makeReq (b : Build) :
    ∃ call : BuilderCall, ∀ req, b.req.makeReq req = call.makeReq req := by
  cases b with
  | readBits type a n => exact ⟨.readBits type a n, fun _ => rfl⟩
  | writeCoil a value => exact ⟨.writeCoil a _, fun _ => rfl⟩
  | writeCoils a n coils => exact ⟨.writeCoils a n _, fun _ => rfl⟩
  | readRegs type a n => exact ⟨.readRegs type a n, fun _ => rfl⟩
  | writeReg a value => exact ⟨.writeReg a value, fun _ => rfl⟩
  | writeRegs a n data => exact ⟨.writeRegs a n data, fun _ => rfl⟩
  | readWriteRegs ra rn wa wn data => exact ⟨.rdwrRegs ra rn wa wn data, fun _ => rfl⟩
  | writeMaskReg a andMask orMask => exact ⟨.writeMaskReg a andMask orMask, fun _ => rfl⟩
  | readFile reqs => exact ⟨.readFile reqs, fun _ => rfl⟩
  | writeFile reqs => exact ⟨.writeFile _, fun _ => rfl⟩

theorem Build.makeReq_maxSize (b : Build) (req : EmbPdu) :
    (b.req.makeReq req).2.maxSize = req.maxSize := by
  obtain ⟨call, hcall⟩ := b.req_makeReq
  rw [hcall]
  exact call.makeReq_maxSize req

def Transaction.Counted (tr : Transaction) : Prop := tr.req.Counted ∧ tr.ans.Counted

/-- Both buffers have a size that fits. -/
def Transaction.Fits (tr : Transaction) : Prop :=
  SizeFits tr.req.bufferSize ∧ SizeFits tr.ans.bufferSize

theorem Transaction.build_counted {tr : Transaction} (c : BuildCall) (h : tr.Counted) :
    (tr.build c).1.Counted := by
  unfold build BuildReq.run
  rcases hreq : tr.req.resize c.1 (unsignedInt c.2.req.reqSize) with _ | req
  · exact h
  have hcounted := (PduT.resize_counted h.1 hreq).1
  dsimp only
  rcases hans : tr.ans.resize c.1 (unsignedInt c.2.req.ansSize) with _ | ans
  · exact ⟨hcounted, h.2⟩
  · refine ⟨?_, (PduT.resize_counted h.2 hans).1⟩
    unfold PduT.Counted
    dsimp only
    rw [c.2.makeReq_maxSize]
    exact hcounted

/-- After a call the sizes fit exactly if the buffers have grown well. -/
theorem Transaction.build_fits_iff {tr : Transaction} (c : BuildCall) (h : tr.Counted)
    (hfits : tr.Fits) : (tr.build c).1.Fits ↔ tr.GrowsWell c := by
  unfold build BuildReq.run GrowsWell
  rcases hreq : tr.req.resize c.1 (unsignedInt c.2.req.reqSize) with _ | req
  · exact iff_of_true hfits
      ⟨PduT.growsWell_of_none hreq, fun hgrows => absurd hgrows (PduT.not_grows_of_none hreq)⟩
  obtain ⟨-, hreqSize, hreqGrows⟩ := PduT.resize_counted h.1 hreq
  dsimp only
  rcases hans : tr.ans.resize c.1 (unsignedInt c.2.req.ansSize) with _ | ans
  · unfold Fits
    dsimp only
    rw [hreqSize, PduT.growsWell_iff hfits.1 hreqGrows]
    exact and_congr_right fun _ => iff_of_true hfits.2 fun _ => PduT.growsWell_of_none hans
  · obtain ⟨-, hansSize, hansGrows⟩ := PduT.resize_counted h.2 hans
    unfold Fits
    dsimp only
    rw [hreqSize, hansSize, PduT.growsWell_iff hfits.1 hreqGrows,
      PduT.growsWell_iff hfits.2 hansGrows]
    exact and_congr_right fun _ => ⟨fun hwell _ => hwell, fun hwell => hwell hreqGrows⟩

/-! ## Requests within the limits -/

/-- A C function whose arguments are accepted asks for room, and no more. -/
theorem made_ite {c : Prop} [Decidable c] {p : EmbPdu} {res : ℤ × EmbPdu} {size : ℤ} {room : ℕ}
    (hc : c ↔ (room : ℤ) < size) (hres : res.1 = 0) :
    (if c then (-enomem, p) else res).1 = 0 ↔ size ≤ (room : ℤ) := by
  split_ifs with h
  · exact iff_of_false neg_enomem_ne (not_le.2 (hc.1 h))
  · exact iff_of_true hres (not_lt.1 fun hlt => h (hc.2 hlt))

theorem embWriteCoilsMakeReq_made {req : EmbPdu} {a n : Word} {pcoils : Mem Byte}
    (hn : 1 ≤ n.toNat ∧ n.toNat ≤ embWriteCoilsMaxQuantity) :
    (embWriteCoilsMakeReq req a n pcoils).1 = 0
      ↔ embWriteCoilsCalcReqDataSize n ≤ req.maxSize.toNat := by
  have hn' : 1 ≤ n.toNat ∧ n.toNat ≤ 1968 := hn
  have hcalc : embWriteCoilsCalcReqDataSize n = ((5 + (n.toNat + 7) / 8 : ℕ) : ℤ) := by
    unfold embWriteCoilsCalcReqDataSize
    rw [if_pos hn, writeCoilsReqSize, toNat_bytesCount (by omega)]
  have hsize : (BitVec.ofInt 8 (embWriteCoilsCalcReqDataSize n)).toNat
      = 5 + (n.toNat + 7) / 8 := by
    rw [hcalc, BitVec.ofInt_natCast, dataSize_of_lt (by omega)]
  unfold embWriteCoilsMakeReq
  dsimp only
  rw [if_pos hn, hsize, hcalc]
  exact made_ite Nat.cast_lt.symm rfl

/-- Arguments that are accepted are made a request of wherever there is room. -/
theorem Build.InRange.made_iff {b : Build} (h : b.InRange) (req : EmbPdu) :
    (b.req.makeReq req).1 = 0 ↔ b.req.reqSize ≤ req.maxSize.toNat := by
  cases b with
  | readBits type a n =>
    obtain ⟨htype, hn⟩ := h
    refine made_ite Iff.rfl ?_
    rw [if_pos hn]
    rcases type with _ | _ | _
    · exact absurd htype (by simp)
    · rfl
    · rfl
  | readRegs type a n =>
    obtain ⟨htype, hn⟩ := h
    refine made_ite Iff.rfl ?_
    rw [if_pos hn]
    rcases type with _ | _ | _
    · exact absurd htype (by simp)
    · rfl
    · rfl
  | writeCoil a value => exact made_ite Nat.cast_lt.symm rfl
  | writeReg a value => exact made_ite Iff.rfl rfl
  | writeMaskReg a andMask orMask => exact made_ite Iff.rfl rfl
  | writeCoils a n coils => exact embWriteCoilsMakeReq_made h
  | writeRegs a n data =>
    have hn : 1 ≤ n.toNat ∧ n.toNat ≤ 123 := h
    refine made_ite Iff.rfl ?_
    rw [if_pos hn]
  | readWriteRegs ra rn wa wn data =>
    obtain ⟨hdata, hrd, hwr⟩ := h
    rcases data with _ | data
    · exact absurd hdata (by simp)
    refine made_ite Iff.rfl ?_
    rw [if_neg (not_not.2 hrd), if_neg (not_not.2 hwr)]
  | readFile reqs => exact made_ite Nat.cast_lt.symm (readFileReqLoop_ok reqs _ _ h)
  | writeFile reqs =>
    obtain ⟨hne, hrec⟩ := h
    have hrec' : ∀ sub ∈ reqs.map WriteFileSubreq.req,
        sub.recordNumber.toNat ≤ maxRecordNumber := by
      rw [List.forall_mem_map]
      exact hrec
    unfold Build.req
    dsimp only
    rw [writeFileBuildReq_of_ne hne]
    unfold embWriteFileMakeReq
    dsimp only
    rw [calcReqDataSize_eq, if_neg (by omega)]
    exact made_ite Iff.rfl (writeFileReqLoop_ok _ _ _ hrec')

theorem Build.InRange.nonneg {b : Build} (h : b.InRange) :
    0 ≤ b.req.reqSize ∧ 0 ≤ b.req.ansSize := by
  cases b with
  | readBits type a n =>
    refine ⟨Int.natCast_nonneg _, ?_⟩
    unfold req embReadBitsCalcAnswerDataSize
    dsimp only
    rw [if_pos h.2]
    exact Int.natCast_nonneg _
  | readRegs type a n =>
    refine ⟨Int.natCast_nonneg _, ?_⟩
    unfold req embReadRegsCalcAnswerDataSize
    dsimp only
    rw [if_pos h.2]
    exact Int.natCast_nonneg _
  | writeCoils a n coils =>
    refine ⟨?_, Int.natCast_nonneg _⟩
    have hn : 1 ≤ n.toNat ∧ n.toNat ≤ embWriteCoilsMaxQuantity := h
    unfold req embWriteCoilsCalcReqDataSize
    dsimp only
    rw [if_pos hn]
    exact Int.natCast_nonneg _
  | readFile reqs =>
    refine ⟨Int.natCast_nonneg _, ?_⟩
    unfold req readFileBuildReq
    dsimp only
    rw [calcAnswerDataSize_eq]
    exact Int.natCast_nonneg _
  | writeFile reqs =>
    unfold req
    dsimp only
    rw [writeFileBuildReq_of_ne h.1]
    dsimp only
    rw [calcReqDataSize_eq]
    exact ⟨Int.natCast_nonneg _, Int.natCast_nonneg _⟩
  | writeCoil a value => exact ⟨Int.natCast_nonneg _, Int.natCast_nonneg _⟩
  | writeReg a value => exact ⟨Int.natCast_nonneg _, Int.natCast_nonneg _⟩
  | writeRegs a n data => exact ⟨Int.natCast_nonneg _, Int.natCast_nonneg _⟩
  | readWriteRegs ra rn wa wn data => exact ⟨Int.natCast_nonneg _, Int.natCast_nonneg _⟩
  | writeMaskReg a andMask orMask => exact ⟨Int.natCast_nonneg _, Int.natCast_nonneg _⟩

theorem PduT.Counted.room_eq {p : PduT} (h : p.Counted) (size : ℕ) :
    p.room size = max p.bufferSize size % 256 := by
  unfold room
  split_ifs with hlt
  · rw [max_eq_right hlt.le]
  · rw [max_eq_left (Nat.not_lt.1 hlt)]
    exact h

/-- A request within the limits is built exactly if what is then counted of its buffer is
enough. -/
theorem Transaction.build_inLimits {tr : Transaction} {alloc : ℕ → Bool} {b : Build}
    (h : tr.Counted) (hgrows : b.req.Grows alloc tr) (hb : b.InLimits) :
    ∃ n m : ℕ, b.req.reqSize = n ∧ b.req.ansSize = m ∧ n ≤ 253 ∧ m ≤ 253
      ∧ ((tr.build (alloc, b)).2 = some 0 ↔ n ≤ max tr.req.bufferSize n % 256)
      ∧ (tr.build (alloc, b)).1.ans.pdu.maxSize.toNat = max tr.ans.bufferSize m % 256 := by
  obtain ⟨hrange, hreqLe, hansLe⟩ := hb
  obtain ⟨n, hn⟩ := Int.eq_ofNat_of_zero_le hrange.nonneg.1
  obtain ⟨m, hm⟩ := Int.eq_ofNat_of_zero_le hrange.nonneg.2
  have hn253 : n ≤ 253 := by
    rw [hn] at hreqLe
    exact Nat.cast_le.1 hreqLe
  have hm253 : m ≤ 253 := by
    rw [hm] at hansLe
    exact Nat.cast_le.1 hansLe
  have hreqInt : unsignedInt b.req.reqSize = n := by rw [hn, unsignedInt_natCast (by omega)]
  have hansInt : unsignedInt b.req.ansSize = m := by rw [hm, unsignedInt_natCast (by omega)]
  obtain ⟨req, ans, hrun, hreq, hans⟩ := BuildReq.run_returns hgrows
  rw [hreqInt, h.1.room_eq] at hreq
  rw [hansInt, h.2.room_eq] at hans
  refine ⟨n, m, hn, hm, hn253, hm253, ?_, ?_⟩
  · unfold build
    dsimp only
    rw [hrun, Option.some.injEq, hrange.made_iff, hn, Nat.cast_le, hreq]
  · unfold build
    dsimp only
    rw [hrun, hans]

theorem SizeFits.le_counted {size n : ℕ} (h : SizeFits size) (hn : n ≤ 253) :
    n ≤ max size n % 256 := by
  unfold SizeFits maxPduDataSize at h
  omega

theorem SizeFits.of_counted {size : ℕ} (h : 253 ≤ max size 253 % 256) : SizeFits size := by
  unfold SizeFits maxPduDataSize
  omega

/-- Thirty-six sub-requests make the longest request there is. -/
def longestRequest : Build := .readFile (List.replicate 36 ⟨1, 0, 1⟩)

/-- As many registers as a sub-answer can hold. -/
def longestAnswer : Build := .readFile [⟨1, 0, 125⟩]

theorem longestRequest_inLimits : longestRequest.InLimits := by
  refine ⟨?_, by decide, by decide⟩
  intro sub hsub
  rw [List.eq_of_mem_replicate hsub]
  exact Nat.zero_le _

theorem longestAnswer_inLimits : longestAnswer.InLimits := by
  refine ⟨?_, by decide, by decide⟩
  intro sub hsub
  rw [List.mem_singleton.1 hsub]
  exact Nat.zero_le _

theorem Transaction.reusable_iff_fits {tr : Transaction} (h : tr.Counted) :
    tr.Reusable ↔ tr.Fits := by
  constructor
  · intro hreuse
    have hmem : ∀ b : Build, b.req.Grows (fun _ => true) tr := fun _ =>
      ⟨fun _ => rfl, fun _ => rfl⟩
    obtain ⟨n, -, hn, -, -, -, hbuilt, -⟩ := build_inLimits h (hmem _) longestRequest_inLimits
    obtain ⟨-, m, -, hm, -, -, -, hans⟩ := build_inLimits h (hmem _) longestAnswer_inLimits
    obtain rfl : n = 253 := (Nat.cast_inj.1 hn).symm
    obtain rfl : m = 253 := (Nat.cast_inj.1 hm).symm
    have hroom := (hreuse _ _ (hmem _) longestAnswer_inLimits).2
    rw [hm, hans, Nat.cast_le] at hroom
    exact ⟨.of_counted (hbuilt.1 (hreuse _ _ (hmem _) longestRequest_inLimits).1),
      .of_counted hroom⟩
  · intro hfits alloc b hgrows hb
    obtain ⟨n, m, hn, hm, hn253, hm253, hbuilt, hans⟩ := build_inLimits h hgrows hb
    refine ⟨hbuilt.2 (hfits.1.le_counted hn253), ?_⟩
    rw [hm, hans, Nat.cast_le]
    exact hfits.2.le_counted hm253

/-! ## Runs -/

/-- In a run from a new transaction, it can be used again after each call, exactly if each call that
grows a buffer gives it a size that fits. -/
theorem reusable_along_iff (reqFunction ansFunction : Byte) (calls : List BuildCall) :
    (∀ pre, pre <+: calls →
        (Mealy.run Transaction.build (.fresh reqFunction ansFunction) pre).1.Reusable)
      ↔ Mealy.Along Transaction.build Transaction.GrowsWell (.fresh reqFunction ansFunction)
        calls := by
  have hfresh : (Transaction.fresh reqFunction ansFunction).Counted := ⟨rfl, rfl⟩
  refine Mealy.run_states_iff (A := fun _ => True) (I := Transaction.Counted)
    (fun tr c _ h => Transaction.build_counted c h) ?_ calls _ (fun _ _ => trivial) hfresh ?_
  · intro tr c _ h hreuse
    rw [Transaction.reusable_iff_fits (Transaction.build_counted c h)]
    exact Transaction.build_fits_iff c h ((Transaction.reusable_iff_fits h).1 hreuse)
  · exact (Transaction.reusable_iff_fits hfresh).2
      ⟨.of_le (Nat.zero_le _), .of_le (Nat.zero_le _)⟩

/-- A call that is refused, for three registers too many. -/
def tooManyRegs : BuildCall := (fun _ => true, .writeRegs 0 126 fun _ => 0)

/-- Then there is room for one byte, and no single register can be written. -/
theorem refused_call_spoils_transaction :
    ((Transaction.fresh 0 0).build tooManyRegs).2 = some (-enomem)
      ∧ ((Transaction.fresh 0 0).build tooManyRegs).1.req.pdu.maxSize = 1
      ∧ (Build.writeReg 0 7).InLimits
      ∧ (((Transaction.fresh 0 0).build tooManyRegs).1.build (fun _ => true, .writeReg 0 7)).2
        = some (-enomem)
      ∧ ¬ (Mealy.run Transaction.build (.fresh 0 0) [tooManyRegs]).1.Reusable := by
  have hlimits : (Build.writeReg 0 7).InLimits := ⟨trivial, by decide, by decide⟩
  refine ⟨rfl, rfl, hlimits, rfl, fun h => ?_⟩
  have hzero := (h (fun _ => true) (.writeReg 0 7) ⟨fun _ => rfl, fun _ => rfl⟩ hlimits).1
  exact absurd hzero (by decide)

end Emodbus
