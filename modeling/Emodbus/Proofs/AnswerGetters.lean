import Emodbus.AnswerGetters
import Emodbus.Proofs.FifoRoundTrip
import Emodbus.Proofs.FileWalk

/-!
# Which getters are confined to the answer

A getter that looks only at bytes of the answer is confined to it.  Where it looks at a byte behind,
two ways to fill that byte give two results (`getter_confined_iff`).
-/

namespace Emodbus

open Octets Cursor

namespace EmbPdu

variable {p q : EmbPdu}

theorem SameData.symm (h : p.SameData q) : q.SameData p where
  dataSize := h.dataSize.symm
  data := by
    rw [← h.dataSize]
    exact h.data.symm

theorem SameData.byte (h : p.SameData q) {i : ℕ} (hi : i < p.dataSize.toNat) :
    q.data i = p.data i := (h.data i hi).symm

theorem SameData.toNat (h : p.SameData q) : q.dataSize.toNat = p.dataSize.toNat := by
  rw [h.dataSize]

/-- The PDU with one byte set. -/
def put (p : EmbPdu) (i : ℕ) (b : Byte) : EmbPdu := { p with data := Mem.blit p.data i [b] }

theorem put_data (p : EmbPdu) (i : ℕ) (b : Byte) (j : ℕ) :
    (p.put i b).data j = if j = i then b else p.data j := Mem.blit_singleton p.data i b j

theorem SameData.put (h : p.SameData q) {i : ℕ} (hi : p.dataSize.toNat ≤ i) (b : Byte) :
    p.SameData (q.put i b) where
  dataSize := h.dataSize
  data j hj := by
    rw [put_data, if_neg (by omega)]
    exact h.data j hj

theorem sameData_refl (p : EmbPdu) : p.SameData p := ⟨rfl, fun _ _ => rfl⟩

theorem sameData_filled (p : EmbPdu) : p.SameData p.filled where
  dataSize := rfl
  data _ hi := (if_pos hi).symm

theorem filled_of_ge {i : ℕ} (h : p.dataSize.toNat ≤ i) : p.filled.data i = 0xFF :=
  if_neg (Nat.not_lt.2 h)

/-- No byte is larger than the one there is then. -/
theorem SameData.le_filled (h : p.SameData q) (i : ℕ) :
    (q.data i).toNat ≤ (p.filled.data i).toNat := by
  rcases Nat.lt_or_ge i p.dataSize.toNat with hi | hi
  · rw [h.byte hi, p.sameData_filled.byte hi]
  · have hmax : (0xFF : Byte).toNat = 255 := rfl
    have hlt := (q.data i).isLt
    rw [filled_of_ge hi, hmax]
    omega

end EmbPdu

theorem getSwapped_bytes (p : EmbPdu) (off : ℕ) :
    getSwapped p off = Word.ofBytes (p.data off) (p.data (off + 1)) := by
  rw [getSwapped_eq, getBigEnd16_eq]
  rfl

theorem getSwapped_same {p q : EmbPdu} {off : ℕ} (h : q.data off = p.data off)
    (h' : q.data (off + 1) = p.data (off + 1)) : getSwapped q off = getSwapped p off := by
  rw [getSwapped_bytes, getSwapped_bytes, h, h']

theorem getSwapped_ne {p q : EmbPdu} {off : ℕ} (h : q.data (off + 1) ≠ p.data (off + 1)) :
    getSwapped q off ≠ getSwapped p off := by
  rw [getSwapped_bytes, getSwapped_bytes]
  exact fun heq => h (Word.ofBytes_inj.1 heq).2

/-- Two results for one answer. -/
theorem AnswerGetter.not_confined {answer q q' : EmbPdu} {getter : AnswerGetter}
    (h : answer.SameData q) (h' : answer.SameData q') (hne : getter.get q ≠ getter.get q') :
    ¬ getter.Confined answer := fun hconf => hne ((hconf q h).trans (hconf q' h').symm)

/-! ## read_fifo.c -/

section Fifo

variable {p q : EmbPdu}

theorem regsCount_le (h : p.SameData q) : (embReadFifoRegsCount q).toNat ≤ p.maxRegsCount := by
  unfold EmbPdu.maxRegsCount embReadFifoRegsCount
  rw [getSwapped_bytes, getSwapped_bytes, Word.toNat_ofBytes, Word.toNat_ofBytes]
  have hhi := h.le_filled 2
  have hlo := h.le_filled (2 + 1)
  omega

theorem regsCount_same (h : p.SameData q) (hsize : 4 ≤ p.dataSize.toNat) :
    embReadFifoRegsCount q = embReadFifoRegsCount p :=
  getSwapped_same (h.byte (by omega)) (h.byte (by omega))

theorem fifoReg_same (h : p.SameData q) {i : ℕ} (hi : 6 + 2 * i ≤ p.dataSize.toNat) :
    getSwapped q (2 * (2 + i)) = getSwapped p (2 * (2 + i)) :=
  getSwapped_same (h.byte (by omega)) (h.byte (by omega))

/-- A register that is counted and ends behind the answer can be one or another. -/
theorem fifoReg_shows {i : ℕ} (hi : p.dataSize.toNat < 6 + 2 * i) :
    ∃ q q' : EmbPdu, p.SameData q ∧ p.SameData q'
      ∧ (embReadFifoRegsCount q).toNat = p.maxRegsCount
      ∧ (embReadFifoRegsCount q').toNat = p.maxRegsCount
      ∧ getSwapped q' (2 * (2 + i)) ≠ getSwapped q (2 * (2 + i)) := by
  have hcount : embReadFifoRegsCount (p.filled.put (2 * (2 + i) + 1) 0)
      = embReadFifoRegsCount p.filled := by
    refine getSwapped_same ?_ ?_
    · rw [EmbPdu.put_data, if_neg (by omega)]
    · rw [EmbPdu.put_data, if_neg (by omega)]
  refine ⟨p.filled, p.filled.put (2 * (2 + i) + 1) 0, p.sameData_filled,
    p.sameData_filled.put (by omega) 0, rfl, congrArg BitVec.toNat hcount, getSwapped_ne ?_⟩
  rw [EmbPdu.put_data, if_pos rfl, EmbPdu.filled_of_ge (by omega)]
  decide

theorem embReadFifoGetData_of_lt {offset : Word}
    (h : offset.toNat < (embReadFifoRegsCount p).toNat) :
    embReadFifoGetData (some p) offset = getSwapped p (2 * (2 + offset.toNat)) := if_pos h

theorem embReadFifoGetData_of_ge {offset : Word}
    (h : (embReadFifoRegsCount p).toNat ≤ offset.toNat) :
    embReadFifoGetData (some p) offset = 0xFFFF := if_neg (Nat.not_lt.2 h)

theorem readFifoGetData_confined_iff (p : EmbPdu) (offset : Word) :
    (AnswerGetter.readFifoGetData offset).Confined p
      ↔ (AnswerGetter.readFifoGetData offset).Inside p := by
  constructor
  · intro hconf hlt
    by_contra hbehind
    obtain ⟨q, q', h, h', hcount, hcount', hne⟩ := fifoReg_shows (Nat.not_le.1 hbehind)
    refine AnswerGetter.not_confined h' h (fun heq => hne ?_) hconf
    have hword := GetterResult.word.inj heq
    rwa [embReadFifoGetData_of_lt (by omega), embReadFifoGetData_of_lt (by omega)] at hword
  · intro hinside q h
    refine congrArg GetterResult.word ?_
    rcases Nat.lt_or_ge offset.toNat p.maxRegsCount with hlt | hge
    · have hsize := hinside hlt
      unfold embReadFifoGetData
      dsimp only
      rw [regsCount_same h (by omega), fifoReg_same h hsize]
    · rw [embReadFifoGetData_of_ge ((regsCount_le h).trans hge),
        embReadFifoGetData_of_ge ((regsCount_le p.sameData_refl).trans hge)]

theorem copyFifo_apply {buf : Mem Word} {n i : ℕ} (hi : i < n) :
    copyFifo p buf n i = getSwapped p (2 * (2 + i)) := by
  have hlen : i < ((List.range n).map fun i => getSwapped p (2 * (2 + i))).length := by simpa
  have hat : Mem.blit buf 0 ((List.range n).map fun i => getSwapped p (2 * (2 + i))) (0 + i) = _ :=
    Mem.blit_add buf hlen
  rw [Nat.zero_add, ← copyFifo_eq] at hat
  simpa using hat

/-- How many registers are copied. -/
def fifoCopied (p : EmbPdu) (bufSize : Word) : Word :=
  if bufSize.toNat > (embReadFifoRegsCount p).toNat then embReadFifoRegsCount p else bufSize

theorem toNat_fifoCopied (p : EmbPdu) (bufSize : Word) :
    (fifoCopied p bufSize).toNat = min bufSize.toNat (embReadFifoRegsCount p).toNat := by
  unfold fifoCopied
  split_ifs
  · omega
  · omega

theorem readFifoGetAllData_confined_iff (p : EmbPdu) (bufSize : Word) (buf : Mem Word) :
    (AnswerGetter.readFifoGetAllData bufSize buf).Confined p
      ↔ (AnswerGetter.readFifoGetAllData bufSize buf).Inside p := by
  constructor
  · intro hconf i hi
    by_contra hbehind
    obtain ⟨q, q', h, h', hcount, hcount', hne⟩ := fifoReg_shows (Nat.not_le.1 hbehind)
    refine AnswerGetter.not_confined h' h (fun heq => hne ?_) hconf
    have hbuf : copyFifo q' buf (fifoCopied q' bufSize).toNat
        = copyFifo q buf (fifoCopied q bufSize).toNat := (GetterResult.words.inj heq).2
    have hreg := congrFun hbuf i
    rwa [toNat_fifoCopied, toNat_fifoCopied, hcount, hcount', copyFifo_apply hi,
      copyFifo_apply hi] at hreg
  · intro hinside q h
    have hle := regsCount_le h
    have hle' := regsCount_le p.sameData_refl
    -- either no register is copied, or the answer has its count
    have hcopied : fifoCopied q bufSize = fifoCopied p bufSize := by
      refine BitVec.eq_of_toNat_eq ?_
      rw [toNat_fifoCopied, toNat_fifoCopied]
      rcases Nat.eq_zero_or_pos (min bufSize.toNat p.maxRegsCount) with hzero | hpos
      · omega
      · have hsize := hinside 0 hpos
        rw [regsCount_same h (by omega)]
    have hregs : copyFifo q buf (fifoCopied p bufSize).toNat
        = copyFifo p buf (fifoCopied p bufSize).toNat := by
      rw [copyFifo_eq, copyFifo_eq, toNat_fifoCopied]
      refine congrArg (Mem.blit buf 0) (List.map_congr_left fun i hi => ?_)
      have hlt := List.mem_range.1 hi
      exact fifoReg_same h (hinside i (by omega))
    change GetterResult.words (fifoCopied q bufSize)
        (copyFifo q buf (fifoCopied q bufSize).toNat)
      = .words (fifoCopied p bufSize) (copyFifo p buf (fifoCopied p bufSize).toNat)
    rw [hcopied, hregs]

end Fifo

/-! ## read_file_record.c -/

section File

variable {p q : EmbPdu} {number place : ℕ}

theorem EmbPdu.SubanswerAt.same (h : p.SameData q) (hat : p.SubanswerAt number place) :
    q.SubanswerAt number place := by
  induction hat with
  | first => exact .first
  | @next number place before head refType inside ih =>
    have hlen : q.data place = p.data place := h.byte (by omega)
    rw [← hlen] at inside ⊢
    refine .next ih ?_ ?_ ?_
    · rwa [h.toNat]
    · rwa [h.byte head]
    · rwa [h.toNat]

theorem nextSubanswer_eq_some_iff {c : Option ℕ}
    (hsize : p.dataSize.toNat = (p.data 0).toNat + 1) :
    embReadFileNextSubanswer p c = some place
      ↔ place = nextPlace p c ∧ place + (p.data place).toNat + 1 ≤ p.dataSize.toNat
        ∧ p.data (place + 1) = 6 := by
  refine ⟨nextSubanswer_some, ?_⟩
  rintro ⟨rfl, hend, htype⟩
  rw [nextSubanswer_eq hsize, if_neg (by omega), if_neg (not_not.2 htype)]

/-- A cursor stands in front of every sub-answer whose place the answer tells. -/
theorem EmbPdu.SubanswerAt.exists_cursor (hsize : p.dataSize.toNat = (p.data 0).toNat + 1)
    (hat : p.SubanswerAt number place) :
    ∃ c, nextPlace p c = place ∧ ∀ turns,
      moved (embReadFileNextSubanswer p) (number + turns) none
        = moved (embReadFileNextSubanswer p) turns c := by
  induction hat with
  | first => exact ⟨none, rfl, fun turns => by rw [Nat.zero_add]⟩
  | @next number place before head refType inside ih =>
    obtain ⟨c, hplace, hmoved⟩ := ih
    have hnext : embReadFileNextSubanswer p c = some place :=
      (nextSubanswer_eq_some_iff hsize).2 ⟨hplace.symm, inside, refType⟩
    refine ⟨some place, rfl, fun turns => ?_⟩
    rw [Nat.add_right_comm, Nat.add_assoc, hmoved, moved, hnext]

/-- What is found is where the answer tells. -/
theorem moved_some {c : Option ℕ} {k : ℕ} (hat : p.SubanswerAt number (nextPlace p c))
    (h : moved (embReadFileNextSubanswer p) (k + 1) c = some place) :
    p.SubanswerAt (number + k) place ∧ ∃ c', embReadFileNextSubanswer p c' = some place := by
  induction k generalizing number c with
  | zero =>
    rw [moved_one] at h
    obtain ⟨hplace, -, -⟩ := nextSubanswer_some h
    rw [← hplace] at hat
    exact ⟨hat, c, h⟩
  | succ k ih =>
    unfold moved at h
    rcases hnext : embReadFileNextSubanswer p c with _ | x
    · rw [hnext] at h
      cases h
    rw [hnext] at h
    dsimp only at h
    obtain ⟨hplace, hend, htype⟩ := nextSubanswer_some hnext
    rw [← hplace] at hat
    rcases Nat.lt_or_ge (x + 1) p.dataSize.toNat with hhead | hlast
    · have hres := ih (hat.next hhead htype hend) h
      rwa [Nat.add_assoc, Nat.add_comm 1 k] at hres
    · -- a sub-answer without a type is the last
      have hstop : embReadFileNextSubanswer p (some x) = none := by
        rcases hnone : embReadFileNextSubanswer p (some x) with _ | y
        · rfl
        obtain ⟨hy, hyend, -⟩ := nextSubanswer_some hnone
        unfold nextPlace at hy
        dsimp only at hy
        omega
      unfold moved at h
      rw [hstop] at h
      cases h

theorem find_eq_some_iff (k : ℕ) :
    embReadFileFindSubanswer p k = some place
      ↔ p.dataSize.toNat = (p.data 0).toNat + 1 ∧ p.SubanswerAt k place
        ∧ place + (p.data place).toNat + 1 ≤ p.dataSize.toNat ∧ p.data (place + 1) = 6 := by
  change moved _ (k + 1) none = some place ↔ _
  constructor
  · intro h
    have hfirst : p.SubanswerAt 0 (nextPlace p none) := .first
    obtain ⟨hat, c, hnext⟩ := moved_some hfirst h
    rw [Nat.zero_add] at hat
    exact ⟨nextSubanswer_size hnext, hat, (nextSubanswer_some hnext).2⟩
  · rintro ⟨hsize, hat, hend⟩
    obtain ⟨c, hplace, hmoved⟩ := hat.exists_cursor hsize
    rw [hmoved, moved_one]
    exact (nextSubanswer_eq_some_iff hsize).2 ⟨hplace.symm, hend⟩

theorem EmbPdu.SameData.size_iff (h : p.SameData q) :
    p.dataSize.toNat = (p.data 0).toNat + 1 → q.dataSize.toNat = (q.data 0).toNat + 1 := by
  intro hsize
  rw [h.toNat, h.byte (by omega), hsize]

theorem EmbPdu.UntypedAtEnd.same (h : p.SameData q) (hend : p.UntypedAtEnd number) :
    q.UntypedAtEnd number := by
  obtain ⟨hsize, place, hat, hlast, hzero⟩ := hend
  refine ⟨h.size_iff hsize, place, hat.same h, ?_, ?_⟩
  · rw [h.toNat, hlast]
  · rw [h.byte (by omega), hzero]

/-- What is found in one is found in the other, if its type is in the answer. -/
theorem find_same (h : p.SameData q) (hend : ¬ p.UntypedAtEnd number)
    (hfind : embReadFileFindSubanswer p number = some place) :
    embReadFileFindSubanswer q number = some place := by
  obtain ⟨hsize, hat, hinside, htype⟩ := (find_eq_some_iff number).1 hfind
  have hhead : place + 1 < p.dataSize.toNat := by
    by_contra hlast
    have hzero : p.data place = 0 := BitVec.eq_of_toNat_eq (by simp; omega)
    exact hend ⟨hsize, place, hat, by omega, hzero⟩
  refine (find_eq_some_iff number).2 ⟨h.size_iff hsize, hat.same h, ?_, ?_⟩
  · rwa [h.toNat, h.byte (by omega)]
  · rwa [h.byte hhead]

theorem find_confined (h : p.SameData q) (hend : ¬ p.UntypedAtEnd number) :
    embReadFileFindSubanswer q number = embReadFileFindSubanswer p number :=
  Option.ext fun _ => ⟨find_same h.symm fun hq => hend (hq.same h.symm), find_same h hend⟩

/-- A sub-answer without a type is there or not, as the byte behind the answer has it. -/
theorem untyped_shows (hend : p.UntypedAtEnd number) :
    ∃ (q q' : EmbPdu) (place : ℕ), p.SameData q ∧ p.SameData q'
      ∧ embReadFileFindSubanswer q number = some place
      ∧ ∀ k : ℕ, embReadFileFindSubanswer q' k ≠ some place := by
  obtain ⟨hsize, place, hat, hlast, hzero⟩ := hend
  have hq : p.SameData (p.put (place + 1) 6) := p.sameData_refl.put hlast.ge 6
  have hq' : p.SameData (p.put (place + 1) 0) := p.sameData_refl.put hlast.ge 0
  have hlen : (p.data place).toNat = 0 := by
    rw [hzero]
    rfl
  refine ⟨_, _, place, hq, hq', ?_, fun k hk => ?_⟩
  · refine (find_eq_some_iff number).2 ⟨hq.size_iff hsize, hat.same hq, ?_, ?_⟩
    · rw [hq.toNat, hq.byte (by omega), hlen, hlast]
    · rw [EmbPdu.put_data, if_pos rfl]
  · have htype := ((find_eq_some_iff k).1 hk).2.2.2
    rw [EmbPdu.put_data, if_pos rfl] at htype
    exact absurd htype (by decide)

theorem find_of_neg {k : ℤ} (hk : k < 0) : embReadFileFindSubanswer p k = none := by
  have hturns : (k + 1).toNat = 0 := by omega
  unfold embReadFileFindSubanswer
  rw [hturns]
  rfl

theorem readFileFindSubanswer_confined_iff (p : EmbPdu) (k : ℤ) :
    (AnswerGetter.readFileFindSubanswer k).Confined p
      ↔ (AnswerGetter.readFileFindSubanswer k).Inside p := by
  constructor
  · rintro hconf number rfl hend
    obtain ⟨q, q', place, h, h', hfound, hnot⟩ := untyped_shows hend
    refine AnswerGetter.not_confined h h' (fun heq => hnot number ?_) hconf
    rw [← hfound]
    exact (GetterResult.subanswer.inj heq).symm
  · intro hinside q h
    refine congrArg GetterResult.subanswer ?_
    rcases lt_or_ge k 0 with hneg | hpos
    · rw [find_of_neg hneg, find_of_neg hneg]
    · obtain ⟨number, rfl⟩ := Int.eq_ofNat_of_zero_le hpos
      exact find_confined h (hinside number rfl)

theorem readFileWalk_eq_filterMap (c : Option ℕ) (turns : ℕ) :
    readFileWalk p turns c
      = (List.range turns).filterMap fun k => moved (embReadFileNextSubanswer p) (k + 1) c := by
  induction turns generalizing c with
  | zero => rfl
  | succ turns ih =>
    rw [List.range_succ_eq_map, List.filterMap_cons, List.filterMap_map, moved_one]
    unfold readFileWalk
    rcases hnext : embReadFileNextSubanswer p c with _ | x
    · dsimp only
      symm
      rw [List.filterMap_eq_nil_iff]
      intro k _
      simp only [Function.comp_apply, moved, hnext]
    · dsimp only
      rw [ih]
      refine congrArg (x :: ·) (List.filterMap_congr fun k _ => ?_)
      conv_rhs => rw [Function.comp_apply, moved, hnext]

theorem mem_readFileWalk_iff (turns : ℕ) :
    place ∈ readFileWalk p turns none
      ↔ ∃ k < turns, embReadFileFindSubanswer p k = some place := by
  rw [readFileWalk_eq_filterMap, List.mem_filterMap]
  simp only [List.mem_range]
  rfl

theorem readFileWalk_confined_iff (p : EmbPdu) (turns : ℕ) :
    (AnswerGetter.readFileWalk turns).Confined p
      ↔ (AnswerGetter.readFileWalk turns).Inside p := by
  constructor
  · intro hconf number hlt hend
    obtain ⟨q, q', place, h, h', hfound, hnot⟩ := untyped_shows hend
    refine AnswerGetter.not_confined h h' (fun heq => ?_) hconf
    have hmem : place ∈ readFileWalk q turns none :=
      (mem_readFileWalk_iff turns).2 ⟨number, hlt, hfound⟩
    rw [GetterResult.subanswers.inj heq] at hmem
    obtain ⟨k, -, hk⟩ := (mem_readFileWalk_iff turns).1 hmem
    exact hnot k hk
  · intro hinside q h
    refine congrArg GetterResult.subanswers ?_
    rw [readFileWalk_eq_filterMap, readFileWalk_eq_filterMap]
    exact List.filterMap_congr fun k hk => find_confined h (hinside k (List.mem_range.1 hk))

/-- A sub-answer that the walk yields ends in the answer. -/
theorem inside_of_walked {turns : ℕ} (h : place ∈ readFileWalk p turns none) :
    place + (p.data place).toNat + 1 ≤ p.dataSize.toNat := by
  obtain ⟨k, -, hfind⟩ := (mem_readFileWalk_iff turns).1 h
  exact ((find_eq_some_iff k).1 hfind).2.2.1

theorem readFileSubanswerQuantity_confined {turns : ℕ}
    (hwalked : place ∈ readFileWalk p turns none) :
    (AnswerGetter.readFileSubanswerQuantity place).Confined p := by
  intro q h
  have hinside := inside_of_walked hwalked
  refine congrArg GetterResult.word ?_
  unfold embReadFileSubanswerQuantity
  rw [h.byte (by omega)]

theorem readFileSubanswerData_confined_iff {turns : ℕ} (offset : Word)
    (hwalked : place ∈ readFileWalk p turns none) :
    (AnswerGetter.readFileSubanswerData place offset).Confined p
      ↔ (AnswerGetter.readFileSubanswerData place offset).Inside p := by
  have hinside := inside_of_walked hwalked
  constructor
  · intro hconf hle
    by_contra hbehind
    have h : ∀ b, p.SameData (p.put (place + 2 + 2 * offset.toNat + 1) b) := fun b =>
      p.sameData_refl.put (by omega) b
    refine AnswerGetter.not_confined (h 1) (h 0) (fun heq => ?_) hconf
    have hlen : ∀ b, ¬ offset.toNat
        > ((p.put (place + 2 + 2 * offset.toNat + 1) b).data place).toNat / 2 := by
      intro b
      rw [(h b).byte (by omega)]
      exact Nat.not_lt.2 hle
    have hword := GetterResult.word.inj heq
    unfold embReadFileSubanswerData at hword
    rw [if_neg (hlen 1), if_neg (hlen 0)] at hword
    refine getSwapped_ne ?_ hword
    rw [EmbPdu.put_data, EmbPdu.put_data, if_pos rfl, if_pos rfl]
    decide
  · intro hread q h
    refine congrArg GetterResult.word ?_
    unfold embReadFileSubanswerData
    rw [h.byte (by omega)]
    split_ifs with hgt
    · rfl
    · have hend := hread (Nat.not_lt.1 hgt)
      exact getSwapped_same (h.byte (by omega)) (h.byte (by omega))

end File

/-! ## The getters -/

/-- A getter gives the same for whatever lies behind the answer exactly if what it looks at is in
the answer. -/
theorem getter_confined_iff (answer : EmbPdu) (getter : AnswerGetter)
    (h : getter.AskedOf answer) : getter.Confined answer ↔ getter.Inside answer := by
  cases getter with
  | readFifoGetData offset => exact readFifoGetData_confined_iff answer offset
  | readFifoGetAllData bufSize buf => exact readFifoGetAllData_confined_iff answer bufSize buf
  | readFileWalk turns => exact readFileWalk_confined_iff answer turns
  | readFileFindSubanswer k => exact readFileFindSubanswer_confined_iff answer k
  | readFileSubanswerQuantity place =>
    obtain ⟨turns, hwalked⟩ := h
    exact iff_of_true (readFileSubanswerQuantity_confined hwalked) trivial
  | readFileSubanswerData place offset =>
    obtain ⟨turns, hwalked⟩ := h
    exact readFileSubanswerData_confined_iff offset hwalked

/-- The answer with one sub-answer, and one register in it. -/
def oneSubanswer (behind : Byte) : EmbPdu :=
  ⟨0x14, 5, 253, fun i => [4, 3, 6, 0x12, 0x34].getD i behind⟩

theorem getter_confined_iff_register :
    embReadFileSubanswerData (oneSubanswer 0) 1 0 = 0x1234
      ∧ (AnswerGetter.readFileSubanswerData 1 0).Confined (oneSubanswer 0) :=
  ⟨rfl, (getter_confined_iff (oneSubanswer 0) (.readFileSubanswerData 1 0) ⟨1, by decide⟩).2
    fun _ => le_rfl⟩

/-- Behind the last register there is one more. -/
theorem register_behind_answer_read :
    embReadFileSubanswerQuantity (oneSubanswer 0) 1 = 1
      ∧ embReadFileSubanswerData (oneSubanswer 0) 1 1 = 0
      ∧ embReadFileSubanswerData (oneSubanswer 1) 1 1 = 0x0101
      ∧ (AnswerGetter.readFileSubanswerData 1 1).AskedOf (oneSubanswer 0)
      ∧ ¬ (AnswerGetter.readFileSubanswerData 1 1).Confined (oneSubanswer 0) := by
  refine ⟨rfl, rfl, rfl, ⟨1, by decide⟩, fun h => ?_⟩
  have hsame : (oneSubanswer 0).SameData (oneSubanswer 1) := by
    refine ⟨rfl, fun i hi => ?_⟩
    have hlt : i < [4, 3, 6, 0x12, (0x34 : Byte)].length := hi
    unfold oneSubanswer
    dsimp only
    rw [List.getD_eq_getElem?_getD, List.getD_eq_getElem?_getD, List.getElem?_eq_getElem hlt]
    rfl
  exact absurd (GetterResult.word.inj (h _ hsame)) (by decide)

end Emodbus
