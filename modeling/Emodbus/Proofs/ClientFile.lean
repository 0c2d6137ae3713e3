import Emodbus.FileStore
import Emodbus.FileSubs
import Emodbus.Proofs.ClientRegs
import Mathlib.Data.List.TakeWhile

/-!
# What lies in a request for files

The builders put sub-request behind sub-request, so what they leave is one run of bytes, and the
server's walk over it finds the sub-requests again.
-/

namespace Emodbus

open Octets

@[simp] theorem EmbReadFileReq.length_bytes (sub : EmbReadFileReq) : sub.bytes.length = 7 := rfl

@[simp] theorem EmbWriteFileReq.length_values (sub : EmbWriteFileReq) :
    sub.values.length = sub.recordLength.toNat := by simp [EmbWriteFileReq.values]

@[simp] theorem EmbWriteFileReq.length_bytes (sub : EmbWriteFileReq) :
    sub.bytes.length = 7 + 2 * sub.recordLength.toNat := by
  simp [EmbWriteFileReq.bytes]
  omega

/-! ## Building -/

/-- The head of a sub-request, written field by field. -/
theorem blit_head (d : Mem Byte) (pos : ℕ) (a b c : Word) :
    storeWord (storeWord (storeWord (Mem.blit d pos [6]) (pos + 1) (swapBytes a)) (pos + 3)
        (swapBytes b)) (pos + 5) (swapBytes c)
      = Mem.blit d pos ([6] ++ Mem.be [a] ++ Mem.be [b] ++ Mem.be [c]) := by
  rw [storeWord_swapBytes, storeWord_swapBytes, storeWord_swapBytes, Mem.blit_append,
    Mem.blit_append, Mem.blit_append]
  rfl

/-- The loop writes the sub-requests in front of the first with a record number that is too
large. -/
theorem readFileReqLoop_run (subs : List EmbReadFileReq) (pos : ℕ) (d : Mem Byte) :
    readFileReqLoop subs pos d
      = (if ∀ sub ∈ subs, sub.recordNumber.toNat ≤ maxRecordNumber then 0 else -einval,
        Mem.blit d pos ((subs.takeWhile fun sub => sub.recordNumber.toNat ≤ maxRecordNumber).flatMap
          EmbReadFileReq.bytes)) := by
  induction subs generalizing pos d with
  | nil => simp [readFileReqLoop]
  | cons sub subs ih =>
    unfold readFileReqLoop
    by_cases hrec : maxRecordNumber < sub.recordNumber.toNat
    · have hnot : ¬ sub.recordNumber.toNat ≤ maxRecordNumber := Nat.not_le.2 hrec
      rw [if_pos hrec]
      simp [hnot]
    · have hok : sub.recordNumber.toNat ≤ maxRecordNumber := Nat.not_lt.1 hrec
      rw [if_neg hrec]
      dsimp only
      rw [blit_head, ih, List.takeWhile_cons_of_pos (by simpa using hok), List.flatMap_cons,
        Mem.blit_append d pos sub.bytes]
      simp [hok]
      rfl

theorem writeFileReqLoop_run (subs : List EmbWriteFileReq) (pos : ℕ) (d : Mem Byte) :
    writeFileReqLoop subs pos d
      = (if ∀ sub ∈ subs, sub.recordNumber.toNat ≤ maxRecordNumber then 0 else -einval,
        Mem.blit d pos ((subs.takeWhile fun sub => sub.recordNumber.toNat ≤ maxRecordNumber).flatMap
          EmbWriteFileReq.bytes)) := by
  induction subs generalizing pos d with
  | nil => simp [writeFileReqLoop]
  | cons sub subs ih =>
    unfold writeFileReqLoop
    by_cases hrec : maxRecordNumber < sub.recordNumber.toNat
    · have hnot : ¬ sub.recordNumber.toNat ≤ maxRecordNumber := Nat.not_le.2 hrec
      rw [if_pos hrec]
      simp [hnot]
    · have hok : sub.recordNumber.toNat ≤ maxRecordNumber := Nat.not_lt.1 hrec
      have hsub : storeSwapped (Mem.blit d pos ([6] ++ Mem.be [sub.fileNumber]
            ++ Mem.be [sub.recordNumber] ++ Mem.be [sub.recordLength])) (pos + 7) sub.data
          sub.recordLength.toNat = Mem.blit d pos sub.bytes := by
        rw [storeSwapped_eq]
        exact (Mem.blit_append d pos ([6] ++ Mem.be [sub.fileNumber] ++ Mem.be [sub.recordNumber]
          ++ Mem.be [sub.recordLength]) (Mem.be sub.values)).symm
      rw [if_neg hrec]
      dsimp only
      rw [blit_head, hsub, ih, List.takeWhile_cons_of_pos (by simpa using hok), List.flatMap_cons,
        Mem.blit_append d pos sub.bytes, EmbWriteFileReq.length_bytes]
      simp [hok]

/-- Where no record number is too large, all sub-requests are written. -/
theorem takeWhile_recordNumber {β : Type} (recordNumber : β → Word) {subs : List β}
    (h : ∀ sub ∈ subs, (recordNumber sub).toNat ≤ maxRecordNumber) :
    (subs.takeWhile fun sub => (recordNumber sub).toNat ≤ maxRecordNumber) = subs := by
  rw [List.takeWhile_eq_self_iff]
  simpa using h

theorem readFileReqLoop_eq (subs : List EmbReadFileReq) (pos : ℕ) (d : Mem Byte)
    (h : (readFileReqLoop subs pos d).1 = 0) :
    (∀ sub ∈ subs, sub.recordNumber.toNat ≤ maxRecordNumber)
      ∧ (readFileReqLoop subs pos d).2 = Mem.blit d pos (subs.flatMap EmbReadFileReq.bytes) := by
  rw [readFileReqLoop_run] at h ⊢
  dsimp only at h ⊢
  split_ifs at h with hall
  · rw [takeWhile_recordNumber EmbReadFileReq.recordNumber hall]
    exact ⟨hall, rfl⟩
  · exact absurd h neg_einval_ne

theorem writeFileReqLoop_eq (subs : List EmbWriteFileReq) (pos : ℕ) (d : Mem Byte)
    (h : (writeFileReqLoop subs pos d).1 = 0) :
    (∀ sub ∈ subs, sub.recordNumber.toNat ≤ maxRecordNumber)
      ∧ (writeFileReqLoop subs pos d).2 = Mem.blit d pos (subs.flatMap EmbWriteFileReq.bytes) := by
  rw [writeFileReqLoop_run] at h ⊢
  dsimp only at h ⊢
  split_ifs at h with hall
  · rw [takeWhile_recordNumber EmbWriteFileReq.recordNumber hall]
    exact ⟨hall, rfl⟩
  · exact absurd h neg_einval_ne

theorem foldl_add_sizes {α : Type*} (size : α → ℕ) (xs : List α) (n : ℤ) :
    xs.foldl (fun result x => result + (size x : ℤ)) n = n + ((xs.map size).sum : ℕ) := by
  induction xs generalizing n with
  | nil => simp
  | cons x xs ih =>
    rw [List.foldl_cons, ih, List.map_cons, List.sum_cons, Nat.cast_add, add_assoc]

theorem calcReqDataSize_eq (subs : List EmbWriteFileReq) :
    embWriteFileCalcReqDataSize (some subs)
      = ((1 + (subs.flatMap EmbWriteFileReq.bytes).length : ℕ) : ℤ) := by
  have hsizes : subs.map (fun sub => 7 + 2 * sub.recordLength.toNat)
      = subs.map fun sub => sub.bytes.length := by
    simp only [EmbWriteFileReq.length_bytes]
  have hfold := foldl_add_sizes (fun sub => 7 + 2 * sub.recordLength.toNat) subs 1
  rw [hsizes, ← List.length_flatMap] at hfold
  exact_mod_cast hfold

theorem calcAnswerDataSize_eq (subs : List EmbReadFileReq) :
    embReadFileCalcAnswerDataSize subs
      = ((1 + (subs.map EmbReadFileReq.answerSize).sum : ℕ) : ℤ) := by
  have hfold := foldl_add_sizes EmbReadFileReq.answerSize subs 1
  exact_mod_cast hfold

/-- A request of sub-requests: their number of bytes, and then the bytes. -/
structure CarriesSubs (pdu : EmbPdu) (function : Byte) (body : List Byte) : Prop where
  function : pdu.function = function
  dataSize : pdu.dataSize.toNat = 1 + body.length
  count : (pdu.data 0).toNat = body.length
  body : Mem.At pdu.data 1 body

theorem carriesSubs_blit (d : Mem Byte) (function maxSize : Byte) {body : List Byte}
    (h : body.length ≤ 254) :
    CarriesSubs ⟨function, BitVec.ofNat 8 (1 + body.length), maxSize,
      Mem.blit (Mem.blit d 0 [BitVec.ofNat 8 body.length]) 1 body⟩ function body where
  function := rfl
  dataSize := by
    dsimp only
    rw [BitVec.toNat_ofNat]
    omega
  count := by
    dsimp only
    rw [Mem.blit_of_lt _ _ Nat.zero_lt_one, Mem.blit_singleton, if_pos rfl, BitVec.toNat_ofNat]
    omega
  body := Mem.at_blit

theorem CarriesSubs.of_same {pdu pdu' : EmbPdu} {function : Byte} {body : List Byte}
    (h : CarriesSubs pdu function body) (hs : pdu'.Same pdu) : CarriesSubs pdu' function body := by
  have hsize := h.dataSize
  have hdata :
      Mem.slice pdu'.data 0 (1 + body.length) = Mem.slice pdu.data 0 (1 + body.length) := by
    have hbytes := hs.bytes
    unfold EmbPdu.bytes at hbytes
    rwa [hs.dataSize, hsize] at hbytes
  refine ⟨hs.function.trans h.function, by rw [hs.dataSize, hsize], ?_, ?_⟩
  · have h0 := Mem.eq_of_slice_eq hdata (i := 0) (by omega)
    rw [Nat.zero_add] at h0
    rw [h0, h.count]
  · refine h.body.congr fun i hi => ?_
    have hi' := Mem.eq_of_slice_eq hdata (i := 1 + i) (by omega)
    rwa [Nat.zero_add] at hi'

theorem length_readBody (subs : List EmbReadFileReq) :
    (subs.flatMap EmbReadFileReq.bytes).length = 7 * subs.length := by
  induction subs with
  | nil => rfl
  | cons sub subs ih =>
    rw [List.flatMap_cons, List.length_append, ih, EmbReadFileReq.length_bytes, List.length_cons]
    omega

theorem readFileReq_built {req : EmbPdu} {subs : List EmbReadFileReq}
    (h : (embReadFileMakeReq req subs).1 = 0) :
    CarriesSubs (embReadFileMakeReq req subs).2 0x14 (subs.flatMap EmbReadFileReq.bytes) := by
  have hmax := req.maxSize.isLt
  have hlen := length_readBody subs
  unfold embReadFileMakeReq readFileReqSize at h ⊢
  dsimp only at h ⊢
  split_ifs at h ⊢ with hroom
  · exact absurd h neg_enomem_ne
  · dsimp only at h ⊢
    rw [(readFileReqLoop_eq _ _ _ h).2, Nat.add_sub_cancel_left, ← hlen]
    exact carriesSubs_blit _ _ _ (by omega)

theorem writeFileReq_built {req : EmbPdu} {subs : List EmbWriteFileReq}
    (h : (embWriteFileMakeReq req (some subs)).1 = 0) :
    CarriesSubs (embWriteFileMakeReq req (some subs)).2 0x15
      (subs.flatMap EmbWriteFileReq.bytes) := by
  have hmax := req.maxSize.isLt
  unfold embWriteFileMakeReq at h ⊢
  rw [calcReqDataSize_eq] at h ⊢
  dsimp only at h ⊢
  split_ifs at h ⊢ with hpos hroom
  · exact absurd h neg_einval_ne
  · exact absurd h neg_enomem_ne
  · dsimp only at h ⊢
    have hcount : ((1 + (subs.flatMap EmbWriteFileReq.bytes).length : ℕ) : ℤ) - 1
        = ((subs.flatMap EmbWriteFileReq.bytes).length : ℕ) := by omega
    rw [(writeFileReqLoop_eq _ _ _ h).2, hcount, BitVec.ofInt_natCast, BitVec.ofInt_natCast]
    exact carriesSubs_blit _ _ _ (by omega)

/-! ## The server's walk over a request to write -/

/-- A sub-request as the server finds it. -/
def EmbWriteFileReq.sub (req : EmbWriteFileReq) : FileSub :=
  ⟨embFileRefType, req.fileNumber, req.recordNumber, req.values, true⟩

@[simp] theorem EmbWriteFileReq.regCount_sub (req : EmbWriteFileReq) :
    req.sub.regCount = req.recordLength := by
  unfold FileSub.regCount EmbWriteFileReq.sub
  dsimp only
  rw [EmbWriteFileReq.length_values, BitVec.ofNat_toNat, BitVec.setWidth_eq]

theorem fileSubAt_eq {d : Mem Byte} {stop pos : ℕ} {req : EmbWriteFileReq}
    (h : Mem.At d pos req.bytes) (hstop : pos + req.bytes.length ≤ stop) :
    fileSubAt d stop pos = req.sub := by
  unfold EmbWriteFileReq.bytes at h
  rw [Mem.at_append, Mem.at_append, Mem.at_append, Mem.at_append, Mem.at_cons] at h
  obtain ⟨⟨⟨⟨⟨h6, -⟩, hfile⟩, hrec⟩, hlen⟩, hvalues⟩ := h
  have hcount : getBigEnd16 d (pos + 5) = req.recordLength := by
    rw [getBigEnd16_eq]
    exact hlen.beWord
  have hfileno : getBigEnd16 d (pos + 1) = req.fileNumber := by
    rw [getBigEnd16_eq]
    exact hfile.beWord
  have hstart : getBigEnd16 d (pos + 3) = req.recordNumber := by
    rw [getBigEnd16_eq]
    exact hrec.beWord
  have hregs : Mem.beWords d (pos + 7) req.recordLength.toNat = req.values := by
    have hw := hvalues.beWords
    rw [EmbWriteFileReq.length_values] at hw
    exact hw
  rw [EmbWriteFileReq.length_bytes] at hstop
  unfold fileSubAt EmbWriteFileReq.sub
  rw [hcount, hregs, h6, hfileno, hstart, decide_eq_true (by omega)]
  rfl

/-- The server finds the sub-requests that were put there. -/
theorem fileSubs_eq {d : Mem Byte} {stop fuel pos : ℕ} (reqs : List EmbWriteFileReq)
    (h : Mem.At d pos (reqs.flatMap EmbWriteFileReq.bytes))
    (hstop : pos + (reqs.flatMap EmbWriteFileReq.bytes).length = stop)
    (hfuel : stop ≤ fuel + pos) :
    fileSubs d stop fuel pos = reqs.map EmbWriteFileReq.sub := by
  induction reqs generalizing pos fuel with
  | nil =>
    cases fuel with
    | zero => rfl
    | succ fuel =>
      unfold fileSubs
      have hnot : ¬ pos < stop := by
        rw [List.flatMap_nil, List.length_nil] at hstop
        omega
      rw [if_neg hnot]
      rfl
  | cons req reqs ih =>
    rw [List.flatMap_cons, Mem.at_append] at h
    rw [List.flatMap_cons, List.length_append, EmbWriteFileReq.length_bytes] at hstop
    rw [EmbWriteFileReq.length_bytes] at h
    have hsub : fileSubAt d stop pos = req.sub :=
      fileSubAt_eq h.1 (by rw [EmbWriteFileReq.length_bytes]; omega)
    cases fuel with
    | zero => omega
    | succ fuel =>
      have hnext : pos + 7 + req.sub.values.length * 2
          = pos + (7 + 2 * req.recordLength.toNat) := by
        have hlen : req.sub.values.length = req.recordLength.toNat :=
          EmbWriteFileReq.length_values req
        omega
      have hrest : fileSubs d stop fuel (pos + (7 + 2 * req.recordLength.toNat))
          = reqs.map EmbWriteFileReq.sub := ih h.2 (by omega) (by omega)
      have hfits : req.sub.fits = true := rfl
      unfold fileSubs
      rw [if_pos (by omega), hsub]
      dsimp only
      rw [if_pos hfits, hnext, hrest]
      rfl

theorem CarriesSubs.fileSubs {pdu : EmbPdu} {function : Byte} {reqs : List EmbWriteFileReq}
    (h : CarriesSubs pdu function (reqs.flatMap EmbWriteFileReq.bytes)) :
    pdu.fileSubs = reqs.map EmbWriteFileReq.sub := by
  unfold EmbPdu.fileSubs
  exact fileSubs_eq reqs h.body h.dataSize.symm (by omega)

end Emodbus
