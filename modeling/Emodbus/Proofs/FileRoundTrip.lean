import Emodbus.Proofs.AnswerForm
import Emodbus.Proofs.FileAnswer
import Emodbus.Proofs.FileSubs

/-!
# Files are read back as they were written

The sub-requests the server walks over are those the client put there, so the store ends up with
every one of them written.  The answer to a request to read is a run of sub-answers, and the
client's walk over it stops at each of them.
-/

namespace Emodbus

open Octets

/-! ## Writing -/

section Write

variable {s : FileStore} {fileno : Word} {regs : List Word}

theorem FileStore.write_of_some (offset : ℕ) (values : List Word) (h : s fileno = some regs)
    (f : Word) :
    ∃ regs', (s.write f offset values) fileno = some regs' ∧ regs'.length = regs.length := by
  unfold FileStore.write
  split_ifs
  · exact ⟨overwrite regs offset values, by rw [h]; rfl, length_overwrite _ _ _⟩
  · exact ⟨regs, h, rfl⟩

theorem EmbReadFileReq.Within.writeTo {sub : EmbReadFileReq} (h : sub.Within s)
    (req : EmbWriteFileReq) : sub.Within (req.writeTo s) := by
  obtain ⟨regs, hregs, hle⟩ := h
  obtain ⟨regs', hregs', hlen⟩ := FileStore.write_of_some req.recordNumber.toNat req.values hregs
    req.fileNumber
  exact ⟨regs', hregs', by rwa [hlen]⟩

/-- Writing leaves every file as long as it is. -/
theorem EmbReadFileReq.Within.foldl_writeTo {sub : EmbReadFileReq} (reqs : List EmbWriteFileReq)
    (h : sub.Within s) : sub.Within (reqs.foldl EmbWriteFileReq.writeTo s) := by
  induction reqs generalizing s with
  | nil => exact h
  | cons req reqs ih => exact ih (h.writeTo req)

/-- A sub-request that passes its checks is for a file of the store. -/
theorem check_files {req : EmbWriteFileReq} {file : EmbSrvFile FileStore}
    {writeFile : Word → Word → List Word → FileStore → Byte × FileStore}
    (h : req.sub.check FileStore.server s = .ok (file, writeFile)) :
    file = FileStore.file req.fileNumber
      ∧ (FileStore.file req.fileNumber).writeFile = some writeFile := by
  obtain ⟨-, ⟨getFile, hget, hfile⟩, hwrite, -⟩ := check_ok _ h
  cases hget
  obtain ⟨_, -, rfl⟩ := Option.map_eq_some_iff.1 hfile
  exact ⟨rfl, hwrite⟩

/-- Where no sub-request is refused, each one is called for and written. -/
theorem writeSubs_files (reqs : List EmbWriteFileReq) (s : FileStore) (calls : List StoreCall)
    (h : (writeSubs FileStore.server (reqs.map EmbWriteFileReq.sub) s calls).1 = 0) :
    (writeSubs FileStore.server (reqs.map EmbWriteFileReq.sub) s calls).2
      = (reqs.foldl EmbWriteFileReq.writeTo s, calls ++ reqs.map EmbWriteFileReq.call) := by
  induction reqs generalizing s calls with
  | nil =>
    rw [List.map_nil, List.map_nil, List.append_nil]
    rfl
  | cons req reqs ih =>
    rw [List.map_cons] at h ⊢
    unfold writeSubs at h ⊢
    cases hcheck : req.sub.check FileStore.server s with
    | error code =>
      rw [hcheck] at h
      exact absurd h (check_error_ne _ hcheck)
    | ok found =>
      obtain ⟨file, writeFile⟩ := found
      obtain ⟨rfl, hwrite⟩ := check_files hcheck
      cases hwrite
      rw [hcheck] at h
      dsimp only at h ⊢
      have hvalues : req.sub.values.take req.recordLength.toNat = req.values := by
        refine List.take_of_length_le ?_
        rw [← EmbWriteFileReq.length_values]
        exact le_rfl
      rw [EmbWriteFileReq.regCount_sub, hvalues] at h ⊢
      rw [if_neg (not_not.2 rfl)] at h ⊢
      rw [ih _ _ h, List.append_assoc]
      rfl

/-- A request to write that is answered has been carried out, and is echoed. -/
theorem embSrvWriteFile_files {r : SrvRun FileStore} {reqs : List EmbWriteFileReq}
    (hreq : CarriesSubs r.rxPdu 0x15 (reqs.flatMap EmbWriteFileReq.bytes))
    (hzero : (embSrvWriteFile FileStore.server r).1 = 0) :
    (embSrvWriteFile FileStore.server r).2.store = reqs.foldl EmbWriteFileReq.writeTo r.store
      ∧ (embSrvWriteFile FileStore.server r).2.calls
        = r.calls ++ reqs.map EmbWriteFileReq.call
      ∧ (embSrvWriteFile FileStore.server r).2.txPdu.Same r.rxPdu := by
  have hcount : ¬ ((r.rxPdu.data 0).toNat ≤ 0x09 ∨ (r.rxPdu.data 0).toNat ≥ 0xFB) := by
    intro h
    unfold embSrvWriteFile at hzero
    dsimp only at hzero
    rw [if_pos h] at hzero
    exact absurd hzero mbeIllegalDataValue_ne
  have hroom : ¬ r.txPdu.maxSize.toNat < r.rxPdu.dataSize.toNat := by
    intro h
    unfold embSrvWriteFile at hzero
    dsimp only at hzero
    rw [if_neg hcount, if_pos h] at hzero
    exact absurd hzero mbeSlaveFailure_ne
  have heq := embSrvWriteFile_eq FileStore.server (r := r) (by omega) (Nat.not_lt.1 hroom)
  dsimp only at heq
  rw [hreq.fileSubs] at heq
  have hsubs := writeSubs_files reqs r.store r.calls (by rw [← heq]; exact hzero)
  rw [← heq, Prod.mk.injEq] at hsubs
  refine ⟨hsubs.1, hsubs.2, ?_⟩
  have hkeeps := (writeFileLoop_keeps FileStore.server r.rxPdu.dataSize.toNat
    r.rxPdu.dataSize.toNat 1 { r with txPdu := { r.txPdu with
      function := 0x15
      dataSize := r.rxPdu.dataSize
      data := Mem.copy r.txPdu.data r.rxPdu.data r.rxPdu.dataSize.toNat } }).1
  unfold embSrvWriteFile
  dsimp only
  rw [if_neg hcount, if_neg hroom, hkeeps]
  exact ⟨hreq.function.symm, rfl, Mem.slice_copy _ _ le_rfl⟩

end Write

/-! ## Reading -/

/-- The registers that a sub-request asks for. -/
def EmbReadFileReq.regs (sub : EmbReadFileReq) (s : FileStore) : List Word :=
  (((s sub.fileNumber).getD []).drop sub.recordNumber.toNat).take sub.recordLength.toNat

/-- The bytes of the sub-answer to it. -/
def EmbReadFileReq.answer (s : FileStore) (sub : EmbReadFileReq) : List Byte :=
  [BitVec.ofNat 8 (sub.recordLength.toNat * 2 + 1), embFileRefType] ++ Mem.be (sub.regs s)

section Read

variable {s : FileStore} {sub : EmbReadFileReq}

theorem EmbReadFileReq.Within.length_regs (h : sub.Within s) :
    (sub.regs s).length = sub.recordLength.toNat := by
  obtain ⟨regs, hregs, hle⟩ := h
  unfold EmbReadFileReq.regs
  rw [hregs, List.length_take, List.length_drop, Option.getD_some]
  omega

theorem EmbReadFileReq.Within.length_answer (h : sub.Within s) :
    (sub.answer s).length = sub.answerSize := by
  unfold EmbReadFileReq.answer EmbReadFileReq.answerSize
  rw [List.length_append, Mem.length_be, h.length_regs]
  rfl

theorem length_answers {subs : List EmbReadFileReq} (h : ∀ sub ∈ subs, sub.Within s) :
    (subs.flatMap (EmbReadFileReq.answer s)).length
      = (subs.map EmbReadFileReq.answerSize).sum := by
  induction subs with
  | nil => rfl
  | cons sub subs ih =>
    rw [List.forall_mem_cons] at h
    rw [List.flatMap_cons, List.length_append, List.map_cons, List.sum_cons, h.1.length_answer,
      ih h.2]

/-- A turn of the loop over a request to read. -/
theorem readFileSub_files {rxPos : ℕ} (txPos : ℕ) (byteCounter : Byte) {r : SrvRun FileStore}
    (hat : Mem.At r.rxPdu.data rxPos sub.bytes) (hsub : sub.Within r.store)
    (hsize : byteCounter.toNat + sub.answerSize ≤ 252) (hmax : r.txPdu.maxSize = 253) :
    ∃ call, readFileSub FileStore.server rxPos txPos byteCounter r
      = (.ok (txPos + sub.answerSize, BitVec.ofNat 8 (byteCounter.toNat + sub.answerSize)),
        { r with
          calls := r.calls ++ [call]
          txPdu := { r.txPdu with
            data := Mem.blit r.txPdu.data txPos (sub.answer r.store) } }) := by
  unfold EmbReadFileReq.bytes at hat
  rw [Mem.at_append, Mem.at_append, Mem.at_append, Mem.at_cons] at hat
  obtain ⟨⟨⟨⟨h6, -⟩, hfile⟩, hrec⟩, hlen⟩ := hat
  have hfileno : getBigEnd16 r.rxPdu.data (rxPos + 1) = sub.fileNumber := by
    rw [getBigEnd16_eq]
    exact hfile.beWord
  have hstart : getBigEnd16 r.rxPdu.data (rxPos + 3) = sub.recordNumber := by
    rw [getBigEnd16_eq]
    exact hrec.beWord
  have hcount : getBigEnd16 r.rxPdu.data (rxPos + 5) = sub.recordLength := by
    rw [getBigEnd16_eq]
    exact hlen.beWord
  have htype : r.rxPdu.data rxPos = embFileRefType := h6
  have hregs := hsub.length_regs
  obtain ⟨regs, hfound, -⟩ := hsub
  unfold EmbReadFileReq.answerSize at hsize ⊢
  have hbyte : byteCounter + (BitVec.ofNat 8 (sub.recordLength.toNat * 2 + 1) + 1)
      = BitVec.ofNat 8 (byteCounter.toNat + (2 + 2 * sub.recordLength.toNat)) := by
    refine BitVec.eq_of_toNat_eq ?_
    rw [BitVec.toNat_add, BitVec.toNat_add, BitVec.toNat_ofNat, BitVec.toNat_ofNat]
    have hone : (1 : Byte).toNat = 1 := rfl
    rw [hone]
    omega
  have hroom : ¬ r.txPdu.maxSize.toNat
      < (BitVec.ofNat 8 (byteCounter.toNat + (2 + 2 * sub.recordLength.toNat))).toNat := by
    have h253 : (253 : Byte).toNat = 253 := rfl
    rw [hmax, h253, BitVec.toNat_ofNat]
    omega
  refine ⟨.readFile sub.fileNumber sub.recordNumber sub.recordLength (txPos + 2), ?_⟩
  unfold readFileSub FileStore.server FileStore.file
  dsimp only
  rw [hfileno, hfound, hstart, hcount]
  dsimp only [Option.map_some]
  rw [if_neg (not_not.2 htype), hbyte, if_neg hroom, if_neg (not_not.2 rfl)]
  have hdata : Mem.swapWords (Mem.blit (Mem.blit r.txPdu.data txPos
        [BitVec.ofNat 8 (sub.recordLength.toNat * 2 + 1), embFileRefType]) (txPos + 2)
        (Mem.le (sub.regs r.store))) (txPos + 2) sub.recordLength.toNat
      = Mem.blit r.txPdu.data txPos (sub.answer r.store) := by
    rw [← hregs, Mem.swapWords_blit_le, hregs]
    exact (Mem.blit_append r.txPdu.data txPos
      [BitVec.ofNat 8 (sub.recordLength.toNat * 2 + 1), embFileRefType] _).symm
  unfold EmbReadFileReq.regs at hdata
  rw [hfound] at hdata
  rw [hfound, hdata, Nat.add_assoc]

theorem readFileLoop_files (subs : List EmbReadFileReq) {rxPos : ℕ} (txPos : ℕ)
    (byteCounter : Byte) {r : SrvRun FileStore}
    (hat : Mem.At r.rxPdu.data rxPos (subs.flatMap EmbReadFileReq.bytes))
    (hsubs : ∀ sub ∈ subs, sub.Within r.store)
    (hsize : byteCounter.toNat + (subs.map EmbReadFileReq.answerSize).sum ≤ 252)
    (hmax : r.txPdu.maxSize = 253) :
    ∃ calls, readFileLoop FileStore.server subs.length rxPos txPos byteCounter r
      = (.ok (BitVec.ofNat 8 (byteCounter.toNat + (subs.map EmbReadFileReq.answerSize).sum)),
        { r with
          calls := r.calls ++ calls
          txPdu := { r.txPdu with
            data := Mem.blit r.txPdu.data txPos
              (subs.flatMap (EmbReadFileReq.answer r.store)) } }) := by
  induction subs generalizing rxPos txPos byteCounter r with
  | nil =>
    refine ⟨[], ?_⟩
    rw [List.append_nil, List.flatMap_nil, Mem.blit_nil, List.map_nil, List.sum_nil, Nat.add_zero,
      BitVec.ofNat_toNat, BitVec.setWidth_eq]
    rfl
  | cons sub subs ih =>
    rw [List.flatMap_cons, Mem.at_append, EmbReadFileReq.length_bytes] at hat
    rw [List.forall_mem_cons] at hsubs
    rw [List.map_cons, List.sum_cons] at hsize ⊢
    obtain ⟨call, hturn⟩ := readFileSub_files txPos byteCounter hat.1 hsubs.1
      (by omega) hmax
    have hcounter : (BitVec.ofNat 8 (byteCounter.toNat + sub.answerSize)).toNat
        = byteCounter.toNat + sub.answerSize := by
      rw [BitVec.toNat_ofNat]
      omega
    obtain ⟨calls, hrest⟩ := ih (txPos + sub.answerSize)
      (BitVec.ofNat 8 (byteCounter.toNat + sub.answerSize))
      (r := { r with
        calls := r.calls ++ [call]
        txPdu := { r.txPdu with data := Mem.blit r.txPdu.data txPos (sub.answer r.store) } })
      hat.2 hsubs.2 (by rw [hcounter]; omega) hmax
    refine ⟨call :: calls, ?_⟩
    rw [List.length_cons]
    unfold readFileLoop
    rw [hturn]
    dsimp only
    rw [hrest, hcounter, List.flatMap_cons, Mem.blit_append, hsubs.1.length_answer, Nat.add_assoc,
      List.append_assoc]
    rfl

/-- The answer to a request to read: the sub-answers behind their number of bytes. -/
structure AnswersSubs (answer : EmbPdu) (s : FileStore) (subs : List EmbReadFileReq) : Prop where
  function : answer.function = 0x14
  dataSize : answer.dataSize.toNat = 1 + (subs.map EmbReadFileReq.answerSize).sum
  count : (answer.data 0).toNat = (subs.map EmbReadFileReq.answerSize).sum
  body : Mem.At answer.data 1 (subs.flatMap (EmbReadFileReq.answer s))

theorem embSrvReadFile_files {subs : List EmbReadFileReq} {r : SrvRun FileStore}
    (hreq : CarriesSubs r.rxPdu 0x14 (subs.flatMap EmbReadFileReq.bytes)) (hne : subs ≠ [])
    (h35 : subs.length ≤ 35) (hsubs : ∀ sub ∈ subs, sub.Within r.store)
    (hsize : (subs.map EmbReadFileReq.answerSize).sum ≤ 252) (hmax : r.txPdu.maxSize = 253) :
    (embSrvReadFile FileStore.server r).1 = 0
      ∧ (embSrvReadFile FileStore.server r).2.store = r.store
      ∧ AnswersSubs (embSrvReadFile FileStore.server r).2.txPdu r.store subs := by
  have hlen := List.length_pos_iff.2 hne
  have hcount := hreq.count
  rw [length_readBody] at hcount
  have hturns : ((r.rxPdu.data 0).toNat + 6) / 7 = subs.length := by omega
  have hzero : (0 : Byte).toNat = 0 := rfl
  obtain ⟨calls, hloop⟩ := readFileLoop_files subs 1 0 hreq.body hsubs (by rw [hzero]; omega) hmax
  rw [hzero, Nat.zero_add] at hloop
  unfold embSrvReadFile
  dsimp only
  rw [if_neg (by omega), hturns, hloop]
  refine ⟨rfl, rfl, rfl, ?_, ?_, ?_⟩
  · dsimp only
    rw [BitVec.toNat_add, BitVec.toNat_ofNat]
    have hone : (1 : Byte).toNat = 1 := rfl
    rw [hone]
    omega
  · dsimp only
    rw [Mem.blit_singleton, if_pos rfl, BitVec.toNat_ofNat]
    omega
  · dsimp only
    exact Mem.at_blit.blit_le le_rfl

/-! ## The walk over the answer -/

/-- Where the sub-answers begin, the first at `pos`. -/
def subanswerPlaces : ℕ → List EmbReadFileReq → List ℕ
  | _, [] => []
  | pos, sub :: subs => pos :: subanswerPlaces (pos + sub.answerSize) subs

theorem subanswerPlaces_eq (s : FileStore) (subs : List EmbReadFileReq)
    (h : ∀ sub ∈ subs, sub.Within s) (pos : ℕ) :
    subanswerPlaces pos subs = answerPlaces pos (subs.map fun sub => sub.regs s) := by
  induction subs generalizing pos with
  | nil => rfl
  | cons sub subs ih =>
    rw [List.forall_mem_cons] at h
    unfold subanswerPlaces EmbReadFileReq.answerSize
    rw [ih h.2, List.map_cons, answerPlaces, h.1.length_regs]

theorem EmbReadFileReq.Within.answer_eq (h : sub.Within s) :
    sub.answer s = subanswerBytes (sub.regs s) := by
  unfold EmbReadFileReq.answer subanswerBytes
  rw [h.length_regs, Nat.mul_comm, Nat.add_comm]
  rfl

theorem answers_eq {subs : List EmbReadFileReq} (h : ∀ sub ∈ subs, sub.Within s) :
    subs.flatMap (EmbReadFileReq.answer s)
      = (subs.map fun sub => sub.regs s).flatMap subanswerBytes := by
  rw [List.flatMap_map]
  exact List.flatMap_congr fun sub hsub => (h sub hsub).answer_eq

/-- A sub-answer holds the registers of its file. -/
theorem subAnswers_of_at {answer : EmbPdu} {pos : ℕ} (hsub : sub.Within s)
    (hat : Mem.At answer.data pos (sub.answer s)) (hsize : sub.answerSize ≤ 252) :
    SubAnswers s answer pos sub := by
  have hregs := hsub.length_regs
  unfold EmbReadFileReq.answerSize at hsize
  rw [hsub.answer_eq] at hat
  obtain ⟨hquantity, hdata⟩ := subanswer_read hat (by omega)
  refine ⟨?_, fun offset hoffset => ?_⟩
  · rw [hquantity, hregs, BitVec.ofNat_toNat, BitVec.setWidth_eq]
  · rw [hdata offset (by omega)]
    obtain ⟨regs, hfound, hle⟩ := hsub
    unfold EmbReadFileReq.regs FileStore.reg
    simp only [hfound, Option.getD_some, List.getElem_take, List.getElem_drop]
    rw [List.getD_eq_getElem?_getD, List.getElem?_eq_getElem (by omega), Option.getD_some]

theorem subAnswers_places {answer : EmbPdu} (subs : List EmbReadFileReq) {pos : ℕ}
    (hsubs : ∀ sub ∈ subs, sub.Within s)
    (hsize : (subs.map EmbReadFileReq.answerSize).sum ≤ 252)
    (hat : Mem.At answer.data pos (subs.flatMap (EmbReadFileReq.answer s))) :
    List.Forall₂ (SubAnswers s answer) (subanswerPlaces pos subs) subs := by
  induction subs generalizing pos with
  | nil => exact .nil
  | cons sub subs ih =>
    rw [List.forall_mem_cons] at hsubs
    rw [List.map_cons, List.sum_cons] at hsize
    rw [List.flatMap_cons, Mem.at_append, hsubs.1.length_answer] at hat
    exact .cons (subAnswers_of_at hsubs.1 hat.1 (by omega)) (ih hsubs.2 (by omega) hat.2)

end Read

/-- A request to write that is answered leaves each of its sub-requests called for once and
written, and a request to read that follows is answered by the registers that the files then
hold, sub-answer by sub-answer. -/
theorem files_round_trip {r : SrvRun FileStore} {wreq rreq : EmbPdu} {ws : List EmbWriteFileReq}
    {rs : List EmbReadFileReq} (hwrite : (embWriteFileMakeReq wreq (some ws)).1 = 0)
    (hread : (embReadFileMakeReq rreq rs).1 = 0) (hrs : rs ≠ []) (h35 : rs.length ≤ 35)
    (hwithin : ∀ sub ∈ rs, sub.Within r.store)
    (hanswers : (rs.map EmbReadFileReq.answerSize).sum ≤ 252) (hmax : r.txPdu.maxSize = 253)
    (hreq : r.rxPdu.Same (embWriteFileMakeReq wreq (some ws)).2)
    (hzero : (embSrvWriteFile FileStore.server r).1 = 0) :
    let w := (embSrvWriteFile FileStore.server r).2
    (w.calls = r.calls ++ ws.map EmbWriteFileReq.call
        ∧ w.txPdu.Same (embWriteFileMakeReq wreq (some ws)).2
        ∧ w.store = ws.foldl EmbWriteFileReq.writeTo r.store)
      ∧ ∀ q : EmbPdu, q.Same (embReadFileMakeReq rreq rs).2 →
        let a := embSrvReadFile FileStore.server { w with rxPdu := q }
        a.1 = 0 ∧ a.2.store = w.store
          ∧ (a.2.txPdu.dataSize.toNat : ℤ) = embReadFileCalcAnswerDataSize rs
          ∧ ∃ places, (∀ turns, rs.length < turns → readFileWalk a.2.txPdu turns none = places)
            ∧ List.Forall₂ (SubAnswers w.store a.2.txPdu) places rs := by
  have hbuilt := (writeFileReq_built hwrite).of_same hreq
  have hmax' : (embSrvWriteFile FileStore.server r).2.txPdu.maxSize = 253 :=
    (embSrvWriteFile_sameMax FileStore.server r).tx.trans hmax
  dsimp only
  obtain ⟨hstore, hcalls, hsame⟩ := embSrvWriteFile_files hbuilt hzero
  refine ⟨⟨hcalls, ⟨hsame.function.trans hreq.function, hsame.dataSize.trans hreq.dataSize,
    hsame.bytes.trans hreq.bytes⟩, hstore⟩, fun q hq => ?_⟩
  have hwithin' : ∀ sub ∈ rs, sub.Within (embSrvWriteFile FileStore.server r).2.store := by
    intro sub hsub
    rw [hstore]
    exact (hwithin sub hsub).foldl_writeTo ws
  obtain ⟨ha0, hastore, hanswer⟩ := embSrvReadFile_files
    (r := { (embSrvWriteFile FileStore.server r).2 with rxPdu := q })
    ((readFileReq_built hread).of_same hq) hrs h35 hwithin' hanswers hmax'
  refine ⟨ha0, hastore, ?_, subanswerPlaces 1 rs, fun turns hturns => ?_, ?_⟩
  · rw [hanswer.dataSize, calcAnswerDataSize_eq]
  · have hbody := hanswer.body
    have hlen := length_answers hwithin'
    rw [answers_eq hwithin'] at hbody hlen
    rw [subanswerPlaces_eq _ rs hwithin']
    refine readFileWalk_eq ?_ hanswer.count _ (by rwa [List.length_map]) rfl ?_ le_rfl hbody
    · rw [hanswer.dataSize, hanswer.count, Nat.add_comm]
    · rw [hlen, Nat.add_comm]
  · exact subAnswers_places rs hwithin' hanswers hanswer.body

/-- A store of one file with three registers. -/
def threeRegs : FileStore := fun fileno => if fileno = 1 then some [1, 2, 3] else none

def writeTwoRegs : EmbWriteFileReq := ⟨1, 0, 2, fun i => [7, 8].getD i 0⟩

def readThreeRegs : EmbReadFileReq := ⟨1, 0, 3⟩

def emptyPdu : EmbPdu := ⟨0, 0, 253, fun _ => 0⟩

def writeTwoRun : SrvRun FileStore where
  rxPdu := (embWriteFileMakeReq emptyPdu (some [writeTwoRegs])).2
  txPdu := emptyPdu
  store := threeRegs
  calls := []

theorem file_round_trip_three :
    let w := (embSrvWriteFile FileStore.server writeTwoRun).2
    (w.calls = [] ++ [writeTwoRegs].map EmbWriteFileReq.call
        ∧ w.txPdu.Same (embWriteFileMakeReq emptyPdu (some [writeTwoRegs])).2
        ∧ w.store = [writeTwoRegs].foldl EmbWriteFileReq.writeTo threeRegs)
      ∧ ∀ q : EmbPdu, q.Same (embReadFileMakeReq emptyPdu [readThreeRegs]).2 →
        let a := embSrvReadFile FileStore.server { w with rxPdu := q }
        a.1 = 0 ∧ a.2.store = w.store
          ∧ (a.2.txPdu.dataSize.toNat : ℤ) = embReadFileCalcAnswerDataSize [readThreeRegs]
          ∧ ∃ places,
            (∀ turns, [readThreeRegs].length < turns → readFileWalk a.2.txPdu turns none = places)
            ∧ List.Forall₂ (SubAnswers w.store a.2.txPdu) places [readThreeRegs] :=
  files_round_trip (r := writeTwoRun) (by decide) (by decide) (by decide) (by decide)
    (List.forall_mem_singleton.2 ⟨[1, 2, 3], rfl, by decide⟩) (by decide) rfl ⟨rfl, rfl, rfl⟩
    (by decide)

end Emodbus
