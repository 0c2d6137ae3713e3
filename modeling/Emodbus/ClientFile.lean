import Emodbus.ClientRegs
import Emodbus.Lib.Cursor
import Emodbus.ServerFile

/-!
# The client's requests for files and FIFOs

`client/read_file_record.c`, `client/write_file_record.c` and `client/read_fifo.c`.  A pointer to a
sub-answer is its place in the data of the answer.
-/

namespace Emodbus

open Octets

/-- `emb_read_file_req_t`. -/
structure EmbReadFileReq where
  fileNumber : Word
  recordNumber : Word
  recordLength : Word

/-- `emb_write_file_req_t`. -/
structure EmbWriteFileReq where
  fileNumber : Word
  recordNumber : Word
  recordLength : Word
  data : Mem Word

/-- The largest record number. -/
def maxRecordNumber : ℕ := 0x270F

/-! ## read_file_record.c -/

/-- `READ_FILE_REQ_SIZE`. -/
def readFileReqSize (nSubreqs : ℕ) : ℕ := 1 + 7 * nSubreqs

def embReadFileCalcReqDataSize (subRequestsNumber : ℕ) : ℤ := readFileReqSize subRequestsNumber

/-- `emb_read_file_calc_answer_data_size`. -/
def embReadFileCalcAnswerDataSize (subRequests : List EmbReadFileReq) : ℤ :=
  subRequests.foldl (fun result sub => result + (2 + 2 * sub.recordLength.toNat)) 1

/-- The loop of `emb_read_file_make_req`, with the next sub-request at `pos`. -/
def readFileReqLoop : List EmbReadFileReq → ℕ → Mem Byte → ℤ × Mem Byte
  | [], _, d => (0, d)
  | sub :: subs, pos, d =>
    if maxRecordNumber < sub.recordNumber.toNat then (-einval, d)
    else
      let d := Mem.blit d pos [6]
      let d := storeWord d (pos + 1) (swapBytes sub.fileNumber)
      let d := storeWord d (pos + 3) (swapBytes sub.recordNumber)
      let d := storeWord d (pos + 5) (swapBytes sub.recordLength)
      readFileReqLoop subs (pos + 7) d

/-- `emb_read_file_make_req`. -/
def embReadFileMakeReq (req : EmbPdu) (subRequests : List EmbReadFileReq) : ℤ × EmbPdu :=
  let reqSize := readFileReqSize subRequests.length
  if req.maxSize.toNat < reqSize then (-enomem, req)
  else
    let d := Mem.blit req.data 0 [BitVec.ofNat 8 (reqSize - 1)]
    let res := readFileReqLoop subRequests 1 d
    (res.1, { req with function := 0x14, dataSize := BitVec.ofNat 8 reqSize, data := res.2 })

/-- `emb_read_file_get_answer_length`. -/
def embReadFileGetAnswerLength (answer : EmbPdu) : ℕ := (answer.data 0).toNat

/-- `emb_read_file_next_subanswer`. -/
def embReadFileNextSubanswer (answer : EmbPdu) (subanswer : Option ℕ) : Option ℕ :=
  let answerSize := embReadFileGetAnswerLength answer + 1
  if answer.dataSize.toNat ≠ answerSize then none
  else
    let sa := match subanswer with
      | none => 1
      | some p => p + (answer.data p).toNat + 1
    let offsToNext := sa + (answer.data sa).toNat + 1
    if offsToNext > answerSize then none
    else if answer.data (sa + 1) ≠ 6 then none
    else some sa

/-- `emb_read_file_next_subanswer` again and again, up to NULL or for so many turns. -/
def readFileWalk (answer : EmbPdu) : (turns : ℕ) → Option ℕ → List ℕ
  | 0, _ => []
  | turns + 1, subanswer =>
    match embReadFileNextSubanswer answer subanswer with
    | none => []
    | some sa => sa :: readFileWalk answer turns (some sa)

/-- `emb_read_file_find_subanswer`, for a number that `++` does not overflow. -/
def embReadFileFindSubanswer (answer : EmbPdu) (subAnswerNumber : ℤ) : Option ℕ :=
  Cursor.moved (embReadFileNextSubanswer answer) (subAnswerNumber + 1).toNat none

/-- `emb_read_file_subanswer_quantity`. -/
def embReadFileSubanswerQuantity (answer : EmbPdu) (subanswer : ℕ) : Word :=
  BitVec.ofNat 16 ((answer.data subanswer).toNat / 2)

/-- `emb_read_file_subanswer_data`. -/
def embReadFileSubanswerData (answer : EmbPdu) (subanswer : ℕ) (offset : Word) : Word :=
  if offset.toNat > (answer.data subanswer).toNat / 2 then 0xFFFF
  else getSwapped answer (subanswer + 2 + 2 * offset.toNat)

/-- The bytes of a sub-answer with these registers. -/
def subanswerBytes (regs : List Word) : List Byte :=
  BitVec.ofNat 8 (1 + 2 * regs.length) :: 6 :: Mem.be regs

/-! ## write_file_record.c -/

/-- `emb_write_file_calc_req_data_size`; the argument is `none` for NULL. -/
def embWriteFileCalcReqDataSize : Option (List EmbWriteFileReq) → ℤ
  | none => -einval
  | some subRequests =>
    subRequests.foldl (fun result sub => result + (7 + 2 * sub.recordLength.toNat)) 1

/-- The loop of `emb_write_file_make_req`, with `sub_req_iterator` at `pos`. -/
def writeFileReqLoop : List EmbWriteFileReq → ℕ → Mem Byte → ℤ × Mem Byte
  | [], _, d => (0, d)
  | sub :: subs, pos, d =>
    if maxRecordNumber < sub.recordNumber.toNat then (-einval, d)
    else
      let d := Mem.blit d pos [6]
      let d := storeWord d (pos + 1) (swapBytes sub.fileNumber)
      let d := storeWord d (pos + 3) (swapBytes sub.recordNumber)
      let d := storeWord d (pos + 5) (swapBytes sub.recordLength)
      let d := storeSwapped d (pos + 7) sub.data sub.recordLength.toNat
      writeFileReqLoop subs (pos + (7 + 2 * sub.recordLength.toNat)) d

/-- `emb_write_file_make_req`. -/
def embWriteFileMakeReq (req : EmbPdu) (subRequests : Option (List EmbWriteFileReq)) :
    ℤ × EmbPdu :=
  let reqSize := embWriteFileCalcReqDataSize subRequests
  match subRequests with
  | none => (-einval, req)
  | some subs =>
    if reqSize ≤ 0 then (-einval, req)
    else if (req.maxSize.toNat : ℤ) < reqSize then (-enomem, req)
    else
      let d := Mem.blit req.data 0 [BitVec.ofInt 8 (reqSize - 1)]
      let res := writeFileReqLoop subs 1 d
      (res.1, { req with function := 0x15, dataSize := BitVec.ofInt 8 reqSize, data := res.2 })

/-! ## read_fifo.c -/

/-- `READ_FIFO_REQ_SIZE`. -/
def readFifoReqSize : ℕ := 2

def embReadFifoCalcReqDataSize : ℤ := readFifoReqSize

/-- `READ_FIFO_ANS_MAX_SIZE`. -/
def embReadFifoCalcAnswerDataSize : ℤ := readFifoAnsSize 31

/-- `emb_read_fifo_make_req`. -/
def embReadFifoMakeReq (req : EmbPdu) (startingAddress : Word) : ℤ × EmbPdu :=
  if req.maxSize.toNat < readFifoReqSize then (-enomem, req)
  else
    (0, { req with
      function := 0x18
      dataSize := BitVec.ofNat 8 readFifoReqSize
      data := storeWord req.data 0 (swapBytes startingAddress) })

/-- `emb_read_fifo_byte_count`; the answer is `none` for NULL. -/
def embReadFifoByteCount : Option EmbPdu → Word
  | none => 0xFFFF
  | some answer => getSwapped answer 0

/-- `emb_read_fifo_regs_count`. -/
def embReadFifoRegsCount (answer : EmbPdu) : Word := getSwapped answer 2

/-- `emb_read_fifo_get_data`; the answer is `none` for NULL. -/
def embReadFifoGetData (answer : Option EmbPdu) (offset : Word) : Word :=
  match answer with
  | none => 0xFFFF
  | some answer =>
    if offset.toNat < (embReadFifoRegsCount answer).toNat then
      getSwapped answer (2 * (2 + offset.toNat))
    else 0xFFFF

/-- `emb_read_fifo_get_all_data`: the registers that it copies. -/
def embReadFifoGetAllData (answer : EmbPdu) (bufSize : Word) : List Word :=
  (List.range (min bufSize.toNat (embReadFifoRegsCount answer).toNat)).map fun i =>
    getSwapped answer (2 * (2 + i))

/-- `_buf[i] = SWAP_BYTES(x)` for `i < n`. -/
def copyFifo (answer : EmbPdu) (buf : Mem Word) : (n : ℕ) → Mem Word
  | 0 => buf
  | n + 1 => Mem.blit (copyFifo answer buf n) n [getSwapped answer (2 * (2 + n))]

/-- `emb_read_fifo_get_all_data` as a whole: what it returns, and the buffer of the caller then; the
answer is `none` for NULL. -/
def embReadFifoGetAllDataTo (answer : Option EmbPdu) (bufSize : Word) (buf : Mem Word) :
    Word × Mem Word :=
  match answer with
  | none => (0xFFFF, buf)
  | some answer =>
    let regsCount := embReadFifoRegsCount answer
    let bufSize := if bufSize.toNat > regsCount.toNat then regsCount else bufSize
    (bufSize, copyFifo answer buf bufSize.toNat)

end Emodbus
