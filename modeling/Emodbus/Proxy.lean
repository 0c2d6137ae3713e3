import Emodbus.Lib.Bits
import Emodbus.Lib.Mealy
import Emodbus.Transaction

/-!
# The proxy

`proxy_t` in `cpp-wrap/emodbus.cpp`, over a synchronous client whose requests are answered.  All
operations but `read_fifo` build their request in the one transaction of the proxy.

`ProxyOp.wire` is the Modbus request that an operation is for.
-/

namespace Emodbus

open Octets

/-- `read_file_t::subanswer_t`. -/
structure Subanswer where
  length : Word
  data : List Word

/-- What an operation hands to its caller. -/
inductive ProxyResult
  | nothing
  | bits (values : List Bool)
  | regs (values : List Word)
  | reg (value : Word)
  | bit (value : Bool)
  /-- The registers that are copied into a `float`. -/
  | float (values : List Word)
  /-- What is put behind the sub-answers that the caller's vector holds. -/
  | file (subanswers : List Subanswer)

/-- An operation: what it builds, and what it makes of the transaction then. -/
structure ProxyCall where
  build : BuildReq
  result : Transaction → ProxyResult

/-! ## What is made of the answer -/

/-- `_result[i] = r.get_answer_bit(i)`, for as many bits as the request has asked for. -/
def readBitsResult (tr : Transaction) : ProxyResult :=
  .bits ((List.range (getSwapped tr.req.pdu 2).toNat).map fun i =>
    embReadBitsGetBit tr.ans.pdu i != 0)

/-- `r.get_answer_regs(.., 0, r.get_answer_quantity())`. -/
def readRegsAnswer (tr : Transaction) : List Word :=
  (List.range (embReadRegsGetRegsN tr.ans.pdu).toNat).map (embReadRegsGetReg tr.ans.pdu)

/-- `r.get_answer_rd_regs(.., 0, r.get_answer_rd_quantity())`. -/
def readWriteRegsAnswer (tr : Transaction) : List Word :=
  (List.range (embRdwrRegsGetAnswRegsN tr.ans.pdu).toNat).map (embRdwrRegsGetAnswReg tr.ans.pdu)

/-- `read_file_t::get_answer`.  A place of a sub-answer is below 256. -/
def readFileAnswer (ans : EmbPdu) : List Subanswer :=
  (readFileWalk ans 256 none).map fun sa =>
    let length := embReadFileSubanswerQuantity ans sa
    ⟨length, (List.range length.toNat).map fun j =>
      embReadFileSubanswerData ans sa (BitVec.ofNat 16 j)⟩

/-- `read_fifo_t::get_answer_all_data`. -/
def readFifoAnswer (ans : EmbPdu) : List Word :=
  embReadFifoGetAllData ans (embReadFifoRegsCount ans)

/-! ## The operations -/

/-- The operations with their arguments; an `int` that is assigned is any integer, and a `float` is
the two registers that its bytes are. -/
inductive ProxyOp
  | readDiscreteInputs (start size : Word)
  | readCoils (start size : Word)
  | writeCoil (addr : Word) (value : Bool)
  | readInputRegs (start size : Word)
  | readHoldings (start size : Word)
  | writeHolding (addr value : Word)
  | writeHoldings (start : Word) (values : List Word)
  | readWriteHoldings (readStart readSize writeStart : Word) (toWrite : List Word)
  | readFile (req : List EmbReadFileReq)
  | writeFile (req : List WriteFileSubreq)
  | readFifo (start : Word)
  /-- `reg_t::operator int` -/
  | regInt (addr : Word)
  /-- `reg_t::operator = (int)` -/
  | regAssign (addr : Word) (v : ℤ)
  /-- `reg_t::operator |=` -/
  | regOr (addr : Word) (v : ℤ)
  /-- `reg_t::operator &=` -/
  | regAnd (addr : Word) (v : ℤ)
  /-- `reg_t::operator = (const emb::regs_t&)` -/
  | regAssignRegs (addr : Word) (regs : List Word)
  /-- `reg_t::operator float` -/
  | regFloat (addr : Word)
  /-- `reg_t::operator = (float)` -/
  | regAssignFloat (addr first second : Word)
  | regSetBit (addr : Word) (nbit : Byte) (value : Bool)
  | regGetBit (addr : Word) (nbit : Byte)
  /-- `regs_t::operator emb::regs_t` -/
  | rangeRegs (start stop : Word)
  /-- `regs_t::operator =` -/
  | rangeAssign (start stop : Word) (regs : List Word)

namespace ProxyOp

/-- The bodies of the operations. -/
def call : ProxyOp → ProxyCall
  | readDiscreteInputs start size =>
    ⟨readBitsBuildReq .discreteInputs start size, readBitsResult⟩
  | readCoils start size => ⟨readBitsBuildReq .coils start size, readBitsResult⟩
  | writeCoil addr value => ⟨writeCoilBuildReq addr value, fun _ => .nothing⟩
  | readInputRegs start size =>
    ⟨readRegsBuildReq .inputs start size, fun tr => .regs (readRegsAnswer tr)⟩
  | readHoldings start size =>
    ⟨readRegsBuildReq .holdings start size, fun tr => .regs (readRegsAnswer tr)⟩
  | writeHolding addr value => ⟨writeRegBuildReq addr value, fun _ => .nothing⟩
  | writeHoldings start values =>
    ⟨writeRegsBuildReq start (vecSize values) (vecData values), fun _ => .nothing⟩
  | readWriteHoldings readStart readSize writeStart toWrite =>
    ⟨readWriteRegsBuildReq readStart readSize writeStart (vecSize toWrite) (vecData toWrite),
      fun tr => .regs (readWriteRegsAnswer tr)⟩
  | readFile req => ⟨readFileBuildReq req, fun tr => .file (readFileAnswer tr.ans.pdu)⟩
  | writeFile req => ⟨writeFileBuildReq req, fun _ => .nothing⟩
  | readFifo start => ⟨readFifoBuildReq start, fun tr => .regs (readFifoAnswer tr.ans.pdu)⟩
  | regInt addr =>
    ⟨readRegsBuildReq .holdings addr 1, fun tr => .reg (embReadRegsGetReg tr.ans.pdu 0)⟩
  | regAssign addr v => ⟨writeRegBuildReq addr (BitVec.ofInt 16 v), fun _ => .nothing⟩
  | regOr addr v =>
    ⟨writeMaskRegBuildReq addr (~~~BitVec.ofInt 16 v) (BitVec.ofInt 16 v), fun _ => .nothing⟩
  | regAnd addr v => ⟨writeMaskRegBuildReq addr (~~~BitVec.ofInt 16 v) 0, fun _ => .nothing⟩
  | regAssignRegs addr regs =>
    ⟨writeRegsBuildReq addr (vecSize regs) (vecData regs), fun _ => .nothing⟩
  | regFloat addr => ⟨readRegsBuildReq .holdings addr 2, fun tr => .float (readRegsAnswer tr)⟩
  | regAssignFloat addr first second =>
    ⟨writeRegsBuildReq addr 2 (vecData [first, second]), fun _ => .nothing⟩
  | regSetBit addr nbit value =>
    let mask := BitVec.ofNat 16 (1 <<< nbit.toNat)
    ⟨writeMaskRegBuildReq addr (~~~mask) (if value then mask else 0), fun _ => .nothing⟩
  | regGetBit addr nbit =>
    ⟨readRegsBuildReq .holdings addr 1,
      fun tr => .bit ((embReadRegsGetReg tr.ans.pdu 0).toNat &&& 1 <<< nbit.toNat != 0)⟩
  | rangeRegs start stop =>
    ⟨readRegsBuildReq .holdings start (stop - start + 1), fun tr => .regs (readRegsAnswer tr)⟩
  | rangeAssign start _ regs =>
    ⟨writeRegsBuildReq start (vecSize regs) (vecData regs), fun _ => .nothing⟩

end ProxyOp

/-- A call of an operation: what `build_req` returned, the requests that were passed to
`client_t::do_transaction`, and what the operation returned; `none` is for an exception. -/
structure ProxyOutcome where
  op : ProxyOp
  answer : EmbPdu
  built : Option ℤ
  transmitted : List EmbPdu
  returned : Option ProxyResult

/-- An operation, and the answer that its request gets. -/
structure ProxyInput where
  op : ProxyOp
  answer : EmbPdu

namespace Proxy

variable (alloc : ℕ → Bool)

/-- `client_t::do_transaction`, when this is the answer: the transport puts it into the response PDU
if there is room, and the client looks at its function. -/
def doTransaction (tr : Transaction) (answer : EmbPdu) : ℤ × Transaction :=
  if tr.ans.pdu.maxSize.toNat < answer.dataSize.toNat then (-modbusRespBufferOvf, tr)
  else
    let tr := { tr with ans.pdu := tr.ans.pdu.receive answer }
    let res := embCheckPduForException tr.ans.pdu
    if res ≠ 0 then (res, tr)
    else if tr.req.pdu.function ≠ tr.ans.pdu.function then (-modbusRespWrongFunc, tr)
    else (0, tr)

/-- An operation on the transaction of the proxy.  What `build_req` returns is not looked at. -/
def perform (tr : Transaction) (i : ProxyInput) : Transaction × ProxyOutcome :=
  let b := i.op.call.build.run alloc tr
  match b.1 with
  | none => (b.2, ⟨i.op, i.answer, none, [], none⟩)
  | some code =>
    let sent := [b.2.req.pdu]
    let res := doTransaction b.2 i.answer
    if res.1 ≠ 0 then (res.2, ⟨i.op, i.answer, code, sent, none⟩)
    else (res.2, ⟨i.op, i.answer, code, sent, i.op.call.result res.2⟩)

/-- `proxy_t::read_fifo`: the transaction is its own, and it throws what `build_req` throws. -/
def readFifo (fresh : Transaction) (i : ProxyInput) : ProxyOutcome :=
  let b := i.op.call.build.run alloc fresh
  match b.1 with
  | none => ⟨i.op, i.answer, none, [], none⟩
  | some code =>
    if code ≠ 0 then ⟨i.op, i.answer, code, [], none⟩
    else ⟨i.op, i.answer, code, [], i.op.call.result b.2⟩

/-- A transaction whose PDUs have been constructed. -/
def fresh (function : Byte × Byte) : Transaction := ⟨.empty function.1, .empty function.2⟩

def step (function : Byte × Byte) (tr : Transaction) (i : ProxyInput) :
    Transaction × ProxyOutcome :=
  match i.op with
  | .readFifo _ => (tr, readFifo alloc (fresh function) i)
  | _ => perform alloc tr i

end Proxy

/-! ## What the operations are for -/

/-- An integer that a register can be given. -/
def FitsReg (v : ℤ) : Prop := -0x8000 ≤ v ∧ v ≤ 0xFFFF

instance (v : ℤ) : Decidable (FitsReg v) := inferInstanceAs (Decidable (_ ∧ _))

/-- The function and the data of a request. -/
abbrev Wire := Byte × List Byte

namespace ProxyOp

def readBitsWire (function : Byte) (start size : Word) : Option Wire :=
  if 1 ≤ size.toNat ∧ size.toNat ≤ 2000 then some (function, Mem.be [start, size]) else none

def readRegsWire (function : Byte) (start : Word) (size : ℕ) : Option Wire :=
  if 1 ≤ size ∧ size ≤ 125 then some (function, Mem.be [start, BitVec.ofNat 16 size]) else none

def writeRegsWire (start : Word) (values : List Word) : Option Wire :=
  if 1 ≤ values.length ∧ values.length ≤ 123 then
    some (0x10, Mem.be [start, BitVec.ofNat 16 values.length]
      ++ [BitVec.ofNat 8 (values.length * 2)] ++ Mem.be values)
  else none

def maskWire (addr andMask orMask : Word) : Wire := (0x16, Mem.be [addr, andMask, orMask])

def readFileSub (sub : EmbReadFileReq) : List Byte :=
  6 :: Mem.be [sub.fileNumber, sub.recordNumber, sub.recordLength]

def writeFileSub (sub : WriteFileSubreq) : List Byte :=
  6 :: Mem.be ([sub.fileNumber, sub.recordNumber, BitVec.ofNat 16 sub.regs.length] ++ sub.regs)

/-- The sub-requests behind their number of bytes. -/
def subsWire (function : Byte) (body : List Byte) : Option Wire :=
  if body.length ≤ 254 then some (function, BitVec.ofNat 8 body.length :: body) else none

/-- The request that encodes the operation with its arguments, if there is one. -/
def wire : ProxyOp → Option Wire
  | readDiscreteInputs start size => readBitsWire 0x02 start size
  | readCoils start size => readBitsWire 0x01 start size
  | writeCoil addr value => some (0x05, Mem.be [addr, if value then 0xFF00 else 0x0000])
  | readInputRegs start size => readRegsWire 0x04 start size.toNat
  | readHoldings start size => readRegsWire 0x03 start size.toNat
  | writeHolding addr value => some (0x06, Mem.be [addr, value])
  | writeHoldings start values => writeRegsWire start values
  | readWriteHoldings readStart readSize writeStart toWrite =>
    if (1 ≤ readSize.toNat ∧ readSize.toNat ≤ 125)
        ∧ 1 ≤ toWrite.length ∧ toWrite.length ≤ 121 then
      some (0x17, Mem.be [readStart, readSize, writeStart, BitVec.ofNat 16 toWrite.length]
        ++ [BitVec.ofNat 8 (toWrite.length * 2)] ++ Mem.be toWrite)
    else none
  | readFile req =>
    if ∀ sub ∈ req, sub.recordNumber.toNat ≤ maxRecordNumber then
      subsWire 0x14 (req.flatMap readFileSub)
    else none
  | writeFile req =>
    if req ≠ [] ∧ ∀ sub ∈ req, sub.recordNumber.toNat ≤ maxRecordNumber then
      subsWire 0x15 (req.flatMap writeFileSub)
    else none
  | readFifo start => some (0x18, Mem.be [start])
  | regInt addr => readRegsWire 0x03 addr 1
  | regAssign addr v =>
    if FitsReg v then some (0x06, Mem.be [addr, BitVec.ofInt 16 v]) else none
  | regOr addr v =>
    if FitsReg v then some (maskWire addr (~~~BitVec.ofInt 16 v) (BitVec.ofInt 16 v)) else none
  | regAnd addr v => if FitsReg v then some (maskWire addr (BitVec.ofInt 16 v) 0) else none
  | regAssignRegs addr regs => writeRegsWire addr regs
  | regFloat addr => readRegsWire 0x03 addr 2
  | regAssignFloat addr first second => writeRegsWire addr [first, second]
  | regSetBit addr nbit value =>
    if nbit.toNat < 16 then
      let mask := BitVec.ofNat 16 (1 <<< nbit.toNat)
      some (maskWire addr (~~~mask) (if value then mask else 0))
    else none
  | regGetBit addr nbit => if nbit.toNat < 16 then readRegsWire 0x03 addr 1 else none
  | rangeRegs start stop =>
    if start.toNat ≤ stop.toNat then readRegsWire 0x03 start (stop.toNat - start.toNat + 1)
    else none
  | rangeAssign start stop regs =>
    if start.toNat ≤ stop.toNat ∧ regs.length = stop.toNat - start.toNat + 1 then
      writeRegsWire start regs
    else none

/-- The PDU is the operation's request. -/
def Encodes (op : ProxyOp) (pdu : EmbPdu) : Prop :=
  ∃ w, op.wire = some w ∧ pdu.Carries w.1 w.2

/-! ### The answers -/

/-- An answer with as many bits as were asked for. -/
def BitsIn (size : Word) (answer : EmbPdu) (r : ProxyResult) : Prop :=
  1 + (size.toNat + 7) / 8 ≤ answer.bytes.length
    ∧ r = .bits (unpack (answer.bytes.drop 1) size.toNat)

/-- An answer with as many registers as it says. -/
def RegsIn (answer : EmbPdu) (values : List Word) : Prop :=
  ∃ count rest, answer.bytes = count :: (Mem.be values ++ rest)
    ∧ values.length = count.toNat / 2

/-- An answer with a register. -/
def RegIn (answer : EmbPdu) (value : Word) : Prop :=
  ∃ count rest, answer.bytes = count :: (Mem.be [value] ++ rest)

/-- An answer with the registers of these sub-answers.  No bytes may follow them:
`emb_read_file_next_subanswer` reads nothing of an answer whose size is not the one it says. -/
def FileIn (answer : EmbPdu) (subanswers : List (List Word)) : Prop :=
  answer.bytes = BitVec.ofNat 8 (subanswers.flatMap subanswerBytes).length
    :: subanswers.flatMap subanswerBytes

/-- The result is what the answer says. -/
def AnsweredBy (answer : EmbPdu) (r : ProxyResult) : ProxyOp → Prop
  | readDiscreteInputs _ size | readCoils _ size => BitsIn size answer r
  | readInputRegs _ _ | readHoldings _ _ | readWriteHoldings _ _ _ _ | rangeRegs _ _ =>
    ∃ values, r = .regs values ∧ RegsIn answer values
  | readFile _ => ∃ subanswers, r = .file (subanswers.map fun regs => ⟨vecSize regs, regs⟩)
    ∧ FileIn answer subanswers
  | readFifo _ => ∃ values, r = .regs values ∧ ∃ byteCount,
    answer.bytes = Mem.be ([byteCount, vecSize values] ++ values)
  | regInt _ => ∃ value, r = .reg value ∧ RegIn answer value
  | regFloat _ => ∃ first second, r = .float [first, second] ∧ RegsIn answer [first, second]
  | regGetBit _ nbit => ∃ value, r = .bit (value.getLsbD nbit.toNat) ∧ RegIn answer value
  | writeCoil _ _ | writeHolding _ _ | writeHoldings _ _ | writeFile _ | regAssign _ _ | regOr _ _
  | regAnd _ _ | regAssignRegs _ _ | regAssignFloat _ _ _ | regSetBit _ _ _ | rangeAssign _ _ _ =>
    r = .nothing

end ProxyOp

/-- A call is one transaction: if it returns, it has transmitted one request, which encodes it, and
its result is what the answer says.  What cannot be encoded, or is not built, is not transmitted. -/
structure ProxyOutcome.Honest (o : ProxyOutcome) : Prop where
  refused : (o.op.wire = none ∨ ∃ code : ℤ, o.built = some code ∧ code ≠ 0) → o.transmitted = []
  transmits : ∀ r, o.returned = some r → ∃ pdu, o.transmitted = [pdu] ∧ o.op.Encodes pdu
  decodes : ∀ r, o.returned = some r → o.op.AnsweredBy o.answer r

/-- The client takes the answer to the request: there is room for it, it is no exception and it has
the function of the request.  Otherwise the operation throws. -/
def Proxy.Takes (room : ℕ) (w : Wire) (answer : EmbPdu) : Prop :=
  answer.dataSize.toNat ≤ room ∧ answer.function &&& 0x80 = 0 ∧ answer.function = w.1

/-- When a call is one transaction: a buffer cannot be resized, so that it throws, or the request is
one that can be encoded and has room in the buffer as it is, and an answer that the client takes is
an answer to the operation. -/
def Proxy.Sound (alloc : ℕ → Bool) (function : Byte × Byte) (tr : Transaction) (i : ProxyInput) :
    Prop :=
  match i.op with
  | .readFifo start => ¬ (readFifoBuildReq start).Grows alloc (fresh function)
  | op => ¬ op.call.build.Grows alloc tr ∨
    ∃ w, op.wire = some w ∧ w.2.length ≤ tr.req.room w.2.length
      ∧ (Takes (tr.ans.room (unsignedInt op.call.build.ansSize)) w i.answer →
        (∀ addr v, op ≠ .regAnd addr v) ∧ ∃ r, op.AnsweredBy i.answer r)

end Emodbus
