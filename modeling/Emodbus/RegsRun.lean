import Emodbus.ClientRegs
import Emodbus.Lib.Mealy
import Emodbus.ServerT

/-!
# Requests for registers, served and answered

A client builds a request in its PDU, the server of `ServerT` gets it through the super server, and
the client's getters decode what is sent back.  `FlatRegs` is what that is for: one flat map from
addresses to registers for each table.
-/

namespace Emodbus

open Octets

inductive RegsRequest
  | readRegs (type : EmbRrType) (startingAddress quantity : Word)
  | writeReg (address value : Word)
  | writeRegs (address quantity : Word) (data : Mem Word)
  | writeMaskReg (address andMask orMask : Word)
  | rdwrRegs (rdAddress rdQuantity wrAddress wrQuantity : Word) (wrData : Mem Word)

/-- The client's function for the request. -/
def RegsRequest.makeReq (req : EmbPdu) : RegsRequest → ℤ × EmbPdu
  | readRegs type startingAddress quantity =>
    embReadRegsMakeReq req type startingAddress quantity
  | writeReg address value => embWriteRegMakeReq req address value
  | writeRegs address quantity data => embWriteRegsMakeReq req address quantity data
  | writeMaskReg address andMask orMask => embWriteMaskRegMakeReq req address andMask orMask
  | rdwrRegs rdAddress rdQuantity wrAddress wrQuantity wrData =>
    embRdwrRegsMakeReq req rdAddress rdQuantity wrAddress wrQuantity wrData

/-- An answer as the client's getters tell it. -/
inductive RegsAnswer
  | exception (errno : ℤ)
  | wrongFunc
  /-- `data_size`, the number of registers and the registers. -/
  | regs (dataSize regsN : ℤ) (values : List Word)
  /-- `data_size` and the words that are echoed. -/
  | written (dataSize : ℤ) (words : List Word)
  | nothing

/-- The client's getters on an answer. -/
def RegsRequest.getters (answer : EmbPdu) : RegsRequest → RegsAnswer
  | readRegs _ _ quantity =>
    .regs answer.dataSize.toNat (embReadRegsGetRegsN answer)
      ((List.range quantity.toNat).map (embReadRegsGetReg answer))
  | writeReg _ _ =>
    .written answer.dataSize.toNat [embWriteRegGetAddress answer, embWriteRegGetValue answer]
  | writeRegs _ _ _ =>
    .written answer.dataSize.toNat
      [embWriteRegsGetAnswerAddress answer, embWriteRegsGetAnswerQuantity answer]
  | writeMaskReg _ _ _ =>
    .written answer.dataSize.toNat [embWriteMaskRegGetAddress answer,
      embWriteMaskRegGetAndMask answer, embWriteMaskRegGetOrMask answer]
  | rdwrRegs _ rdQuantity _ _ _ =>
    .regs answer.dataSize.toNat (embRdwrRegsGetAnswRegsN answer)
      ((List.range rdQuantity.toNat).map (embRdwrRegsGetAnswReg answer))

/-- The client's checks of the answer to the request, and its getters. -/
def RegsRequest.decode (request : RegsRequest) (req answer : EmbPdu) : RegsAnswer :=
  let errno := embCheckPduForException answer
  if errno ≠ 0 then .exception errno
  else if answer.function ≠ req.function then .wrongFunc
  else request.getters answer

/-- The client's request PDU and the server. -/
structure SrvClient where
  req : EmbPdu
  run : SrvRun ServerT

/-- The client and the server before the first request. -/
def SrvClient.fresh (store : ServerT) : SrvClient :=
  let pdu : EmbPdu := ⟨0, 0, 253, fun _ => 0⟩
  ⟨pdu, ⟨pdu, pdu, store, []⟩⟩

/-- The server with the request of the client's PDU in its own. -/
def SrvClient.received (c : SrvClient) : SrvRun ServerT :=
  { c.run with rxPdu := c.run.rxPdu.receive c.req }

/-- The request in the client's PDU is received by the server at this address. -/
def SrvClient.serve (address : Byte) (c : SrvClient) : SrvReaction ServerT :=
  embSuperServerOnReceiveReq (superServerT address) address.toNat c.received

/-- One request: built, served, and its answer decoded. -/
def regsStep (address : Byte) (c : SrvClient) (request : RegsRequest) : SrvClient × RegsAnswer :=
  let c := { c with req := (request.makeReq c.req).2 }
  let reaction := c.serve address
  ({ c with run := reaction.run },
    match reaction.sent with
    | [(_, answer)] => request.decode c.req answer
    | _ => .nothing)

/-! ## On the wire -/

namespace RegsRequest

/-- The function of the request. -/
def function : RegsRequest → Byte
  | readRegs .holdings _ _ => 0x03
  | readRegs .inputs _ _ => 0x04
  | writeReg _ _ => 0x06
  | writeRegs _ _ _ => 0x10
  | writeMaskReg _ _ _ => 0x16
  | rdwrRegs _ _ _ _ _ => 0x17

/-- The data of the request. -/
def bytes : RegsRequest → List Byte
  | readRegs _ a n => Mem.be [a, n]
  | writeReg a value => Mem.be [a, value]
  | writeRegs a n data =>
    Mem.be [a, n] ++ [BitVec.ofNat 8 (n.toNat * 2)] ++ Mem.be (Mem.slice data 0 n.toNat)
  | writeMaskReg a andMask orMask => Mem.be [a, andMask, orMask]
  | rdwrRegs ra rn wa wn data =>
    Mem.be [ra, rn, wa, wn] ++ [BitVec.ofNat 8 (wn.toNat * 2)]
      ++ Mem.be (Mem.slice data 0 wn.toNat)

/-- The quantities the client's functions let pass. -/
def InRange : RegsRequest → Prop
  | readRegs _ _ n => 1 ≤ n.toNat ∧ n.toNat ≤ 125
  | writeReg _ _ => True
  | writeRegs _ n _ => 1 ≤ n.toNat ∧ n.toNat ≤ 123
  | writeMaskReg _ _ _ => True
  | rdwrRegs _ rn _ wn _ => (1 ≤ rn.toNat ∧ rn.toNat ≤ 0x007D) ∧ 1 ≤ wn.toNat ∧ wn.toNat ≤ 0x0079

end RegsRequest

/-! ## The flat registers -/

structure FlatRegs where
  holdings : Mem Word
  inputs : Mem Word

def FlatRegs.table (m : FlatRegs) : EmbRrType → Mem Word
  | .holdings => m.holdings
  | .inputs => m.inputs

/-- Which addresses there are in each table. -/
structure RegsLayout where
  holdings : Ranges
  inputs : Ranges

def RegsLayout.table (l : RegsLayout) : EmbRrType → Ranges
  | .holdings => l.holdings
  | .inputs => l.inputs

/-- What a request is for. -/
def flatRegsStep (l : RegsLayout) (m : FlatRegs) (request : RegsRequest) : FlatRegs × RegsAnswer :=
  let refused := (m, .exception (-(2 + embExceptionBase)))
  match request with
  | .readRegs type a n =>
    if (l.table type).inside a.toNat n.toNat then
      (m, .regs (embReadRegsCalcAnswerDataSize n) n.toNat
        (Mem.slice (m.table type) a.toNat n.toNat))
    else refused
  | .writeReg a value =>
    if l.holdings.inside a.toNat 1 then
      ({ m with holdings := Mem.blit m.holdings a.toNat [value] },
        .written embWriteRegCalcAnswerDataSize [a, value])
    else refused
  | .writeRegs a n data =>
    if l.holdings.inside a.toNat n.toNat then
      ({ m with holdings := Mem.blit m.holdings a.toNat (Mem.slice data 0 n.toNat) },
        .written embWriteRegsCalcAnswerDataSize [a, n])
    else refused
  | .writeMaskReg a andMask orMask =>
    if l.holdings.inside a.toNat 1 then
      let value := (m.holdings a.toNat &&& andMask) ||| (orMask &&& ~~~andMask)
      ({ m with holdings := Mem.blit m.holdings a.toNat [value] },
        .written embWriteMaskRegCalcAnswerDataSize [a, andMask, orMask])
    else refused
  | .rdwrRegs ra rn wa wn data =>
    if l.holdings.inside wa.toNat wn.toNat ∧ l.holdings.inside ra.toNat rn.toNat then
      -- the write comes first, so that the read sees it
      let written := Mem.blit m.holdings wa.toNat (Mem.slice data 0 wn.toNat)
      ({ m with holdings := written },
        .regs (embRdwrRegsCalcAnswerDataSize rn) rn.toNat (Mem.slice written ra.toNat rn.toNat))
    else refused

/-- The server's registers are the flat ones. -/
structure RegsLaid (l : RegsLayout) (s : ServerT) (m : FlatRegs) : Prop where
  holdings : Laid s.holdings l.holdings m.holdings
  inputs : Laid s.inputRegs l.inputs m.inputs

/-- The PDUs of the server have room for 253 bytes. -/
structure SrvClient.FullSize (c : SrvClient) : Prop where
  rx : c.run.rxPdu.maxSize = 253
  tx : c.run.txPdu.maxSize = 253

structure RegsFlat (l : RegsLayout) (c : SrvClient) (m : FlatRegs) : Prop where
  fullSize : c.FullSize
  laid : RegsLaid l c.run.store m

def ServerT.regsLayout (s : ServerT) : RegsLayout := ⟨rangesOf s.holdings, rangesOf s.inputRegs⟩

def ServerT.flatRegs (s : ServerT) : FlatRegs := ⟨flatMem s.holdings 0, flatMem s.inputRegs 0⟩

end Emodbus
