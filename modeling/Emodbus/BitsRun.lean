import Emodbus.ClientBits
import Emodbus.Lib.Bits
import Emodbus.RegsRun

/-!
# Requests for bits, served and answered

As `RegsRun` is for registers.  `FlatBits` is one flat map from addresses to bits for each table.
-/

namespace Emodbus

open Octets

inductive BitsRequest
  | readBits (type : EmbRbType) (startingAddress quantity : Word)
  | writeCoil (address : Word) (value : Byte)
  | writeCoils (startingAddress quantity : Word) (coils : Mem Bool)

namespace BitsRequest

/-- The client's function for the request, where it returns. -/
def makeReq (req : EmbPdu) : BitsRequest → Option (ℤ × EmbPdu)
  | readBits type startingAddress quantity =>
    some (embReadBitsMakeReq req type startingAddress quantity)
  | writeCoil address value => some (embWriteCoilMakeReq req address value)
  | writeCoils startingAddress quantity coils =>
    writeCoilsBuildReq req startingAddress quantity coils

/-- The function of the request. -/
def function : BitsRequest → Byte
  | readBits .coils _ _ => 0x01
  | readBits .discreteInputs _ _ => 0x02
  | writeCoil _ _ => 0x05
  | writeCoils _ _ _ => 0x0F

/-- The data of the request. -/
def bytes : BitsRequest → List Byte
  | readBits _ a n => Mem.be [a, n]
  | writeCoil a value => Mem.be [a, if value ≠ 0 then 0xFF00 else 0x0000]
  | writeCoils a n coils =>
    Mem.be [a, n] ++ [BitVec.ofNat 8 ((n.toNat + 7) / 8)] ++ pack coils n.toNat

/-- The quantities the client's functions let pass. -/
def InRange : BitsRequest → Prop
  | readBits _ _ n => 1 ≤ n.toNat ∧ n.toNat ≤ 2000
  | writeCoil _ _ => True
  | writeCoils _ n _ => 1 ≤ n.toNat ∧ n.toNat ≤ 1968

end BitsRequest

/-- An answer as the client tells it. -/
inductive BitsAnswer
  | exception (errno : ℤ)
  | wrongFunc
  /-- `data_size` and the bits. -/
  | bits (dataSize : ℤ) (values : List Bool)
  | written (dataSize : ℤ)
  | nothing

/-- The client's getters on an answer. -/
def BitsRequest.getters (answer : EmbPdu) : BitsRequest → BitsAnswer
  | readBits _ _ quantity =>
    .bits answer.dataSize.toNat
      ((List.range quantity.toNat).map fun i => embReadBitsGetBit answer i != 0)
  | writeCoil _ _ => .written answer.dataSize.toNat
  | writeCoils _ _ _ => .written answer.dataSize.toNat

/-- The client's checks of the answer to the request, and its getters. -/
def BitsRequest.decode (request : BitsRequest) (req answer : EmbPdu) : BitsAnswer :=
  let errno := embCheckPduForException answer
  if errno ≠ 0 then .exception errno
  else if answer.function ≠ req.function then .wrongFunc
  else request.getters answer

/-- One request: built, served, and its answer decoded. -/
def bitsStep (address : Byte) (c : SrvClient) (request : BitsRequest) : SrvClient × BitsAnswer :=
  match request.makeReq c.req with
  | none => (c, .nothing)
  | some built =>
    let c := { c with req := built.2 }
    let reaction := c.serve address
    ({ c with run := reaction.run },
      match reaction.sent with
      | [(_, answer)] => request.decode c.req answer
      | _ => .nothing)

/-- The request is built without an error. -/
def SrvClient.Builds (c : SrvClient) (request : BitsRequest) : Prop :=
  ∃ pdu, request.makeReq c.req = some (0, pdu)

/-! ## The flat bits -/

structure FlatBits where
  coils : Mem Bool
  inputs : Mem Bool

def FlatBits.table (m : FlatBits) : EmbRbType → Mem Bool
  | .coils => m.coils
  | .discreteInputs => m.inputs

/-- Which addresses there are in each table. -/
structure BitsLayout where
  coils : Ranges
  inputs : Ranges

def BitsLayout.table (l : BitsLayout) : EmbRbType → Ranges
  | .coils => l.coils
  | .discreteInputs => l.inputs

/-- What a request is for. -/
def flatBitsStep (l : BitsLayout) (m : FlatBits) (request : BitsRequest) : FlatBits × BitsAnswer :=
  let refused := (m, .exception (-(2 + embExceptionBase)))
  match request with
  | .readBits type a n =>
    if (l.table type).inside a.toNat n.toNat then
      (m, .bits (embReadBitsCalcAnswerDataSize n) (Mem.slice (m.table type) a.toNat n.toNat))
    else refused
  | .writeCoil a value =>
    if l.coils.inside a.toNat 1 then
      ({ m with coils := Mem.blit m.coils a.toNat [value != 0] },
        .written embWriteCoilCalcAnswerDataSize)
    else refused
  | .writeCoils a n coils =>
    if l.coils.inside a.toNat n.toNat then
      ({ m with coils := Mem.blit m.coils a.toNat (Mem.slice coils 0 n.toNat) },
        .written embWriteCoilsCalcAnswerDataSize)
    else refused

/-- The server's bits are the flat ones. -/
structure BitsLaid (l : BitsLayout) (s : ServerT) (m : FlatBits) : Prop where
  coils : Laid s.coils l.coils m.coils
  inputs : Laid s.discreteInputs l.inputs m.inputs

structure BitsFlat (l : BitsLayout) (c : SrvClient) (m : FlatBits) : Prop where
  fullSize : c.FullSize
  laid : BitsLaid l c.run.store m

def ServerT.bitsLayout (s : ServerT) : BitsLayout := ⟨rangesOf s.coils, rangesOf s.discreteInputs⟩

def ServerT.flatBits (s : ServerT) : FlatBits :=
  ⟨flatMem s.coils false, flatMem s.discreteInputs false⟩

end Emodbus
