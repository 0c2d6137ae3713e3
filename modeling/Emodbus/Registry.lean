import Emodbus.Lib.Lookup
import Emodbus.Lib.Mealy
import Emodbus.ServerT

/-!
# The blocks of a server

The tables of the `server_t` of `cpp-wrap/emodbus.cpp`, with the blocks' callbacks left open: the
`add_*` functions, which refuse a block whose range crosses that of another, and the lookups
`get_*`.
-/

namespace Emodbus

open Octets Mealy

/-- What `struct emb_srv_bits_t` and `struct emb_srv_regs_t` begin with. -/
class AddrRange (β : Type) where
  start : β → Word
  size : β → Word

instance {σ : Type} : AddrRange (EmbSrvBits σ) := ⟨EmbSrvBits.start, EmbSrvBits.size⟩

instance {σ : Type} : AddrRange (EmbSrvRegs σ) := ⟨EmbSrvRegs.start, EmbSrvRegs.size⟩

instance {α : Type} : AddrRange (SrvBlock α) := ⟨SrvBlock.start, SrvBlock.size⟩

/-- `IS_POINT_IN_RANGE`. -/
def isPointInRange (rangeStart rangeEnd point : ℕ) : Bool :=
  decide (rangeStart < point) && decide (point < rangeEnd)

/-- `emb_is_ranges_cross`.  The ends are `uint32_t`. -/
def embIsRangesCross (start1 size1 start2 size2 : Word) : Bool :=
  let end1 := start1.toNat + size1.toNat
  let end2 := start2.toNat + size2.toNat
  isPointInRange start1.toNat end1 start2.toNat || isPointInRange start1.toNat end1 end2
    || isPointInRange start2.toNat end2 start1.toNat || isPointInRange start2.toNat end2 end1

section Table

variable {β : Type} [AddrRange β]

open AddrRange

/-- `add_coils`, `add_discrete_inputs`, `add_holding_regs` and `add_input_regs`, on the vector each
works on. -/
def addBlock (blocks : List β) (block : β) : List β × Bool :=
  if blocks.any fun i => embIsRangesCross (start i) (size i) (start block) (size block) then
    (blocks, false)
  else (blocks ++ [block], true)

/-- `(start <= _begin) && (_begin <= end)`, with a `uint16_t` `end`. -/
def inBlock (block : β) (addr : Word) : Bool :=
  decide (start block ≤ addr) && decide (addr ≤ start block + size block - 1)

/-- The loop of `get_coils`, `get_discrete_inputs`, `get_holding_regs` and `get_input_regs`. -/
def getBlock (blocks : List β) (addr : Word) : Option β := blocks.find? fun i => inBlock i addr

/-- The blocks added one after the other to an empty vector. -/
def addAll (blocks : List β) : List β := blocks.foldl (fun bs b => (addBlock bs b).1) []

/-- The addresses a block is there for. -/
def addresses (block : β) : Set ℕ :=
  Set.Ico (start block).toNat ((start block).toNat + (size block).toNat)

/-- The range of a block does not reach beyond the sixteen bits. -/
def FitsSpace (block : β) : Prop := (start block).toNat + (size block).toNat ≤ 65536

/-- A lookup is right about the blocks that were accepted. -/
structure Exact (accepted : List β) (lookup : Word → Option β) : Prop where
  apart : accepted.Pairwise fun b b' => Disjoint (addresses b) (addresses b')
  found : ∀ addr block, lookup addr = some block →
    block ∈ accepted ∧ addr.toNat ∈ addresses block
  missed : ∀ addr, lookup addr = none → ∀ block ∈ accepted, addr.toNat ∉ addresses block
  order : ∀ blocks, blocks.Perm accepted → ∀ addr, getBlock (addAll blocks) addr = lookup addr

/-- A block that a table can take: not the empty one at address zero, and none whose range a block
of the table has already. -/
def Addable (blocks : List β) (block : β) : Prop :=
  ¬ (start block = 0 ∧ size block = 0)
    ∧ (size block ≠ 0 → ∀ b ∈ blocks, ¬ (start b = start block ∧ size b = size block))

end Table

/-! ## server_t -/

/-- The vectors of a `server_t`. -/
structure ServerTables (σ : Type) where
  coils : List (EmbSrvBits σ)
  discreteInputs : List (EmbSrvBits σ)
  holdings : List (EmbSrvRegs σ)
  inputRegs : List (EmbSrvRegs σ)
  files : List (EmbSrvFile σ)

/-- A call of one of the functions that add. -/
inductive AddCall (σ : Type)
  | coils (block : EmbSrvBits σ)
  | discreteInputs (block : EmbSrvBits σ)
  | holdingRegs (block : EmbSrvRegs σ)
  | inputRegs (block : EmbSrvRegs σ)
  | file (file : EmbSrvFile σ)

namespace ServerTables

variable {σ : Type}

/-- A `server_t` as it is made. -/
def empty : ServerTables σ := ⟨[], [], [], [], []⟩

/-- `server_t::add_coils`. -/
def addCoils (t : ServerTables σ) (block : EmbSrvBits σ) : ServerTables σ × Bool :=
  ({ t with coils := (addBlock t.coils block).1 }, (addBlock t.coils block).2)

/-- `server_t::add_discrete_inputs`. -/
def addDiscreteInputs (t : ServerTables σ) (block : EmbSrvBits σ) : ServerTables σ × Bool :=
  ({ t with discreteInputs := (addBlock t.discreteInputs block).1 },
    (addBlock t.discreteInputs block).2)

/-- `server_t::add_holding_regs`. -/
def addHoldingRegs (t : ServerTables σ) (block : EmbSrvRegs σ) : ServerTables σ × Bool :=
  ({ t with holdings := (addBlock t.holdings block).1 }, (addBlock t.holdings block).2)

/-- `server_t::add_input_regs`. -/
def addInputRegs (t : ServerTables σ) (block : EmbSrvRegs σ) : ServerTables σ × Bool :=
  ({ t with inputRegs := (addBlock t.inputRegs block).1 }, (addBlock t.inputRegs block).2)

/-- `server_t::add_file`. -/
def addFile (t : ServerTables σ) (file : EmbSrvFile σ) : ServerTables σ × Bool :=
  if t.files.any fun i => i.fileno == file.fileno then (t, false)
  else ({ t with files := t.files ++ [file] }, true)

/-- `server_t::get_coils`. -/
def getCoils (t : ServerTables σ) (addr : Word) : Option (EmbSrvBits σ) := getBlock t.coils addr

/-- `server_t::get_discrete_inputs`. -/
def getDiscreteInputs (t : ServerTables σ) (addr : Word) : Option (EmbSrvBits σ) :=
  getBlock t.discreteInputs addr

/-- `server_t::get_holding_regs`. -/
def getHoldingRegs (t : ServerTables σ) (addr : Word) : Option (EmbSrvRegs σ) :=
  getBlock t.holdings addr

/-- `server_t::get_input_regs`. -/
def getInputRegs (t : ServerTables σ) (addr : Word) : Option (EmbSrvRegs σ) :=
  getBlock t.inputRegs addr

/-- `server_t::get_file`. -/
def getFile (t : ServerTables σ) (fileno : Word) : Option (EmbSrvFile σ) :=
  t.files.find? fun i => i.fileno == fileno

/-- One call of a function that adds. -/
def add (t : ServerTables σ) : AddCall σ → ServerTables σ × Bool
  | .coils block => t.addCoils block
  | .discreteInputs block => t.addDiscreteInputs block
  | .holdingRegs block => t.addHoldingRegs block
  | .inputRegs block => t.addInputRegs block
  | .file file => t.addFile file

/-- The callbacks of a `server_t`: the tables stay as they are while requests are answered. -/
def server (t : ServerTables σ) (readFifo : Option (Word → σ → Byte × List Word × Byte × σ)) :
    EmbServer σ where
  getCoils := some fun addr _ => t.getCoils addr
  getDiscreteInputs := some fun addr _ => t.getDiscreteInputs addr
  getHoldingRegs := some fun addr _ => t.getHoldingRegs addr
  getInputRegs := some fun addr _ => t.getInputRegs addr
  getFile := some fun fileno _ => t.getFile fileno
  readFifo := readFifo

end ServerTables

namespace AddCall

variable {σ : Type}

def Fits : AddCall σ → Prop
  | .coils block => FitsSpace block
  | .discreteInputs block => FitsSpace block
  | .holdingRegs block => FitsSpace block
  | .inputRegs block => FitsSpace block
  | .file _ => True

/-- The table of the call can take its block. -/
def Sound (t : ServerTables σ) : AddCall σ → Prop
  | .coils block => Addable t.coils block
  | .discreteInputs block => Addable t.discreteInputs block
  | .holdingRegs block => Addable t.holdings block
  | .inputRegs block => Addable t.inputRegs block
  | .file _ => True

/-- The blocks for which a call returned true. -/
def accepted {β : Type} (block : AddCall σ → Option β) (log : List (AddCall σ × Bool)) : List β :=
  log.filterMap fun p => if p.2 then block p.1 else none

def coils? : AddCall σ → Option (EmbSrvBits σ)
  | .coils block => some block
  | _ => none

def discreteInputs? : AddCall σ → Option (EmbSrvBits σ)
  | .discreteInputs block => some block
  | _ => none

def holdingRegs? : AddCall σ → Option (EmbSrvRegs σ)
  | .holdingRegs block => some block
  | _ => none

def inputRegs? : AddCall σ → Option (EmbSrvRegs σ)
  | .inputRegs block => some block
  | _ => none

end AddCall

/-- All four lookups are right about the blocks for which the calls of the log returned true. -/
structure ServerTables.ExactFor {σ : Type} (t : ServerTables σ) (log : List (AddCall σ × Bool)) :
    Prop where
  coils : Exact (AddCall.accepted AddCall.coils? log) t.getCoils
  discreteInputs : Exact (AddCall.accepted AddCall.discreteInputs? log) t.getDiscreteInputs
  holdingRegs : Exact (AddCall.accepted AddCall.holdingRegs? log) t.getHoldingRegs
  inputRegs : Exact (AddCall.accepted AddCall.inputRegs? log) t.getInputRegs

/-- A `server_t` after these calls, and what each of them returned. -/
def registered {σ : Type} (calls : List (AddCall σ)) : ServerTables σ × List Bool :=
  run ServerTables.add ServerTables.empty calls

/-! ## Calls of the blocks' callbacks -/

/-- The block of the call has an address. -/
def AddCall.Occupied {σ : Type} : AddCall σ → Prop
  | .coils block => 1 ≤ block.size.toNat
  | .discreteInputs block => 1 ≤ block.size.toNat
  | .holdingRegs block => 1 ≤ block.size.toNat
  | .inputRegs block => 1 ≤ block.size.toNat
  | .file _ => True

/-- The address a request reads from. -/
def EmbPdu.readAddr (req : EmbPdu) : Word := getBigEnd16 req.data 0

/-- The address a request writes to. -/
def EmbPdu.writeAddr (req : EmbPdu) : Word :=
  if req.function = 0x17 then getBigEnd16 req.data 4 else getBigEnd16 req.data 0

/-- The addresses from `addr` on, as many as `quantity`, are those from `offset` on of a block at
`start`, and the block has them. -/
structure WithinBlock (start size offset quantity addr : Word) : Prop where
  pos : 1 ≤ quantity.toNat
  fits : offset.toNat + quantity.toNat ≤ size.toNat
  addr : start.toNat + offset.toNat = addr.toNat

/-- A call of a block's callback for the request `req`, in a response of `maxSize` bytes. -/
def StoreCall.InRange {σ : Type} (t : ServerTables σ) (req : EmbPdu) (maxSize : ℕ) :
    StoreCall → Prop
  | .readBits start size offset quantity out =>
    (∃ b ∈ t.coils ++ t.discreteInputs, b.start = start ∧ b.size = size)
      ∧ WithinBlock start size offset quantity req.readAddr
      ∧ out = 1 ∧ 1 + (quantity.toNat + 7) / 8 ≤ maxSize
  | .writeBits start size offset quantity _ =>
    (∃ b ∈ t.coils, b.start = start ∧ b.size = size)
      ∧ WithinBlock start size offset quantity req.writeAddr
  | .readRegs start size offset quantity out =>
    (∃ b ∈ t.holdings ++ t.inputRegs, b.start = start ∧ b.size = size)
      ∧ WithinBlock start size offset quantity req.readAddr
      ∧ match out with
        | some out => out = 1 ∧ 1 + 2 * quantity.toNat ≤ maxSize
        | none => quantity = 1
  | .writeRegs start size offset quantity values =>
    (∃ b ∈ t.holdings, b.start = start ∧ b.size = size)
      ∧ WithinBlock start size offset quantity req.writeAddr ∧ values.length = quantity.toNat
  | _ => False

/-- A super server with one server at this address, for bits and registers. -/
def ServerTables.superServer {σ : Type} (t : ServerTables σ)
    (readFifo : Option (Word → σ → Byte × List Word × Byte × σ)) (isBroadcast : Bool)
    (address : Byte) : EmbSuperServer σ where
  getServer := some fun addr =>
    if addr = address then
      some { t.server readFifo with getFunction := some getFunction, isBroadcast := isBroadcast }
    else none

end Emodbus
