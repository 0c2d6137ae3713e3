import Emodbus.Lib.Blocks
import Emodbus.ServerBits
import Emodbus.ServerRegs

/-!
# A server made of blocks

The `server_t` of `cpp-wrap/emodbus.cpp` with the stores of `tests/server_test.cpp`: blocks of
coils, discrete inputs, holding and input registers, each a vector of `size` values.  A callback
works on the block it was found with, which is told by its place in the list.
-/

namespace Emodbus

open Octets

/-- A block with its vector, resized to `size` when it is made. -/
structure SrvBlock (α : Type) where
  start : Word
  size : Word
  values : List α
  length_values : values.length = size.toNat

namespace SrvBlock

variable {α : Type}

/-- The block with its address and size as numbers. -/
def flat (b : SrvBlock α) : Block α := ⟨b.start.toNat, b.values⟩

/-- `(start <= _begin) && (_begin <= end)`, with the `uint16_t` `end` of the lookups. -/
def contains (b : SrvBlock α) (addr : Word) : Bool :=
  b.start ≤ addr && addr ≤ b.start + b.size - 1

/-- Copies `values` over the block's own from `offset` on. -/
def put (b : SrvBlock α) (offset : Word) (values : List α) : SrvBlock α where
  start := b.start
  size := b.size
  values := overwrite b.values offset.toNat values
  length_values := by rw [length_overwrite, b.length_values]

/-- `memcpy(_pvalues, &regs_[_offset], _quantity*2)`. -/
def copyOut (b : SrvBlock α) (offset quantity : Word) : List α :=
  (b.values.drop offset.toNat).take quantity.toNat

end SrvBlock

/-- The loop of `get_coils`, `get_discrete_inputs`, `get_holding_regs` and `get_input_regs`: the
first block with the address in it, and its place. -/
def findBlock {α : Type} (blocks : List (SrvBlock α)) (addr : Word) : Option (SrvBlock α × ℕ) :=
  blocks.zipIdx.find? fun p => p.1.contains addr

/-- The block at this place, changed. -/
def changeBlock {α : Type} (blocks : List (SrvBlock α)) (place : ℕ)
    (f : SrvBlock α → SrvBlock α) : List (SrvBlock α) :=
  match blocks[place]? with
  | some b => blocks.set place (f b)
  | none => blocks

/-- What the block at this place gives. -/
def askBlock {α β : Type} (blocks : List (SrvBlock α)) (place : ℕ) (f : SrvBlock α → List β) :
    List β :=
  match blocks[place]? with
  | some b => f b
  | none => []

/-! ## The blocks as a flat memory -/

/-- First addresses and sizes of the blocks. -/
abbrev Ranges := List (ℕ × ℕ)

/-- The `n` addresses from `a` on are inside one single range. -/
def Ranges.inside (ranges : Ranges) (a n : ℕ) : Bool :=
  ranges.any fun r => decide (r.1 ≤ a) && decide (a + n ≤ r.1 + r.2)

section Flat

variable {α : Type} (blocks : List (SrvBlock α))

def rangesOf : Ranges := blocks.map fun b => (b.start.toNat, b.size.toNat)

/-- What the blocks hold at each address, and `default` where there is none. -/
def flatMem (default : α) : Mem α := fun a =>
  match findBlock blocks (BitVec.ofNat 16 a) with
  | some p => p.1.values.getD (a - p.1.start.toNat) default
  | none => default

/-- The blocks are not empty, stay inside the sixteen bits and share no address. -/
structure LaidOut : Prop where
  size_pos : ∀ b ∈ blocks, 1 ≤ b.size.toNat
  stop_le : ∀ b ∈ blocks, b.start.toNat + b.size.toNat ≤ 65536
  apart : Blocks.Apart (blocks.map SrvBlock.flat)

/-- The blocks are at these addresses and hold what the flat memory does. -/
structure Laid (ranges : Ranges) (m : Mem α) : Prop extends LaidOut blocks where
  ranges_eq : rangesOf blocks = ranges
  hold : Blocks.Hold (blocks.map SrvBlock.flat) m

end Flat

/-! ## LSB-first packing -/

/-- One byte of `n` bits: the inner loop of the packing loops. -/
def packByte (bit : ℕ → Bool) (n : ℕ) : Byte :=
  (List.range n).foldl (fun acc i => if bit i then acc ||| BitVec.ofNat 8 (1 <<< i) else acc) 0

/-- The packing loop from byte `byte` on with `quantity` bits to go.  Every turn takes a bit at
least, so `quantity` is fuel enough. -/
def packLoop (bit : ℕ → Bool) : (fuel byte quantity : ℕ) → List Byte
  | 0, _, _ => []
  | fuel + 1, byte, quantity =>
    if quantity = 0 then []
    else
      let nBits := min 8 quantity
      packByte (fun i => bit (byte * 8 + i)) nBits
        :: packLoop bit fuel (byte + 1) (quantity - nBits)

/-- The unpacking loop: the first `nBits` bits of `value` to `values`, from `place` on. -/
def unpackByte (value : Byte) (place nBits : ℕ) (values : List Bool) : List Bool :=
  (List.range nBits).foldl
    (fun vs i => vs.set (place + i) (value &&& BitVec.ofNat 8 (1 <<< i) != 0)) values

/-- The unpacking loop from byte `byte` on with `quantity` bits to go. -/
def unpackLoop (pvalues : List Byte) (offset : ℕ) :
    (fuel byte quantity : ℕ) → List Bool → List Bool
  | 0, _, _, values => values
  | fuel + 1, byte, quantity, values =>
    if quantity = 0 then values
    else
      let nBits := min 8 quantity
      let values := unpackByte (pvalues.getD byte 0) (offset + byte * 8) nBits values
      unpackLoop pvalues offset fuel (byte + 1) (quantity - nBits) values

@[simp] theorem length_unpackByte (value : Byte) (place nBits : ℕ) (values : List Bool) :
    (unpackByte value place nBits values).length = values.length := by
  unfold unpackByte
  induction nBits with
  | zero => rfl
  | succ n ih => rw [List.range_succ, List.foldl_append, List.foldl_cons, List.foldl_nil,
      List.length_set, ih]

@[simp] theorem length_unpackLoop (pvalues : List Byte) (offset fuel byte quantity : ℕ)
    (values : List Bool) :
    (unpackLoop pvalues offset fuel byte quantity values).length = values.length := by
  induction fuel generalizing byte quantity values with
  | zero => rfl
  | succ fuel ih =>
    unfold unpackLoop
    split_ifs
    · rfl
    · rw [ih, length_unpackByte]

namespace SrvBlock

/-- `my_coils_t::on_read_coils`, and `my_discrete_inputs_t::on_read_bits`. -/
def onReadCoils (b : SrvBlock Bool) (offset quantity : Word) : List Byte :=
  packLoop (fun i => b.values.getD (offset.toNat + i) false) quantity.toNat 0 quantity.toNat

/-- `my_coils_t::on_write_coils`. -/
def onWriteCoils (b : SrvBlock Bool) (offset quantity : Word) (pvalues : List Byte) :
    SrvBlock Bool where
  start := b.start
  size := b.size
  values := unpackLoop pvalues offset.toNat quantity.toNat 0 quantity.toNat b.values
  length_values := by rw [length_unpackLoop, b.length_values]

/-- `my_holdings_t::on_read_regs`, and `my_input_regs_t::on_read_regs`. -/
def onReadRegs (b : SrvBlock Word) (offset quantity : Word) : List Word :=
  b.copyOut offset quantity

/-- `my_holdings_t::on_write_regs`. -/
def onWriteRegs (b : SrvBlock Word) (offset quantity : Word) (pvalues : List Word) :
    SrvBlock Word := b.put offset (pvalues.take quantity.toNat)

end SrvBlock

/-! ## server_t -/

/-- The blocks of a `server_t`. -/
structure ServerT where
  coils : List (SrvBlock Bool)
  discreteInputs : List (SrvBlock Bool)
  holdings : List (SrvBlock Word)
  inputRegs : List (SrvBlock Word)

namespace ServerT

/-- A block of coils, as the handlers get it: `(block, place)`. -/
def coilsOf (p : SrvBlock Bool × ℕ) : EmbSrvBits ServerT where
  start := p.1.start
  size := p.1.size
  readBits := some fun offset quantity s =>
    (0, askBlock s.coils p.2 (·.onReadCoils offset quantity), s)
  writeBits := some fun offset quantity values s =>
    (0, { s with coils := changeBlock s.coils p.2 (·.onWriteCoils offset quantity values) })

def discreteInputsOf (p : SrvBlock Bool × ℕ) : EmbSrvBits ServerT where
  start := p.1.start
  size := p.1.size
  readBits := some fun offset quantity s =>
    (0, askBlock s.discreteInputs p.2 (·.onReadCoils offset quantity), s)
  writeBits := none

def holdingsOf (p : SrvBlock Word × ℕ) : EmbSrvRegs ServerT where
  start := p.1.start
  size := p.1.size
  readRegs := some fun offset quantity s =>
    (0, askBlock s.holdings p.2 (·.onReadRegs offset quantity), s)
  writeRegs := some fun offset quantity values s =>
    (0, { s with holdings := changeBlock s.holdings p.2 (·.onWriteRegs offset quantity values) })

def inputRegsOf (p : SrvBlock Word × ℕ) : EmbSrvRegs ServerT where
  start := p.1.start
  size := p.1.size
  readRegs := some fun offset quantity s =>
    (0, askBlock s.inputRegs p.2 (·.onReadRegs offset quantity), s)
  writeRegs := none

/-- `server_t::get_coils`. -/
def getCoils (addr : Word) (s : ServerT) : Option (EmbSrvBits ServerT) :=
  (findBlock s.coils addr).map coilsOf

/-- `server_t::get_discrete_inputs`. -/
def getDiscreteInputs (addr : Word) (s : ServerT) : Option (EmbSrvBits ServerT) :=
  (findBlock s.discreteInputs addr).map discreteInputsOf

/-- `server_t::get_holding_regs`. -/
def getHoldingRegs (addr : Word) (s : ServerT) : Option (EmbSrvRegs ServerT) :=
  (findBlock s.holdings addr).map holdingsOf

/-- `server_t::get_input_regs`. -/
def getInputRegs (addr : Word) (s : ServerT) : Option (EmbSrvRegs ServerT) :=
  (findBlock s.inputRegs addr).map inputRegsOf

end ServerT

/-! ## The functions -/

section SameMax

variable {σ : Type} (srv : EmbServer σ) (r : SrvRun σ)

theorem embSrvReadBits_sameMax : (embSrvReadBits srv r).2.SameMax r := by
  unfold embSrvReadBits
  dsimp only
  repeat' split
  all_goals exact ⟨rfl, rfl⟩

theorem embSrvWriteCoil_sameMax : (embSrvWriteCoil srv r).2.SameMax r := by
  unfold embSrvWriteCoil
  dsimp only
  repeat' split
  all_goals exact ⟨rfl, rfl⟩

theorem embSrvWriteCoils_sameMax : (embSrvWriteCoils srv r).2.SameMax r := by
  unfold embSrvWriteCoils
  dsimp only
  repeat' split
  all_goals exact ⟨rfl, rfl⟩

theorem embSrvReadRegs_sameMax : (embSrvReadRegs srv r).2.SameMax r := by
  unfold embSrvReadRegs
  dsimp only
  repeat' split
  all_goals exact ⟨rfl, rfl⟩

theorem embSrvWriteReg_sameMax : (embSrvWriteReg srv r).2.SameMax r := by
  unfold embSrvWriteReg
  dsimp only
  repeat' split
  all_goals exact ⟨rfl, rfl⟩

theorem embSrvWriteRegs_sameMax : (embSrvWriteRegs srv r).2.SameMax r := by
  unfold embSrvWriteRegs
  dsimp only
  repeat' split
  all_goals exact ⟨rfl, rfl⟩

theorem embSrvMaskReg_sameMax : (embSrvMaskReg srv r).2.SameMax r := by
  unfold embSrvMaskReg
  dsimp only
  repeat' split
  all_goals exact ⟨rfl, rfl⟩

theorem embSrvReadWriteRegs_sameMax : (embSrvReadWriteRegs srv r).2.SameMax r := by
  unfold embSrvReadWriteRegs writeThenRead
  dsimp only
  repeat' split
  all_goals exact ⟨rfl, rfl⟩

end SameMax

/-- What `get_function` finds after the `add_function` calls of `my_server_t` for bits and
registers. -/
def getFunction {σ : Type} (func : Byte) : Option (EmbSrvFunction σ) :=
  if func = 0x01 ∨ func = 0x02 then some ⟨embSrvReadBits, embSrvReadBits_sameMax⟩
  else if func = 0x05 then some ⟨embSrvWriteCoil, embSrvWriteCoil_sameMax⟩
  else if func = 0x0F then some ⟨embSrvWriteCoils, embSrvWriteCoils_sameMax⟩
  else if func = 0x03 ∨ func = 0x04 then some ⟨embSrvReadRegs, embSrvReadRegs_sameMax⟩
  else if func = 0x06 then some ⟨embSrvWriteReg, embSrvWriteReg_sameMax⟩
  else if func = 0x10 then some ⟨embSrvWriteRegs, embSrvWriteRegs_sameMax⟩
  else if func = 0x16 then some ⟨embSrvMaskReg, embSrvMaskReg_sameMax⟩
  else if func = 0x17 then some ⟨embSrvReadWriteRegs, embSrvReadWriteRegs_sameMax⟩
  else none

/-- The callbacks of a `server_t`, files and FIFOs aside. -/
def serverT : EmbServerEntry ServerT where
  getCoils := some ServerT.getCoils
  getDiscreteInputs := some ServerT.getDiscreteInputs
  getHoldingRegs := some ServerT.getHoldingRegs
  getInputRegs := some ServerT.getInputRegs
  getFile := none
  readFifo := none
  getFunction := some getFunction
  isBroadcast := false

/-- A super server with one server at this address. -/
def superServerT (address : Byte) : EmbSuperServer ServerT where
  getServer := some fun addr => if addr = address then some serverT else none

end Emodbus
