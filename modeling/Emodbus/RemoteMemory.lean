import Emodbus.BitsRun
import Emodbus.Proxy

/-!
# Registers and bits from afar

Proxies and the server they talk to: the request of an operation is built in the transaction of its
proxy, received and answered by the server of `ServerT`, and the answer is what the operation
returns its result from.  `FlatMemory` is what that is for: the operations as they would be on a
memory at hand.
-/

namespace Emodbus

open Octets

/-- The operation is on registers or bits, not on files or a FIFO. -/
def ProxyOp.onMemory : ProxyOp → Bool
  | readFile _ | writeFile _ | readFifo _ => false
  | _ => true

abbrev MemoryOp := { op : ProxyOp // op.onMemory = true }

/-- The proxies' transactions, and the server. -/
structure RemoteMemory where
  proxies : ℕ → Transaction
  run : SrvRun ServerT

namespace RemoteMemory

/-- New proxies, and a server that has not received anything. -/
def fresh (function : Byte × Byte) (store : ServerT) : RemoteMemory :=
  let pdu : EmbPdu := ⟨0, 0, 253, fun _ => 0⟩
  ⟨fun _ => Proxy.fresh function, ⟨pdu, pdu, store, []⟩⟩

/-- The server with this request in its PDU. -/
def received (s : RemoteMemory) (req : EmbPdu) : SrvRun ServerT :=
  { s.run with rxPdu := s.run.rxPdu.receive req }

/-- An operation of one of the proxies.  It throws (`none`) if a buffer cannot be resized, if the
server does not answer, and if the client does not take the answer. -/
def step (address : Byte) (alloc : ℕ → Bool) (s : RemoteMemory) (i : ℕ × MemoryOp) :
    RemoteMemory × Option ProxyResult :=
  let call := i.2.1.call
  let b := call.build.run alloc (s.proxies i.1)
  match b.1 with
  | none => (⟨Function.update s.proxies i.1 b.2, s.run⟩, none)
  | some _ =>
    let reaction := embSuperServerOnReceiveReq (superServerT address) address.toNat
      (s.received b.2.req.pdu)
    match reaction.sent with
    | [(_, answer)] =>
      let res := Proxy.doTransaction b.2 answer
      (⟨Function.update s.proxies i.1 res.2, reaction.run⟩,
        if res.1 ≠ 0 then none else some (call.result res.2))
    | _ => (⟨Function.update s.proxies i.1 b.2, reaction.run⟩, none)

end RemoteMemory

/-! ## The memory at hand -/

structure MemoryLayout where
  regs : RegsLayout
  bits : BitsLayout

structure FlatMemory where
  regs : FlatRegs
  bits : FlatBits

namespace FlatMemory

variable (l : MemoryLayout) (m : FlatMemory)

/-- What `f` makes of `n` holding registers. -/
def holdings (a : Word) (n : ℕ) (f : List Word → ProxyResult) : FlatMemory × Option ProxyResult :=
  (m, if l.regs.holdings.inside a.toNat n then some (f (Mem.slice m.regs.holdings a.toNat n))
    else none)

/-- These values to the holding registers. -/
def write (a : Word) (values : List Word) : FlatMemory × Option ProxyResult :=
  if l.regs.holdings.inside a.toNat values.length then
    ({ m with regs.holdings := Mem.blit m.regs.holdings a.toNat values }, some .nothing)
  else (m, none)

/-- One holding register changed. -/
def modify (a : Word) (f : Word → Word) : FlatMemory × Option ProxyResult :=
  m.write l a [f (m.regs.holdings a.toNat)]

/-- The operations.  As in the source, `&=` clears the bits of its argument. -/
def apply : ProxyOp → FlatMemory × Option ProxyResult
  | .readDiscreteInputs a n =>
    (m, if l.bits.inputs.inside a.toNat n.toNat then
        some (.bits (Mem.slice m.bits.inputs a.toNat n.toNat))
      else none)
  | .readCoils a n =>
    (m, if l.bits.coils.inside a.toNat n.toNat then
        some (.bits (Mem.slice m.bits.coils a.toNat n.toNat))
      else none)
  | .writeCoil a value =>
    if l.bits.coils.inside a.toNat 1 then
      ({ m with bits.coils := Mem.blit m.bits.coils a.toNat [value] }, some .nothing)
    else (m, none)
  | .readInputRegs a n =>
    (m, if l.regs.inputs.inside a.toNat n.toNat then
        some (.regs (Mem.slice m.regs.inputs a.toNat n.toNat))
      else none)
  | .readHoldings a n => m.holdings l a n.toNat .regs
  | .writeHolding a value => m.write l a [value]
  | .writeHoldings a values | .regAssignRegs a values | .rangeAssign a _ values =>
    m.write l a values
  | .readWriteHoldings ra rn wa values =>
    if l.regs.holdings.inside wa.toNat values.length ∧ l.regs.holdings.inside ra.toNat rn.toNat then
      let written := Mem.blit m.regs.holdings wa.toNat values
      ({ m with regs.holdings := written }, some (.regs (Mem.slice written ra.toNat rn.toNat)))
    else (m, none)
  | .regInt a => m.holdings l a 1 fun values => .reg (values.headD 0)
  | .regAssign a v => m.write l a [BitVec.ofInt 16 v]
  | .regOr a v => m.modify l a fun x => x ||| BitVec.ofInt 16 v
  | .regAnd a v => m.modify l a fun x => x &&& ~~~BitVec.ofInt 16 v
  | .regFloat a => m.holdings l a 2 .float
  | .regAssignFloat a first second => m.write l a [first, second]
  | .regSetBit a nbit value =>
    let mask := BitVec.ofNat 16 (1 <<< nbit.toNat)
    m.modify l a fun x => if value then x ||| mask else x &&& ~~~mask
  | .regGetBit a nbit => m.holdings l a 1 fun values => .bit ((values.headD 0).getLsbD nbit.toNat)
  | .rangeRegs a b => m.holdings l a (b.toNat - a.toNat + 1) .regs
  | .readFile _ | .writeFile _ | .readFifo _ => (m, none)

/-- Whose operation it is makes no difference. -/
def step (l : MemoryLayout) (m : FlatMemory) (i : ℕ × MemoryOp) :
    FlatMemory × Option ProxyResult := m.apply l i.2

end FlatMemory

/-- The server's blocks are the flat memory. -/
structure MemoryLaid (l : MemoryLayout) (s : ServerT) (m : FlatMemory) : Prop where
  regs : RegsLaid l.regs s m.regs
  bits : BitsLaid l.bits s m.bits

/-- The blocks of each table are laid out well. -/
structure ServerT.WellLaid (s : ServerT) : Prop where
  coils : LaidOut s.coils
  discreteInputs : LaidOut s.discreteInputs
  holdings : LaidOut s.holdings
  inputRegs : LaidOut s.inputRegs

def ServerT.memoryLayout (s : ServerT) : MemoryLayout := ⟨s.regsLayout, s.bitsLayout⟩

def ServerT.flatMemory (s : ServerT) : FlatMemory := ⟨s.flatRegs, s.flatBits⟩

end Emodbus
