import Emodbus.Proxy
import Emodbus.ServerT

/-!
# The bits of remote registers

Operations of `proxy_t` that a server carries out: the request is built in the transaction of the
proxy, the super server calls the handler for it, and the client takes what is sent back.
`RegStore` says when the callbacks of a server are a store of registers.
-/

namespace Emodbus

open Octets

variable {σ : Type}

/-- The server of `srv`, with the handlers for bits and registers, at this address. -/
def superServerOf (srv : EmbServer σ) (address : Byte) : EmbSuperServer σ where
  getServer := some fun addr =>
    if addr = address then
      some { srv with getFunction := some getFunction, isBroadcast := false }
    else none

/-- The transaction of the proxy and the server. -/
structure Remote (σ : Type) where
  tr : Transaction
  run : SrvRun σ

namespace Remote

variable (alloc : ℕ → Bool) (srv : EmbServer σ) (address : Byte)

/-- The super server gets the request. -/
def serve (run : SrvRun σ) (req : EmbPdu) : SrvReaction σ :=
  embSuperServerOnReceiveReq (superServerOf srv address) address.toNat
    { run with rxPdu := run.rxPdu.receive req }

/-- An operation; it returns `none` if it throws. -/
def perform (c : Remote σ) (op : ProxyOp) : Remote σ × Option ProxyResult :=
  let b := op.call.build.run alloc c.tr
  match b.1 with
  | none => (⟨b.2, c.run⟩, none)
  | some _ =>
    let reaction := serve srv address c.run b.2.req.pdu
    match reaction.sent with
    | [(_, answer)] =>
      let res := Proxy.doTransaction b.2 answer
      (⟨res.2, reaction.run⟩, if res.1 ≠ 0 then none else some (op.call.result res.2))
    | _ => (⟨b.2, reaction.run⟩, none)

end Remote

/-- In a store that shows the memory `m`, the callbacks for a register that there is read it and
write it, and leave the others. -/
structure RegStore (srv : EmbServer σ) (has : Word → Prop) (shows : σ → Mem Word → Prop) :
    Prop where
  block : ∀ s m a, shows s m → has a → ∃ (block : EmbSrvRegs σ)
    (readRegs : Word → Word → σ → Byte × List Word × σ)
    (writeRegs : Word → Word → List Word → σ → Byte × σ),
    lookUp srv.getHoldingRegs a s = .ok block
      ∧ block.readRegs = some readRegs ∧ block.writeRegs = some writeRegs
      ∧ a.toNat + 1 ≤ block.start.toNat + block.size.toNat
      ∧ readRegs (a - block.start) 1 s = (0, [m a.toNat], s)
      ∧ ∀ value, ∃ s', writeRegs (a - block.start) 1 [value] s = (0, s')
        ∧ shows s' (Mem.blit m a.toNat [value])

/-- The transaction can take a request and an answer of six bytes. -/
structure Transaction.Takes6 (alloc : ℕ → Bool) (tr : Transaction) : Prop where
  reqGrows : tr.req.Grows alloc 6
  ansGrows : tr.ans.Grows alloc 6
  reqRoom : 6 ≤ tr.req.room 6
  ansRoom : 6 ≤ tr.ans.room 6

namespace Remote

variable (alloc : ℕ → Bool) (srv : EmbServer σ) (address : Byte) (shows : σ → Mem Word → Prop)

/-- The operation returns, and the register at `a` is `value` then, the others being as in `m`. -/
def Leaves (c : Remote σ) (op : ProxyOp) (m : Mem Word) (a value : Word) : Prop :=
  ∃ c', c.perform alloc srv address op = (c', some .nothing)
    ∧ shows c'.run.store (Mem.blit m a.toNat [value])

/-- `set_bit` returns, bit `nbit` of the register is `b` then and the others are what they were, and
`get_bit` says so. -/
def SetsBit (c : Remote σ) (m : Mem Word) (a : Word) (nbit : Byte) (b : Bool) : Prop :=
  ∃ (c' : Remote σ) (y : Word),
    c.perform alloc srv address (.regSetBit a nbit b) = (c', some .nothing)
      ∧ (∀ i < 16, y.getLsbD i = if i = nbit.toNat then b else (m a.toNat).getLsbD i)
      ∧ shows c'.run.store (Mem.blit m a.toNat [y])
      ∧ (c'.perform alloc srv address (.regGetBit a nbit)).2 = some (.bit b)

/-- The operations on the bits of the register at `a` mean what they say. -/
structure BitsMean (c : Remote σ) (m : Mem Word) (a v : Word) (nbit : Byte) (b : Bool) : Prop where
  or : c.Leaves alloc srv address shows (.regOr a v.toNat) m a (m a.toNat ||| v)
  and : c.Leaves alloc srv address shows (.regAnd a v.toNat) m a (m a.toNat &&& v)
  setBit : c.SetsBit alloc srv address shows m a nbit b

end Remote

end Emodbus
