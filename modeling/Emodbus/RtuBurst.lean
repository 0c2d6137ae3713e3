import Emodbus.Rtu

/-!
# A burst of bytes between two silences

The port keeps the bytes that have arrived, and every `emb_rtu_data_received_event` gets as many of
them as it asks for.  `handed` is everything it has got since the first of the two timeouts.
-/

namespace Emodbus

open Octets

structure Burst where
  mbt : EmbRtu
  waiting : List Byte
  handed : List Byte

inductive BurstInput
  | arrive (bytes : List Byte)
  | dataReceived

/-- Bytes arrive at the port, or the receiver is told of them. -/
def burstStep (b : Burst) : BurstInput → Burst × List RtuOut
  | .arrive bytes => ({ b with waiting := b.waiting ++ bytes }, [])
  | .dataReceived =>
    let size := (b.mbt.rxBufSize - b.mbt.rxBufCounter).toNat
    let r := embRtuPortEvent b.mbt (.dataReceived (.upTo b.waiting))
    ({ mbt := r.1
       waiting := b.waiting.drop size
       handed := b.handed ++ b.waiting.take size }, r.2)

/-- The bytes of a burst: those read in front of the last read that got nothing, those read since,
and those still waiting. -/
structure Gathered where
  lost : List Byte
  kept : List Byte
  waiting : List Byte

/-- A read that gets nothing, because nothing waits or the buffer of `size` bytes is full, makes the
receiver forget what it has. -/
def Gathered.step (size : ℕ) (g : Gathered) : BurstInput → Gathered
  | .arrive bytes => { g with waiting := g.waiting ++ bytes }
  | .dataReceived =>
    let got := g.waiting.take (size - g.kept.length)
    if got = [] then { g with lost := g.lost ++ g.kept, kept := [] }
    else
      { g with
        kept := g.kept ++ got
        waiting := g.waiting.drop (size - g.kept.length) }

def gather (size : ℕ) (waiting : List Byte) (ins : List BurstInput) : Gathered :=
  ins.foldl (Gathered.step size) ⟨[], [], waiting⟩

/-- The bytes of a packet. -/
def rtuBytes (addr function : Byte) (data : List Byte) : List Byte :=
  (addr :: function :: data) ++ Mem.le [crcOf (addr :: function :: data)]

/-- The bytes are a packet that the PDU of the high level has room for. -/
def RtuAccepts (rxPdu : Option EmbPdu) (bytes : List Byte) : Prop :=
  ∃ p addr function data, rxPdu = some p ∧ bytes = rtuBytes addr function data
    ∧ data.length ≤ p.maxSize.toNat

/-- What the high level is given is the decoding of these bytes. -/
def RtuDecoded (bytes : List Byte) (addr : ℤ) (pdu : EmbPdu) : Prop :=
  ∃ a : Byte, addr = a.toNat ∧ bytes = rtuBytes a pdu.function pdu.bytes

end Emodbus
