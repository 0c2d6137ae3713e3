import Emodbus.Rtu
import Emodbus.TcpRun

/-!
# Runs of the RTU transport

Port events and char timeouts, the two resets, and what the high level does in between: sending,
setting `rx_pdu`, anything that leaves the receiver's own fields alone.
-/

namespace Emodbus

/-- The fields only the receiver writes, and its buffer's size, are the same. -/
structure RtuSameRx (s s' : EmbRtu) : Prop where
  buffer : s.rxBuffer = s'.rxBuffer
  size : s.rxBufSize = s'.rxBufSize
  counter : s.rxBufCounter = s'.rxBufCounter

/-- A step of the high level. -/
structure RtuHighStep where
  apply : EmbRtu → EmbRtu
  sameRx : ∀ s, RtuSameRx (apply s) s

inductive RtuCall
  | input (i : RtuInput)
  | resetRx
  | resetTx
  | high (f : RtuHighStep)

def rtuCallStep (mbt : EmbRtu) : RtuCall → EmbRtu × List RtuOut
  | .input i => rtuStep mbt i
  | .resetRx => (emdRtuResetRx mbt, [])
  | .resetTx => (emdRtuResetTx mbt, [])
  | .high f => (f.apply mbt, [])

/-! ## What is asked of the port -/

/-- A read asks for no byte behind a buffer of this size. -/
def RtuOut.ReadsWithin (bufSize : ℕ) : RtuOut → Prop
  | .readFromPort start size => start + size ≤ bufSize
  | _ => True

/-- A read asks for no byte behind a buffer of this size. -/
def TcpOut.ReadsWithin {ι : Type} (bufSize : ℕ) : TcpOut ι → Prop
  | .readFromPort start size => start + size ≤ bufSize
  | _ => True

end Emodbus
