import Emodbus.ServerFile
import Emodbus.ServerT

/-!
# The response that a request implies

A server with a handler for every function except the reading of files, and for each of these
functions what the PDU looks like that answers it.
-/

namespace Emodbus

open Octets

variable {σ : Type}

/-- A response that begins with the number of its other bytes. -/
structure Counted (pdu : EmbPdu) (function : Byte) (count : ℕ) : Prop where
  function : pdu.function = function
  dataSize : pdu.dataSize.toNat = 1 + count
  count : (pdu.data 0).toNat = count

/-- A response with as many registers as `fifo_count` says. -/
structure FifoCounted (pdu : EmbPdu) (fifoCount : ℕ) : Prop where
  function : pdu.function = 0x18
  dataSize : pdu.dataSize.toNat = 4 + 2 * fifoCount
  byteCount : (getBigEnd16 pdu.data 0).toNat = 2 + 2 * fifoCount
  fifoCount : (getBigEnd16 pdu.data 2).toNat = fifoCount

/-- A response of the form that the request implies, and for a FIFO the number that its callback
gave. -/
inductive Implied (req : EmbPdu) (fifoCount : ℕ) (pdu : EmbPdu) : Prop
  | bits (function : req.function = 0x01 ∨ req.function = 0x02)
    (counted : Counted pdu req.function (((getBigEnd16 req.data 2).toNat + 7) / 8))
  | regs (function : req.function = 0x03 ∨ req.function = 0x04 ∨ req.function = 0x17)
    (counted : Counted pdu req.function ((getBigEnd16 req.data 2).toNat * 2))
  | echo (function : req.function = 0x05 ∨ req.function = 0x06 ∨ req.function = 0x0F
      ∨ req.function = 0x10)
    (carries : pdu.Carries req.function (Mem.slice req.data 0 4))
  | mask (function : req.function = 0x16)
    (carries : pdu.Carries req.function (Mem.slice req.data 0 6))
  | file (function : req.function = 0x15) (carries : pdu.Carries req.function req.bytes)
  | fifo (function : req.function = 0x18) (counted : FifoCounted pdu fifoCount)

/-- The count that the FIFO callback of the server gives for the request. -/
def EmbServer.fifoCount (srv : EmbServer σ) (r : SrvRun σ) : ℕ :=
  match srv.readFifo with
  | none => 0
  | some readFifo => (readFifo (getBigEnd16 r.rxPdu.data 0) r.store).2.2.1.toNat

/-! ## The handlers for files and FIFOs among the functions -/

section SameMax

variable (srv : EmbServer σ)

theorem writeFileSub_sameMax (stop pos : ℕ) (r : SrvRun σ) :
    (writeFileSub srv stop pos r).2.SameMax r := by
  unfold writeFileSub
  dsimp only
  repeat' split
  all_goals exact ⟨rfl, rfl⟩

theorem writeFileLoop_sameMax (stop fuel pos : ℕ) (r : SrvRun σ) :
    (writeFileLoop srv stop fuel pos r).2.SameMax r := by
  induction fuel generalizing pos r with
  | zero => exact ⟨rfl, rfl⟩
  | succ fuel ih =>
    unfold writeFileLoop
    split_ifs
    · have hsub := writeFileSub_sameMax srv stop pos r
      generalize writeFileSub srv stop pos r = res at hsub
      obtain ⟨code | next, r'⟩ := res
      · exact hsub
      · have hrest := ih next r'
        exact ⟨hrest.rx.trans hsub.rx, hrest.tx.trans hsub.tx⟩
    · exact ⟨rfl, rfl⟩

theorem embSrvWriteFile_sameMax (r : SrvRun σ) : (embSrvWriteFile srv r).2.SameMax r := by
  unfold embSrvWriteFile
  dsimp only
  split_ifs
  · exact ⟨rfl, rfl⟩
  · exact ⟨rfl, rfl⟩
  · have hloop := writeFileLoop_sameMax srv r.rxPdu.dataSize.toNat r.rxPdu.dataSize.toNat 1
      { r with txPdu := { r.txPdu with
        function := 0x15
        dataSize := r.rxPdu.dataSize
        data := Mem.copy r.txPdu.data r.rxPdu.data r.rxPdu.dataSize.toNat } }
    exact ⟨hloop.rx, hloop.tx⟩

theorem embSrvReadFifo_sameMax (r : SrvRun σ) : (embSrvReadFifo srv r).2.SameMax r := by
  unfold embSrvReadFifo
  dsimp only
  repeat' split
  all_goals exact ⟨rfl, rfl⟩

end SameMax

/-- What `get_function` finds with the handlers for files written and FIFOs added. -/
def getFunctionFiles (func : Byte) : Option (EmbSrvFunction σ) :=
  if func = 0x15 then some ⟨embSrvWriteFile, embSrvWriteFile_sameMax⟩
  else if func = 0x18 then some ⟨embSrvReadFifo, embSrvReadFifo_sameMax⟩
  else getFunction func

/-- What the super server sends for a request: the exception with the handler's code, or with an
illegal function where there is no handler, or a response of the implied form. -/
def AnswerTo (srv : EmbServer σ) (r : SrvRun σ) (pdu : EmbPdu) : Prop :=
  match getFunctionFiles r.rxPdu.function with
  | none => pdu.Carries (r.rxPdu.function ||| 0x80) [mbeIllegalFunction]
  | some func =>
    ((func.call srv r).1 ≠ 0 ∧ pdu.Carries (r.rxPdu.function ||| 0x80) [(func.call srv r).1])
      ∨ ((func.call srv r).1 = 0 ∧ Implied r.rxPdu (srv.fifoCount r) pdu)

end Emodbus
