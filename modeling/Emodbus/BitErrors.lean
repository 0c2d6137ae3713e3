import Emodbus.Lib.Bits
import Emodbus.Rtu

/-!
# Bits that change on the line

The receiver's test of the CRC, as a property of the bytes it has gathered.
-/

namespace Emodbus

open Octets

/-- The CRC of all but the last two bytes is what the last two say. -/
def RtuCrcTest (bytes : List Byte) : Prop :=
  let buf : Mem Byte := fun i => bytes.getD i 0
  let size := bytes.length - 2
  crc16 buf (BitVec.ofInt 16 size) = mkWord (buf size) (buf (size + 1))

instance (bytes : List Byte) : Decidable (RtuCrcTest bytes) :=
  inferInstanceAs (Decidable (_ = _))

/-- What a receiver tells the high level when these bytes come in, in whatever pieces, is that
their CRC is bad. -/
def RtuReportsBadCrc (bytes : List Byte) : Prop :=
  ∀ (receiver : EmbRtu) (chunks : List (List Byte)), receiver.rxBufCounter = 0 →
    bytes.length ≤ receiver.rxBufSize.toNat → (∀ c ∈ chunks, c ≠ []) → chunks.flatten = bytes →
    (rtuReceive receiver chunks).2 = [.error (-modbusBadCrc)]

end Emodbus
