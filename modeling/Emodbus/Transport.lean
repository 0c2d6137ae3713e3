import Emodbus.Base

/-!
# The transport interface

`base/modbus_transport.h`.  A call from the low to the high level is the last thing a transport's
`parse_packet` does, and it touches no receiver field of the transport, so it is returned as an
`Upcall` and the high level's reaction is applied to the state that comes with it.
-/

namespace Emodbus

open Octets

/-- The fields of `struct emb_transport_t` that the low level reads. -/
structure EmbTransport where
  rxPdu : Option EmbPdu
  /-- `flags & EMB_TRANSPORT_FLAG_IS_SERVER`. -/
  isServer : Bool

/-- `emb_transport_recv_packet` or `emb_transport_error`. -/
inductive Upcall
  | recvPacket (slaveAddr : ℤ) (pdu : EmbPdu)
  | error (errno : ℤ)

/-- An `int` passed as a `size_t`. -/
def sizeT (n : ℤ) : ℕ := (BitVec.ofInt 64 n).toNat

theorem sizeT_of_nonneg {n : ℕ} (h : n < 2 ^ 64) : sizeT n = n := by
  simp only [sizeT, BitVec.ofInt_natCast, BitVec.toNat_ofNat]
  exact Nat.mod_eq_of_lt h

/-- What the port hands over when asked for some number of bytes, `none` for an error. -/
structure PortRead where
  read : ℕ → Option (List Byte)
  length_le : ∀ {n bytes}, read n = some bytes → bytes.length ≤ n

/-- A port with just these bytes to hand over. -/
def PortRead.upTo (bytes : List Byte) : PortRead where
  read n := some (bytes.take n)
  length_le h := by
    simp only [Option.some.injEq] at h
    rw [← h]
    exact List.length_take_le _ _

end Emodbus
