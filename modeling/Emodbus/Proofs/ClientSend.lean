import Emodbus.ClientSend
import Emodbus.Proofs.PartialWrites

/-!
# Requests that are not sent

An idle client awaits every request that it is given, also one that its transport has not sent.
-/

namespace Emodbus

open Octets

section Client

variable {π τ : Type} (send : SendPacket τ) {cli : EmbClient π}

/-- Whatever the transport returns, an idle client waits. -/
theorem awaits_of_idle (hidle : cli.Idle) (t : τ) (slaveAddr : ℤ)
    (transact : EmbClientTransaction π) : Awaits send cli t slaveAddr transact := by
  obtain ⟨-, hrx⟩ := hidle
  have hcall : embClientDoTransaction cli slaveAddr transact
      = ⟨slaveAddr, transact, cli, { cli with
          currAddr := slaveAddr
          currTransaction := some transact
          rxPdu := transact.respPdu }, 0, [(slaveAddr, transact.reqPdu)]⟩ := by
    unfold embClientDoTransaction
    rw [hrx]
    rfl
  have hover : doTransactionOver send cli t slaveAddr transact
      = (0, { cli with
          currAddr := slaveAddr
          currTransaction := some transact
          rxPdu := transact.respPdu }, (send t slaveAddr transact.reqPdu).2) := by
    unfold doTransactionOver
    rw [hcall]
    rfl
  exact ⟨by rw [hover], by rw [hover], by rw [hover], by rw [hover]⟩

/-- So a request is refused as it should be exactly if it need not be. -/
theorem refusesUnsent_iff (hidle : cli.Idle) (t : τ) (slaveAddr : ℤ)
    (transact : EmbClientTransaction π) :
    RefusesUnsent send cli t slaveAddr transact ↔ (send t slaveAddr transact.reqPdu).1 = 0 := by
  have hawaits := awaits_of_idle send hidle t slaveAddr transact
  constructor
  · intro h
    by_contra hsend
    exact (h hsend).1 hawaits.result
  · exact fun hzero hne => absurd hzero hne

end Client

/-- Over either transport an idle client refuses a request that is not sent for no request at all:
it returns zero and waits for an answer. -/
theorem unsent_refused_iff {π ι : Type} {cli : EmbClient π} (hidle : cli.Idle) (rtu : EmbRtu)
    (rtuWrote : List Byte → ℤ × BitVec 32) (tcp : EmbTcp ι) (tcpWrote : List Byte → ℤ)
    (slaveAddr : ℤ) (transact : EmbClientTransaction π) :
    (RefusesUnsent (rtuSend rtuWrote) cli rtu slaveAddr transact
        ↔ transact.reqPdu.dataSize.toNat + 4 ≤ rtu.txBufSize.toNat)
      ∧ (RefusesUnsent (tcpSend tcpWrote) cli tcp slaveAddr transact
        ↔ transact.reqPdu.dataSize.toNat ≤ maxPduDataSize)
      ∧ Awaits (rtuSend rtuWrote) cli rtu slaveAddr transact
      ∧ Awaits (tcpSend tcpWrote) cli tcp slaveAddr transact := by
  refine ⟨?_, ?_, awaits_of_idle _ hidle _ _ _, awaits_of_idle _ hidle _ _ _⟩
  · rw [refusesUnsent_iff _ hidle]
    exact rtu_accepted_iff rtu slaveAddr transact.reqPdu rtuWrote
  · rw [refusesUnsent_iff _ hidle]
    exact tcp_accepted_iff tcp slaveAddr transact.reqPdu tcpWrote

/-- A client that waits for nothing. -/
def idleClient : EmbClient Bool := ⟨none, 0, none, false, false⟩

/-- A request with 254 bytes of data. -/
def longTransaction : EmbClientTransaction Bool := ⟨⟨3, 254, 255, fun _ => 0⟩, some true, none⟩

theorem unsent_refused_iff_long :
    (RefusesUnsent (rtuSend fun _ => (0, 0)) idleClient eightByteTx 1 longTransaction
        ↔ 254 + 4 ≤ 8)
      ∧ (RefusesUnsent (tcpSend fun _ => 0) idleClient (EmbTcp.zeroed ℕ ⟨none, false⟩) 1
        longTransaction ↔ 254 ≤ maxPduDataSize)
      ∧ Awaits (rtuSend fun _ => (0, 0)) idleClient eightByteTx 1 longTransaction
      ∧ Awaits (tcpSend fun _ => 0) idleClient (EmbTcp.zeroed ℕ ⟨none, false⟩) 1 longTransaction :=
  unsent_refused_iff ⟨rfl, rfl⟩ eightByteTx _ (EmbTcp.zeroed ℕ ⟨none, false⟩) _ 1 longTransaction

/-- Neither transport sends the request, and both clients wait for its answer. -/
theorem unsent_request_awaited :
    (rtuSend (fun _ => (0, 0)) eightByteTx 1 longTransaction.reqPdu).1 = -modbusBufferOverflow
      ∧ (doTransactionOver (rtuSend fun _ => (0, 0)) idleClient eightByteTx 1 longTransaction).1 = 0
      ∧ ¬ RefusesUnsent (rtuSend fun _ => (0, 0)) idleClient eightByteTx 1 longTransaction
      ∧ (tcpSend (fun _ => 0) (EmbTcp.zeroed ℕ ⟨none, false⟩) 1 longTransaction.reqPdu).1
        = -modbusBufferOverflow
      ∧ ¬ RefusesUnsent (tcpSend fun _ => 0) idleClient (EmbTcp.zeroed ℕ ⟨none, false⟩) 1
        longTransaction :=
  ⟨rfl, rfl, fun h => (h neg_modbusBufferOverflow_ne).1 rfl, rfl,
    fun h => (h neg_modbusBufferOverflow_ne).1 rfl⟩

end Emodbus
