import Emodbus.Client
import Emodbus.Rtu
import Emodbus.Tcp

/-!
# A transaction and its transport

`emb_client_do_transaction` with the `send_packet` of the transport under the client.  What
`send_packet` returns is not looked at.
-/

namespace Emodbus

open Octets

/-- `send_packet` of a transport, with the state it leaves. -/
abbrev SendPacket (τ : Type) := τ → ℤ → EmbPdu → ℤ × τ

/-- `modbus_rtu_send_packet`, on a port that does this. -/
def rtuSend (wrote : List Byte → ℤ × BitVec 32) : SendPacket EmbRtu := fun mbt slaveAddr pdu =>
  let r := modbusRtuSendPacket mbt slaveAddr pdu wrote
  (r.1, r.2.1)

/-- `modbus_tcp_send_packet`, on a port that does this. -/
def tcpSend {ι : Type} (wrote : List Byte → ℤ) : SendPacket (EmbTcp ι) :=
  fun mbt slaveAddr pdu =>
    let r := modbusTcpSendPacket mbt slaveAddr pdu wrote
    (r.1, r.2.1)

section Client

variable {π τ : Type} (send : SendPacket τ)

/-- `emb_client_do_transaction` over a transport: what it returns, and the client and the transport
that it leaves. -/
def doTransactionOver (cli : EmbClient π) (t : τ) (slaveAddr : ℤ)
    (transact : EmbClientTransaction π) : ℤ × EmbClient π × τ :=
  let d := embClientDoTransaction cli slaveAddr transact
  (d.result, d.after, d.sent.foldl (fun t p => (send t p.1 p.2).2) t)

/-- The client waits for nothing. -/
def EmbClient.Idle (cli : EmbClient π) : Prop := cli.currTransaction = none ∧ cli.rxPdu = none

/-- A request that the transport does not send is refused, and the client can take another one. -/
def RefusesUnsent (cli : EmbClient π) (t : τ) (slaveAddr : ℤ) (transact : EmbClientTransaction π) :
    Prop :=
  (send t slaveAddr transact.reqPdu).1 ≠ 0 →
    let r := doTransactionOver send cli t slaveAddr transact
    r.1 ≠ 0 ∧ r.2.1.Idle
      ∧ ∀ slaveAddr' transact', (doTransactionOver send r.2.1 r.2.2 slaveAddr' transact').1 ≠ -ebusy

/-- The request is given to the transport and waited for. -/
structure Awaits (cli : EmbClient π) (t : τ) (slaveAddr : ℤ) (transact : EmbClientTransaction π) :
    Prop where
  result : (doTransactionOver send cli t slaveAddr transact).1 = 0
  pending : (doTransactionOver send cli t slaveAddr transact).2.1.currTransaction = some transact
  rxPdu : (doTransactionOver send cli t slaveAddr transact).2.1.rxPdu = transact.respPdu
  transport : (doTransactionOver send cli t slaveAddr transact).2.2
    = (send t slaveAddr transact.reqPdu).2

end Client

end Emodbus
