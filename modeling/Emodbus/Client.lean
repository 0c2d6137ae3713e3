import Emodbus.Base

/-!
# The client

`client/client.h` and `client/client.c`.  A pointer to a PDU of the user is an element of `π`, so
that which PDU the transport may write into can be told without saying what is in it.

A callback is user code that may call `emb_client_do_transaction`.  `send_packet` raises no event,
so what a callback does to the client is to try some transactions one after the other, and which
ones may depend on all that happened before (`ClientUser`).
-/

namespace Emodbus

open Octets

/-- `struct emb_client_req_procs_t`: which of its callbacks are set. -/
structure EmbClientReqProcs where
  onResponse : Bool
  onError : Bool

/-- `struct emb_client_transaction_t`. -/
structure EmbClientTransaction (π : Type) where
  reqPdu : EmbPdu
  respPdu : Option π
  procs : Option EmbClientReqProcs

/-- `struct emb_client_t` with the `rx_pdu` of its transport. -/
structure EmbClient (π : Type) where
  rxPdu : Option π
  currAddr : ℤ
  currTransaction : Option (EmbClientTransaction π)
  /-- Whether `on_response` is set. -/
  onResponse : Bool
  /-- Whether `on_error` is set. -/
  onError : Bool

variable {π : Type}

/-- A callback with its arguments. -/
inductive ClientCall (π : Type)
  | cliOnResponse (slaveAddr : ℤ)
  | cliOnError (slaveAddr errno : ℤ)
  | procsOnResponse (req : EmbClientTransaction π) (slaveAddr : ℤ)
  | procsOnError (req : EmbClientTransaction π) (slaveAddr errno : ℤ)

/-- A call of `emb_client_do_transaction`: its arguments, the client it finds and leaves, what it
returns and what it hands to `send_packet`. -/
structure TransactionCall (π : Type) where
  slaveAddr : ℤ
  transact : EmbClientTransaction π
  before : EmbClient π
  after : EmbClient π
  result : ℤ
  sent : List (ℤ × EmbPdu)

/-- What happens at the client's interface to the user. -/
inductive ClientAct (π : Type)
  /-- User code is called and finds the client so. -/
  | call (c : ClientCall π) (cli : EmbClient π)
  | doTransaction (d : TransactionCall π)

/-- The client and all that happened so far. -/
structure ClientRun (π : Type) where
  cli : EmbClient π
  acts : List (ClientAct π)

/-- The transactions, with their addresses, that the callback at the end of these acts tries. -/
abbrev ClientUser (π : Type) := List (ClientAct π) → List (ℤ × EmbClientTransaction π)

/-- `emb_client_init`, for a client whose transport is set. -/
def embClientInit (cli : EmbClient π) : EmbClient π := { cli with currTransaction := none }

/-- `emb_client_do_transaction`. -/
def embClientDoTransaction (cli : EmbClient π) (slaveAddr : ℤ)
    (transact : EmbClientTransaction π) : TransactionCall π :=
  if cli.rxPdu.isSome then ⟨slaveAddr, transact, cli, cli, -ebusy, []⟩
  else
    let after := { cli with
      currAddr := slaveAddr
      currTransaction := some transact
      rxPdu := transact.respPdu }
    ⟨slaveAddr, transact, cli, after, 0, [(slaveAddr, transact.reqPdu)]⟩

namespace ClientRun

def doTransaction (r : ClientRun π) (slaveAddr : ℤ) (transact : EmbClientTransaction π) :
    ClientRun π :=
  let d := embClientDoTransaction r.cli slaveAddr transact
  ⟨d.after, r.acts ++ [.doTransaction d]⟩

/-- A callback is called and returns. -/
def call (user : ClientUser π) (c : ClientCall π) (r : ClientRun π) : ClientRun π :=
  let acts := r.acts ++ [.call c r.cli]
  (user acts).foldl (fun r t => r.doTransaction t.1 t.2) ⟨r.cli, acts⟩

/-- `curr_transaction` and `rx_pdu` are set to NULL. -/
def clear (r : ClientRun π) : ClientRun π :=
  { r with cli := { r.cli with currTransaction := none, rxPdu := none } }

/-- `if(cli->on_error) cli->on_error(cli, _slave_addr, _errno)`. -/
def cliOnError (user : ClientUser π) (slaveAddr errno : ℤ) (r : ClientRun π) : ClientRun π :=
  if r.cli.onError then r.call user (.cliOnError slaveAddr errno) else r

/-- `if(cli->on_response) cli->on_response(cli, _slave_addr)`. -/
def cliOnResponse (user : ClientUser π) (slaveAddr : ℤ) (r : ClientRun π) : ClientRun π :=
  if r.cli.onResponse then r.call user (.cliOnResponse slaveAddr) else r

end ClientRun

/-- Whether `procs->on_response` is there to be called. -/
def EmbClientTransaction.hasOnResponse (req : EmbClientTransaction π) : Bool :=
  req.procs.any (·.onResponse)

/-- Whether `procs->on_error` is there to be called. -/
def EmbClientTransaction.hasOnError (req : EmbClientTransaction π) : Bool :=
  req.procs.any (·.onError)

/-- `CLIENT_REQ_ON_ERROR`. -/
def clientReqOnError (user : ClientUser π) (req : EmbClientTransaction π) (addr errno : ℤ)
    (r : ClientRun π) : ClientRun π :=
  if req.hasOnError then r.call user (.procsOnError req addr errno) else r

/-- `if(req->procs && req->procs->on_response) req->procs->on_response(req, _slave_addr)`. -/
def clientReqOnResponse (user : ClientUser π) (req : EmbClientTransaction π) (addr : ℤ)
    (r : ClientRun π) : ClientRun π :=
  if req.hasOnResponse then r.call user (.procsOnResponse req addr) else r

/-- Both `on_error` callbacks, with the address of the packet. -/
def failWith (user : ClientUser π) (req : EmbClientTransaction π) (slaveAddr errno : ℤ)
    (r : ClientRun π) : ClientRun π :=
  clientReqOnError user req slaveAddr errno (r.cliOnError user slaveAddr errno)

/-- `emb_client_on_receive_pkt`. -/
def embClientOnReceivePkt (user : ClientUser π) (slaveAddr : ℤ) (pkt : EmbPdu)
    (r : ClientRun π) : ClientRun π :=
  let req := r.cli.currTransaction
  let r := r.clear
  match req with
  | none => r
  | some req =>
    if r.cli.currAddr ≠ slaveAddr then failWith user req slaveAddr (-modbusRespWrongAddress) r
    else
      let res := embCheckPduForException pkt
      if res ≠ 0 then failWith user req slaveAddr res r
      else if req.reqPdu.function ≠ pkt.function then
        failWith user req slaveAddr (-modbusRespWrongFunc) r
      else (clientReqOnResponse user req slaveAddr r).cliOnResponse user slaveAddr

/-- `emb_client_on_error`.  `curr_addr` is read again after the first callback. -/
def embClientOnError (user : ClientUser π) (errno : ℤ) (r : ClientRun π) : ClientRun π :=
  match r.cli.currTransaction with
  | none => r
  | some req =>
    let r := r.clear
    let r := r.cliOnError user r.cli.currAddr errno
    clientReqOnError user req r.cli.currAddr errno r

/-- `emb_client_wait_timeout`. -/
def embClientWaitTimeout (user : ClientUser π) (r : ClientRun π) : ClientRun π :=
  let req := r.cli.currTransaction
  let r := { r with cli := { r.cli with rxPdu := none } }
  match req with
  | none => r
  | some req =>
    let r := { r with cli := { r.cli with currTransaction := none } }
    clientReqOnError user req r.cli.currAddr (-modbusRespTimeout) r

/-! ## Runs -/

inductive ClientInput (π : Type)
  | doTransaction (slaveAddr : ℤ) (transact : EmbClientTransaction π)
  | recvPacket (slaveAddr : ℤ) (pkt : EmbPdu)
  | error (errno : ℤ)
  | waitTimeout

/-- One outermost event. -/
def clientEvent (user : ClientUser π) (r : ClientRun π) : ClientInput π → ClientRun π
  | .doTransaction slaveAddr transact => r.doTransaction slaveAddr transact
  | .recvPacket slaveAddr pkt => embClientOnReceivePkt user slaveAddr pkt r
  | .error errno => embClientOnError user errno r
  | .waitTimeout => embClientWaitTimeout user r

/-- The run of these events from a client nothing has happened to. -/
def clientRun (user : ClientUser π) (cli : EmbClient π) (ins : List (ClientInput π)) :
    ClientRun π := ins.foldl (clientEvent user) ⟨cli, []⟩

/-- How a transaction ends. -/
inductive ClientEnd
  | response
  | error (errno : ℤ)

/-- Whether the transaction has a callback for this end. -/
def EmbClientTransaction.hears (req : EmbClientTransaction π) : ClientEnd → Bool
  | .response => req.hasOnResponse
  | .error _ => req.hasOnError

namespace ClientAct

/-- The transactions that were accepted, in order. -/
def accepted : List (ClientAct π) → List (EmbClientTransaction π)
  | [] => []
  | .doTransaction d :: acts => if d.result = 0 then d.transact :: accepted acts else accepted acts
  | .call _ _ :: acts => accepted acts

/-- The calls of the transactions' own callbacks, in order. -/
def procsCalls : List (ClientAct π) → List (EmbClientTransaction π × ClientEnd)
  | [] => []
  | .call (.procsOnResponse req _) _ :: acts => (req, .response) :: procsCalls acts
  | .call (.procsOnError req _ errno) _ :: acts => (req, .error errno) :: procsCalls acts
  | _ :: acts => procsCalls acts

end ClientAct

/-- The client waits for an answer exactly when the transport may write, and then into the
response PDU of its transaction. -/
structure EmbClient.Owns (cli : EmbClient π) : Prop where
  none_iff : cli.currTransaction = none ↔ cli.rxPdu = none
  respPdu : ∀ req ∈ cli.currTransaction, cli.rxPdu = req.respPdu

/-- A call of `emb_client_do_transaction` that is refused exactly when a transaction is pending,
and then changes and sends nothing. -/
structure TransactionCall.Guarded (d : TransactionCall π) : Prop where
  busy_iff : d.result = -ebusy ∧ d.after = d.before ∧ d.sent = []
    ↔ d.before.currTransaction ≠ none
  accepted_iff : d.result = 0 ↔ d.before.currTransaction = none

end Emodbus
