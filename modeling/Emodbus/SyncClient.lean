import Emodbus.Lib.Mealy
import Emodbus.TcpClient

/-!
# The synchronous clients

`implementations/posix/client.c`, and `client.cpp` with `client_t` of the wrapper under it.  The
thread that calls and the thread of the event loop take turns in any order, a step of one at a time.
`emb_client_do_transaction` takes no lock, and so each of its lines is a step of the calling thread.
What the client does to its own fields when the loop calls it is one step: a transport hands over a
packet only while `rx_pdu` is set, and without a transaction an error does nothing, so the only line
that can come in the middle of it sets `rx_pdu`, before or after that is cleared.  What a callback
does behind the client is a list of small steps (`todo`), between which the calling thread may go
on.  The timer is there, and `event_add` succeeds.
-/

namespace Emodbus

variable {ρ π : Type}

/-- How a client keeps what a call is to return. -/
structure SyncResult (ρ : Type) where
  /-- What is done to it before the timer is added. -/
  start : ρ → ρ
  /-- `on_response` and `on_error`, with zero or the error. -/
  done : ℤ → ρ
  timedOut : ρ → ρ
  /-- Whether `timeout_cb` says so before it calls `emb_client_wait_timeout`. -/
  timedOutFirst : Bool
  read : ρ → ℤ
  /-- What is read of an error. -/
  code : ℤ → ℤ
  start_done : ∀ errno, start (done errno) = done errno
  read_done : ∀ errno, read (done errno) = code errno
  read_timedOut : ∀ r, read (timedOut r) = code (-modbusRespTimeout)

/-- `transact_result` of `emb_posix_sync_client_t`. -/
def transactResult : SyncResult ℤ where
  start r := r
  done errno := errno
  timedOut _ := -modbusRespTimeout
  timedOutFirst := false
  read r := r
  code errno := errno
  start_done _ := rfl
  read_done _ := rfl
  read_timedOut _ := rfl

/-- `is_timeout` of `posix_sync_client_t` and `result` of `client_t`. -/
structure TimeoutResult where
  isTimeout : Bool
  result : ℤ

/-- `emb_sync_client_start_wait`, once it has waited. -/
def TimeoutResult.startWait (r : TimeoutResult) : ℤ := if r.isTimeout then 1 else r.result

/-- The end of `client_t::do_transaction`. -/
def TimeoutResult.read (r : TimeoutResult) : ℤ :=
  if r.startWait = 0 then r.result
  else if r.startWait = 1 then -modbusRespTimeout
  else r.startWait

def timeoutResult : SyncResult TimeoutResult where
  start r := { r with isTimeout := false }
  done errno := ⟨false, errno⟩
  timedOut r := { r with isTimeout := true }
  timedOutFirst := true
  read := TimeoutResult.read
  code errno := if errno = 1 then -modbusRespTimeout else errno
  start_done _ := rfl
  read_done errno := by
    unfold TimeoutResult.read TimeoutResult.startWait
    dsimp only
    split_ifs <;> simp_all
  read_timedOut r := by
    unfold TimeoutResult.read TimeoutResult.startWait
    rfl

/-- What a call is to return. -/
def ClientEnd.errno : ClientEnd → ℤ
  | .response => 0
  | .error errno => errno

/-- A step of the event loop behind the client. -/
inductive LoopAct (π : Type)
  | done (errno : ℤ)
  | timedOut
  | unlock
  /-- The transaction's own callback. -/
  | tell (req : EmbClientTransaction π) (fin : ClientEnd)

namespace LoopAct

/-- `client_on_response` and `client_on_error`, and the callbacks of the transaction. -/
def ofCall : ClientCall π → List (LoopAct π)
  | .cliOnResponse _ => [.done 0, .unlock]
  | .cliOnError _ errno => [.done errno, .unlock]
  | .procsOnResponse req _ => [.tell req .response]
  | .procsOnError req _ errno => [.tell req (.error errno)]

def ofActs : List (ClientAct π) → List (LoopAct π)
  | [] => []
  | .call c _ :: acts => ofCall c ++ ofActs acts
  | .doTransaction _ :: acts => ofActs acts

/-- The callbacks of transactions among these steps. -/
def tells : List (LoopAct π) → List (EmbClientTransaction π × ClientEnd)
  | [] => []
  | .tell req fin :: todo => (req, fin) :: tells todo
  | _ :: todo => tells todo

end LoopAct

/-- What the calling thread does next: nothing until it is called; a line of
`emb_client_do_transaction`, with the arguments of the call; `event_add`, `pthread_mutex_lock`,
`event_del`; or return. -/
inductive SyncPc (π : Type)
  | ready
  | currAddr (slaveAddr : ℤ) (transact : EmbClientTransaction π)
  | currTransaction (slaveAddr : ℤ) (transact : EmbClientTransaction π)
  | rxPdu (slaveAddr : ℤ) (transact : EmbClientTransaction π)
  | sendPacket (slaveAddr : ℤ) (transact : EmbClientTransaction π)
  | start | wait | hold | stop

structure SyncClient (ρ π : Type) where
  cli : EmbClient π
  result : ρ
  /-- The mutex. -/
  locked : Bool
  /-- `timeout_timer` is pending. -/
  timer : Bool
  /-- The event loop is in `timeout_cb`. -/
  inTimeout : Bool
  pc : SyncPc π
  todo : List (LoopAct π)
  /-- How many calls have returned `-EBUSY`. -/
  refused : ℕ
  /-- The transactions that have become `curr_transaction`. -/
  started : List (ℤ × EmbClientTransaction π)
  /-- What was handed to `send_packet`. -/
  sent : List (ℤ × EmbPdu)
  /-- The transactions that the client has dropped, with their ends. -/
  ended : List (EmbClientTransaction π × ClientEnd)
  /-- What their calls have returned. -/
  returned : List ℤ
  /-- The transactions whose own callbacks were called. -/
  told : List (EmbClientTransaction π × ClientEnd)

inductive SyncInput (π : Type)
  | call (slaveAddr : ℤ) (transact : EmbClientTransaction π)
  /-- The calling thread goes on. -/
  | caller
  /-- The event loop goes on with its callback. -/
  | loop
  | recvPacket (slaveAddr : ℤ) (pkt : EmbPdu)
  | error (errno : ℤ)
  /-- The timer expires. -/
  | timer

namespace SyncClient

/-- `emb_posix_sync_client_create` with its transport set. -/
def create (r : ρ) : SyncClient ρ π where
  cli := embClientInit ⟨none, 0, none, true, true⟩
  result := r
  locked := true
  timer := false
  inTimeout := false
  pc := .ready
  todo := []
  refused := 0
  started := []
  sent := []
  ended := []
  returned := []
  told := []

/-- `emb_posix_sync_client_transaction` is called.  With an `rx_pdu` it is refused and returned from
at once. -/
def call (s : SyncClient ρ π) (slaveAddr : ℤ) (transact : EmbClientTransaction π) :
    SyncClient ρ π :=
  match s.pc with
  | .ready =>
    if s.cli.rxPdu.isSome then { s with refused := s.refused + 1 }
    else { s with pc := .currAddr slaveAddr transact }
  | _ => s

/-- The calling thread goes on: the lines of `emb_client_do_transaction` one by one, and the rest of
`emb_posix_sync_client_transaction`.  `event_del` waits for a `timeout_cb` that is running. -/
def caller (fl : SyncResult ρ) (s : SyncClient ρ π) : SyncClient ρ π :=
  match s.pc with
  | .ready => s
  | .currAddr slaveAddr transact =>
    { s with cli.currAddr := slaveAddr, pc := .currTransaction slaveAddr transact }
  | .currTransaction slaveAddr transact =>
    { s with
      cli.currTransaction := some transact
      started := s.started ++ [(slaveAddr, transact)]
      pc := .rxPdu slaveAddr transact }
  | .rxPdu slaveAddr transact =>
    { s with cli.rxPdu := transact.respPdu, pc := .sendPacket slaveAddr transact }
  | .sendPacket slaveAddr transact =>
    { s with sent := s.sent ++ [(slaveAddr, transact.reqPdu)], pc := .start }
  | .start => { s with result := fl.start s.result, timer := true, pc := .wait }
  | .wait => if s.locked then s else { s with locked := true, pc := .hold }
  | .hold => if s.inTimeout then s else { s with timer := false, pc := .stop }
  | .stop => { s with returned := s.returned ++ [fl.read s.result], pc := .ready }

/-- A step of the callback that the event loop is in. -/
def loop (fl : SyncResult ρ) (s : SyncClient ρ π) : SyncClient ρ π :=
  match s.todo with
  | [] => s
  | a :: rest =>
    let s := { s with todo := rest, inTimeout := s.inTimeout && !rest.isEmpty }
    match a with
    | .done errno => { s with result := fl.done errno }
    | .timedOut => { s with result := fl.timedOut s.result }
    | .unlock => { s with locked := false }
    | .tell req fin => { s with told := s.told ++ [(req, fin)] }

/-- What the transaction that is pending comes to with this. -/
def endsWith (s : SyncClient ρ π) (i : ClientInput π) :
    List (EmbClientTransaction π × ClientEnd) :=
  match s.cli.currTransaction with
  | none => []
  | some req => ((i.endOf s.cli req).map fun fin => (req, fin)).toList

/-- The client is called by the event loop. -/
def event (s : SyncClient ρ π) (i : ClientInput π) : SyncClient ρ π :=
  let r := clientEvent (fun _ => []) ⟨s.cli, []⟩ i
  { s with cli := r.cli, todo := LoopAct.ofActs r.acts, ended := s.ended ++ s.endsWith i }

/-- `timeout_cb`. -/
def timeoutCb (fl : SyncResult ρ) (s : SyncClient ρ π) : SyncClient ρ π :=
  let s' := s.event .waitTimeout
  { s' with
    timer := false
    inTimeout := true
    todo := if fl.timedOutFirst then .timedOut :: (s'.todo ++ [.unlock])
      else s'.todo ++ [.timedOut, .unlock] }

/-- The event loop calls nothing before its callback has returned. -/
def step (fl : SyncResult ρ) (s : SyncClient ρ π) : SyncInput π → SyncClient ρ π × Unit
  | .call slaveAddr transact => (s.call slaveAddr transact, ())
  | .caller => (s.caller fl, ())
  | .loop => (s.loop fl, ())
  | .recvPacket slaveAddr pkt =>
    (if s.todo = [] then s.event (.recvPacket slaveAddr pkt) else s, ())
  | .error errno => (if s.todo = [] then s.event (.error errno) else s, ())
  | .timer => (if s.todo = [] ∧ s.timer = true then s.timeoutCb fl else s, ())

/-- The timer does not expire once its transaction has ended. -/
def Timely (s : SyncClient ρ π) : SyncInput π → Prop
  | .timer => s.todo = [] → s.timer = true → s.cli.currTransaction ≠ none
  | _ => True

/-- Nothing is told to the client between its lines that set `curr_transaction` and `rx_pdu`. -/
def Unraced (s : SyncClient ρ π) : SyncInput π → Prop
  | .recvPacket _ _ | .error _ =>
    s.todo = [] → ∀ slaveAddr transact, s.pc ≠ .rxPdu slaveAddr transact
  | _ => True

/-- What is sent for an accepted call. -/
def request (a : ℤ × EmbClientTransaction π) : ℤ × EmbPdu := (a.1, a.2.reqPdu)

/-- The calls return once each and in order, with the ends of their own transactions. -/
structure OwnEnds (fl : SyncResult ρ) (s : SyncClient ρ π) : Prop where
  inOrder : s.ended.map Prod.fst = (s.started.map Prod.snd).take s.ended.length
  returned : s.returned = (s.ended.take s.returned.length).map fun e => fl.code e.2.errno
  counts : s.returned.length ≤ s.ended.length ∧ s.ended.length ≤ s.started.length
    ∧ s.started.length ≤ s.returned.length + 1
  /-- The requests are sent once each and in order, before their calls return. -/
  sent : s.sent <+: s.started.map request ∧ (s.pc = .ready → s.sent = s.started.map request)
  /-- Between calls the mutex is locked and the timer is not pending. -/
  rests : s.pc = .ready → s.returned.length = s.started.length ∧ s.locked = true ∧ s.timer = false
  told : s.told ++ LoopAct.tells s.todo = s.ended.filter fun e => e.1.hears e.2
  /-- Only an error may be told to its transaction when the call has returned. -/
  toldBefore : s.pc = .ready → s.todo = [] ∨ ∃ req errno,
    s.ended.getLast? = some (req, .error errno) ∧ s.todo = [.tell req (.error errno)]
  /-- Once its transaction has ended nothing keeps a call from returning. -/
  returns : s.ended.length = s.started.length →
    (Mealy.run (step fl) s
      (List.replicate s.todo.length .loop ++ List.replicate 6 .caller)).1.returned.length
      = s.started.length

/-- No call has been refused, and none would be now. -/
structure Accepts (s : SyncClient ρ π) : Prop where
  refused : s.refused = 0
  free : s.pc = .ready → s.cli.rxPdu = none

end SyncClient

end Emodbus
