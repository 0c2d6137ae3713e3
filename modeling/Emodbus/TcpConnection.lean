import Emodbus.TcpViaTcpClient

/-!
# Connecting and connecting again

All of `implementations/posix/tcp-client.c`, with the port functions and the notifier that
`mb-tcp-via-tcp-client.c` and `mb-rtu-via-tcp-client.c` have in common.  What the sockets and
libevent return is the environment; the `event_add` of the timer succeeds.  The user is told of
everything that happens to the connection and may then read and write, but does not start or stop
the client there.
-/

namespace Emodbus

/-- `enum tcp_client_events_t`. -/
inductive TcpClientNotice
  | dataReceived
  | dataSent
  | connected
  | disconnected
  | badTryOfReconnection
deriving DecidableEq

/-- What `timer_event` calls.  For `reconnect` it has `EV_PERSIST`. -/
inductive TimerCallback
  | firstTimeConnect
  | reconnect
deriving DecidableEq

/-- A call of the port: `read_from_port` with what `recv` returns, or `write_to_port` with the
number of bytes, what `send` returns and whether `event_add` succeeds. -/
inductive PortUse
  | read (recv : ℤ)
  | write (size : ℕ) (send : ℤ) (added : Bool)

/-- The connection is lost by it. -/
def PortUse.Loses : PortUse → Prop
  | .read recv => recv ≤ 0
  | .write size send _ => size ≠ 0 ∧ send < 0

/-- How a try of `do_connect` goes: `socket` fails, or it returns this. -/
inductive ConnectTry
  | noSocket
  /-- `connect` fails, or one of the calls of libevent after it. -/
  | fails (sockFd : ℤ)
  | connects (sockFd : ℤ)

/-- `struct tcp_client_t` with the `opened_flag` of the port. -/
structure TcpConnection where
  sockFd : ℤ
  /-- NULL, or whether the event is pending. -/
  sockEventRead : Option Bool
  sockEventWrite : Option Bool
  timerCallback : TimerCallback
  /-- The delay in seconds, if the timer is pending. -/
  timer : Option ℕ
  reconnectTimeout : ℕ
  state : TcpClientState
  openedFlag : Bool
  /-- The sockets that are open. -/
  sockets : List ℤ
  /-- What was closed without being open. -/
  strayed : List ℤ
  /-- Whether `timer_event` was assigned to while it was pending. -/
  reassigned : Bool
  notified : List TcpClientNotice

namespace TcpConnection

/-- What the user does when he has been told all this. -/
abbrev User := List TcpClientNotice → List PortUse

/-- `tcp_client_new`. -/
def new (delay : ℕ) : TcpConnection where
  sockFd := 0
  sockEventRead := none
  sockEventWrite := none
  timerCallback := .firstTimeConnect
  timer := none
  reconnectTimeout := delay
  state := .default
  openedFlag := false
  sockets := []
  strayed := []
  reassigned := false
  notified := []

/-- `start_reconnect_timer`. -/
def startReconnectTimer (s : TcpConnection) : TcpConnection :=
  { s with
    reassigned := s.reassigned || s.timer.isSome
    timerCallback := .reconnect
    timer := some s.reconnectTimeout }

/-- The events are freed and the socket is closed; its number stays. -/
def drop (s : TcpConnection) : TcpConnection :=
  { s with
    sockEventRead := none
    sockEventWrite := none
    sockets := if 0 < s.sockFd then s.sockets.erase s.sockFd else s.sockets
    strayed := if 0 < s.sockFd ∧ s.sockFd ∉ s.sockets then s.strayed ++ [s.sockFd] else s.strayed }

/-- The notifier keeps the flag, and hands on what it is told. -/
def noted (s : TcpConnection) (e : TcpClientNotice) : TcpConnection :=
  { s with
    openedFlag := match e with
      | .connected => true
      | .disconnected => false
      | _ => s.openedFlag
    notified := s.notified ++ [e] }

/-- `do_unconnect`. -/
def doUnconnect (notify : TcpConnection → TcpClientNotice → TcpConnection) (s : TcpConnection) :
    TcpConnection :=
  let s := s.drop
  if s.state ≠ .disconnected then notify { s with state := .disconnected } .disconnected else s

/-- `read_from_port` with `tcp_client_read`, and `write_to_port` with `tcp_client_write` and
`tcp_client_enable_write_event`. -/
def use (notify : TcpConnection → TcpClientNotice → TcpConnection) (s : TcpConnection)
    (u : PortUse) : TcpConnection :=
  if !s.openedFlag then s
  else
    match u with
    | .read recv => if recv ≤ 0 then (s.doUnconnect notify).startReconnectTimer else s
    | .write size send added =>
      if size = 0 then s
      else if send < 0 then (s.doUnconnect notify).startReconnectTimer
      else if 0 < send ∧ send < size ∧ s.sockEventWrite.isSome ∧ added then
        { s with sockEventWrite := some true }
      else s

/-- The user is told, and what he does may lead to his being told again, this deep. -/
def notify (user : User) : ℕ → TcpConnection → TcpClientNotice → TcpConnection
  | 0, s, e => s.noted e
  | depth + 1, s, e => (user (s.notified ++ [e])).foldl (use (notify user depth)) (s.noted e)

/-- Deep enough: a user who is told that the connection is gone can lose it no more. -/
def tell (user : User) : TcpConnection → TcpClientNotice → TcpConnection := notify user 2

/-- `do_connect`. -/
def doConnect (user : User) (s : TcpConnection) : ConnectTry → TcpConnection × ℤ
  | .noSocket => ({ s with sockFd := -1 }, -1)
  | .fails sockFd =>
    let s := { s with sockFd := sockFd, sockets := s.sockets ++ [sockFd] }
    (tell user (s.doUnconnect (tell user)) .badTryOfReconnection, -1)
  | .connects sockFd =>
    let s := { s with
      sockFd := sockFd
      sockets := s.sockets ++ [sockFd]
      sockEventRead := some true
      sockEventWrite := some true }
    (if s.state ≠ .connected then tell user { s with state := .connected } .connected else s, 0)

/-- `timer_event` while its callback is called.  One with `EV_PERSIST` is pending again, if libevent
schedules it again also without a delay (`rearms`). -/
def expired (rearms : Bool) (s : TcpConnection) : TcpConnection :=
  { s with
    timer := if s.timerCallback = .reconnect ∧ (s.timer = some 0 → rearms) then s.timer else none }

/-- The timer expires: `first_time_connect` or `reconnect`. -/
def timeout (user : User) (rearms : Bool) (s : TcpConnection) (attempt : ConnectTry) :
    TcpConnection :=
  let r := (s.expired rearms).doConnect user attempt
  match s.timerCallback with
  | .firstTimeConnect => if r.2 = 0 then { r.1 with timer := none } else r.1.startReconnectTimer
  | .reconnect => if r.2 = 0 then { r.1 with timer := none } else r.1

/-- `tcp_client_start_connection`. -/
def startConnection (s : TcpConnection) : TcpConnection :=
  { s with state := .disconnected, timer := some 0 }

/-- `tcp_client_stop_connection`. -/
def stopConnection (user : User) (s : TcpConnection) : TcpConnection :=
  { { s with timer := none }.doUnconnect (tell user) with state := .default }

inductive Input
  | startConnection
  | stopConnection
  | setReconnectionDelay (sec : ℕ)
  | timeout (attempt : ConnectTry)
  /-- `sock_fd_read_cb`. -/
  | readable
  /-- `sock_fd_write_cb`. -/
  | writable
  /-- The port is used outside of any notification. -/
  | use (u : PortUse)

/-- An event that is not pending is not raised. -/
def step (user : User) (rearms : Bool) (s : TcpConnection) : Input → TcpConnection × Unit
  | .startConnection => (s.startConnection, ())
  | .stopConnection => (s.stopConnection user, ())
  | .setReconnectionDelay sec => ({ s with reconnectTimeout := sec }, ())
  | .timeout attempt => (if s.timer.isSome then s.timeout user rearms attempt else s, ())
  | .readable => (if s.sockEventRead = some true then tell user s .dataReceived else s, ())
  | .writable =>
    (if s.sockEventWrite = some true then
        tell user { s with sockEventWrite := some false } .dataSent
      else s, ())
  | .use u => (s.use (tell user) u, ())

/-- A client is started once it is new or stopped and stopped once it is started.  A new socket has
a positive descriptor (zero is never closed) and is none of those that are open. -/
def Fits (s : TcpConnection) : Input → Prop
  | .startConnection => s.state = .default
  | .stopConnection => s.state ≠ .default
  | .timeout (.fails sockFd) => 0 < sockFd ∧ sockFd ∉ s.sockets
  | .timeout (.connects sockFd) => 0 < sockFd ∧ sockFd ∉ s.sockets
  | _ => True

/-- Once `timer_event` has been assigned to while it was pending, nothing is promised any more. -/
def Legal (s : TcpConnection) (i : Input) : Prop := s.reassigned = false ∧ s.Fits i

/-- The connection is made, and lost while the user is told of it. -/
def LostAtOnce (user : User) (s : TcpConnection) : Input → Prop
  | .timeout (.connects _) =>
    s.timer.isSome = true ∧ ∃ u ∈ user (s.notified ++ [.connected]), u.Loses
  | _ => False

/-- The connection is not made, and the timer is not pending again. -/
def LastTry (rearms : Bool) (s : TcpConnection) : Input → Prop
  | .timeout (.connects _) => False
  | .timeout _ => s.timerCallback = .reconnect ∧ s.timer = some 0 ∧ rearms = false
  | _ => False

/-- Started and not connected, and nothing is to connect it any more. -/
def GivenUp (s : TcpConnection) : Prop := s.state = .disconnected ∧ s.timer = none

/-- The connections and disconnections among these. -/
def links : List TcpClientNotice → List Bool
  | [] => []
  | .connected :: es => true :: links es
  | .disconnected :: es => false :: links es
  | _ :: es => links es

/-- There are a socket and its events exactly while the client is connected, and the timer is
pending only while it has been started and is not.  The user is told of connections and
disconnections in turn. -/
structure Kept (s : TcpConnection) : Prop where
  up : s.state = .connected → s.sockEventRead = some true ∧ s.sockEventWrite.isSome = true
    ∧ s.openedFlag = true ∧ s.sockets = [s.sockFd] ∧ 0 < s.sockFd
  down : s.state ≠ .connected → s.sockEventRead = none ∧ s.sockEventWrite = none
    ∧ s.openedFlag = false ∧ s.sockets = []
  timer : s.timer.isSome = true → s.state = .disconnected
  inTurn : (false :: links s.notified).IsChain (· ≠ ·)
  last : (false :: links s.notified).getLast? = some (decide (s.state = .connected))

end TcpConnection

end Emodbus
