import Emodbus.Transport

/-!
# The super server and its servers

`server/server.h`, `server/server.c` and `server/exception.c`.  The store behind the callbacks is a
parameter `σ`.  A read callback returns its code, what it puts at the place it is given, and the
store it leaves; a write callback gets the values the handler hands over.  Every call of a callback
is recorded as a `StoreCall`, with the block it belongs to and, for a read, the place in the data of
the response.
-/

namespace Emodbus

open Octets

variable {σ : Type}

/-- `struct emb_srv_bits_t`. -/
structure EmbSrvBits (σ : Type) where
  start : Word
  size : Word
  readBits : Option (Word → Word → σ → Byte × List Byte × σ)
  writeBits : Option (Word → Word → List Byte → σ → Byte × σ)

/-- `struct emb_srv_regs_t`. -/
structure EmbSrvRegs (σ : Type) where
  start : Word
  size : Word
  readRegs : Option (Word → Word → σ → Byte × List Word × σ)
  writeRegs : Option (Word → Word → List Word → σ → Byte × σ)

/-- `struct emb_srv_file_t`. -/
structure EmbSrvFile (σ : Type) where
  fileno : Word
  readFile : Option (Word → Word → σ → Byte × List Word × σ)
  writeFile : Option (Word → Word → List Word → σ → Byte × σ)

/-- The callbacks of `struct emb_server_t` that its handlers use. -/
structure EmbServer (σ : Type) where
  getCoils : Option (Word → σ → Option (EmbSrvBits σ))
  getDiscreteInputs : Option (Word → σ → Option (EmbSrvBits σ))
  getHoldingRegs : Option (Word → σ → Option (EmbSrvRegs σ))
  getInputRegs : Option (Word → σ → Option (EmbSrvRegs σ))
  getFile : Option (Word → σ → Option (EmbSrvFile σ))
  /-- The code, the FIFO's registers, `*_fifo_count` and the store. -/
  readFifo : Option (Word → σ → Byte × List Word × Byte × σ)

/-- A call of a store callback; `out` is where in `tx_pdu->data` a read puts its values. -/
inductive StoreCall
  | readBits (start size offset quantity : Word) (out : ℕ)
  | writeBits (start size offset quantity : Word) (values : List Byte)
  /-- `out` is `none` for a variable of the handler. -/
  | readRegs (start size offset quantity : Word) (out : Option ℕ)
  | writeRegs (start size offset quantity : Word) (values : List Word)
  | readFile (fileno offset quantity : Word) (out : ℕ)
  | writeFile (fileno offset quantity : Word) (values : List Word)
  | readFifo (address : Word) (out : ℕ)

/-- What a handler works on: the two PDUs of the super server, the store and the calls so far. -/
structure SrvRun (σ : Type) where
  rxPdu : EmbPdu
  txPdu : EmbPdu
  store : σ
  calls : List StoreCall

/-- A handler has not changed the sizes of the buffers. -/
structure SrvRun.SameMax (r r' : SrvRun σ) : Prop where
  rx : r.rxPdu.maxSize = r'.rxPdu.maxSize
  tx : r.txPdu.maxSize = r'.txPdu.maxSize

/-- A handler: the code it returns, and what it leaves. -/
abbrev SrvHandler (σ : Type) := EmbServer σ → SrvRun σ → Byte × SrvRun σ

/-- `emb_srv_function_t`. -/
structure EmbSrvFunction (σ : Type) where
  call : SrvHandler σ
  sameMax : ∀ srv r, (call srv r).2.SameMax r

/-- `struct emb_server_t`. -/
structure EmbServerEntry (σ : Type) extends EmbServer σ where
  getFunction : Option (Byte → Option (EmbSrvFunction σ))
  /-- `flags & EMB_SRV_BROADCAST_FLAG`. -/
  isBroadcast : Bool

/-- `struct emb_super_server_t`, its PDUs and its transport apart. -/
structure EmbSuperServer (σ : Type) where
  getServer : Option (Byte → Option (EmbServerEntry σ))

inductive EmbSuperServerEvent
  | onReceivePkt
  | noSrv
  | mbException
  | respSent
  | transportError
deriving DecidableEq

/-- A lookup as the handlers make it: no callback is a slave failure, no block an illegal
address. -/
def lookUp {β : Type} (get : Option (Word → σ → Option β)) (addr : Word) (s : σ) :
    Except Byte β :=
  match get with
  | none => .error mbeSlaveFailure
  | some get =>
    match get addr s with
    | none => .error mbeIllegalDataAddr
    | some block => .ok block

/-- `emb_build_exception_pdu`. -/
def embBuildExceptionPdu (result : EmbPdu) (func errno : Byte) : ℤ × EmbPdu :=
  if result.maxSize.toNat < 1 then (-enomem, result)
  else
    (0, { result with
      function := func ||| 0x80
      dataSize := 1
      data := Mem.blit result.data 0 [errno] })

/-- What the super server has done: the PDUs and the store, the packets sent, the events. -/
structure SrvReaction (σ : Type) where
  run : SrvRun σ
  sent : List (ℤ × EmbPdu)
  events : List (EmbSuperServerEvent × Byte)

/-- `build_exception_pdu` and the event that goes with it. -/
def answerException (r : SrvRun σ) (errno : Byte) :
    SrvRun σ × List (EmbSuperServerEvent × Byte) :=
  ({ r with txPdu := (embBuildExceptionPdu r.txPdu r.rxPdu.function errno).2 },
    [(.mbException, errno)])

/-- The `do { .. } while(0)` of `emb_super_server_on_receive_req`. -/
def callFunction (srv : EmbServerEntry σ) (r : SrvRun σ) :
    SrvRun σ × List (EmbSuperServerEvent × Byte) :=
  match srv.getFunction with
  | none => answerException r mbeIllegalFunction
  | some getFunction =>
    match getFunction r.rxPdu.function with
    | none => answerException r mbeIllegalFunction
    | some func =>
      let res := func.call srv.toEmbServer r
      if res.1 ≠ 0 then answerException res.2 res.1 else (res.2, [])

/-- `emb_super_server_on_receive_req`; the request is in `rx_pdu`. -/
def embSuperServerOnReceiveReq (ssrv : EmbSuperServer σ) (slaveAddr : ℤ) (r : SrvRun σ) :
    SrvReaction σ :=
  match ssrv.getServer with
  | none => ⟨r, [], [(.onReceivePkt, 0), (.noSrv, 0)]⟩
  | some getServer =>
    match getServer (BitVec.ofInt 8 slaveAddr) with
    | none => ⟨r, [], [(.onReceivePkt, 0), (.noSrv, 0)]⟩
    | some srv =>
      let res := callFunction srv r
      if srv.isBroadcast then ⟨res.1, [], (.onReceivePkt, 0) :: res.2⟩
      else
        ⟨res.1, [(slaveAddr, res.1.txPdu)],
          (.onReceivePkt, 0) :: res.2 ++ [(.respSent, 0)]⟩

/-- The server that is asked, and the function it has for the request. -/
structure EmbSuperServer.Asks (ssrv : EmbSuperServer σ) (addr : ℤ) (r : SrvRun σ)
    (srv : EmbServerEntry σ) (func : EmbSrvFunction σ) : Prop where
  getServer : ∃ getServer, ssrv.getServer = some getServer
    ∧ getServer (BitVec.ofInt 8 addr) = some srv
  getFunction : ∃ getFunction, srv.getFunction = some getFunction
    ∧ getFunction r.rxPdu.function = some func
  unicast : srv.isBroadcast = false

end Emodbus
