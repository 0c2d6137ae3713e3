import Emodbus.Lib.Parts
import Emodbus.RemoteMemory

/-!
# Several servers under one super server

`super_server_t` of `cpp-wrap/emodbus.cpp` with the `server_t` objects that are added to it, each
with its address, its table of functions and blocks of its own, and proxies that talk to them.  The
servers share the two PDUs of the super server.  The callbacks of an object work on its own blocks,
which are a part of all there is (`through`).

`ServerMemories` is what that is for: a memory for each object, and who is spoken to at an address.
-/

namespace Emodbus

open Octets

variable {σ τ κ : Type}

section Through

variable (L : Lens τ σ)

/-- The block, with its callbacks working on a part of the store. -/
def EmbSrvBits.through (b : EmbSrvBits σ) : EmbSrvBits τ where
  start := b.start
  size := b.size
  readBits := b.readBits.map fun read offset quantity t =>
    let r := read offset quantity (L.get t)
    (r.1, r.2.1, L.set r.2.2 t)
  writeBits := b.writeBits.map fun write offset quantity values t =>
    let r := write offset quantity values (L.get t)
    (r.1, L.set r.2 t)

def EmbSrvRegs.through (b : EmbSrvRegs σ) : EmbSrvRegs τ where
  start := b.start
  size := b.size
  readRegs := b.readRegs.map fun read offset quantity t =>
    let r := read offset quantity (L.get t)
    (r.1, r.2.1, L.set r.2.2 t)
  writeRegs := b.writeRegs.map fun write offset quantity values t =>
    let r := write offset quantity values (L.get t)
    (r.1, L.set r.2 t)

def EmbSrvFile.through (f : EmbSrvFile σ) : EmbSrvFile τ where
  fileno := f.fileno
  readFile := f.readFile.map fun read offset quantity t =>
    let r := read offset quantity (L.get t)
    (r.1, r.2.1, L.set r.2.2 t)
  writeFile := f.writeFile.map fun write offset quantity values t =>
    let r := write offset quantity values (L.get t)
    (r.1, L.set r.2 t)

/-- The lookup, made in a part of the store. -/
def getThrough {β γ : Type} (get : Option (Word → σ → Option β)) (f : β → γ) :
    Option (Word → τ → Option γ) :=
  get.map fun get addr t => (get addr (L.get t)).map f

def EmbServer.through (srv : EmbServer σ) : EmbServer τ where
  getCoils := getThrough L srv.getCoils (EmbSrvBits.through L)
  getDiscreteInputs := getThrough L srv.getDiscreteInputs (EmbSrvBits.through L)
  getHoldingRegs := getThrough L srv.getHoldingRegs (EmbSrvRegs.through L)
  getInputRegs := getThrough L srv.getInputRegs (EmbSrvRegs.through L)
  getFile := getThrough L srv.getFile (EmbSrvFile.through L)
  readFifo := srv.readFifo.map fun read addr t =>
    let r := read addr (L.get t)
    (r.1, r.2.1, r.2.2.1, L.set r.2.2.2 t)

/-- What a handler sees that works on the part alone. -/
def SrvRun.part (r : SrvRun τ) : SrvRun σ := ⟨r.rxPdu, r.txPdu, L.get r.store, r.calls⟩

/-- What it leaves, with the part put back. -/
def SrvRun.put (r : SrvRun σ) (t : τ) : SrvRun τ := ⟨r.rxPdu, r.txPdu, L.set r.store t, r.calls⟩

end Through

/-! ## super_server_t -/

/-- A `super_server_t`, and what has become of the `server_t` objects. -/
structure SuperServerT (κ : Type) where
  servers : List κ
  /-- Which functions have been added to an object. -/
  functions : κ → Byte → Bool
  /-- `rx_pdu` and `tx_pdu`, and the blocks of each object. -/
  run : SrvRun (κ → ServerT)

namespace SuperServerT

variable [DecidableEq κ]

/-- `server_t::add_function`, for a function under its own number. -/
def addFunction (s : SuperServerT κ) (server : κ) (func : Byte) : SuperServerT κ × Bool :=
  let functions := Function.update (s.functions server) func true
  ({ s with functions := Function.update s.functions server functions }, true)

/-- The `srv` of an object. -/
def srv (s : SuperServerT κ) (server : κ) : EmbServerEntry (κ → ServerT) :=
  { serverT.toEmbServer.through (.at_ server) with
    getFunction := some fun func => if s.functions server func then getFunction func else none
    isBroadcast := false }

variable (addr : κ → ℤ)

omit [DecidableEq κ] in
/-- `super_server_t::add_server`. -/
def addServer (s : SuperServerT κ) (server : κ) : SuperServerT κ × Bool :=
  if s.servers.any fun i => addr i == addr server then (s, false)
  else ({ s with servers := s.servers ++ [server] }, true)

omit [DecidableEq κ] in
/-- The loop of `super_server_t::_get_server`. -/
def serverAt (s : SuperServerT κ) (address : ℤ) : Option κ :=
  s.servers.find? fun i => addr i == address

/-- The `ssrv` of the super server. -/
def ssrv (s : SuperServerT κ) : EmbSuperServer (κ → ServerT) where
  getServer := some fun address => (s.serverAt addr address.toNat).map s.srv

end SuperServerT

inductive ServersInput (κ : Type)
  | addServer (server : κ)
  | addFunction (server : κ) (func : Byte)
  /-- An operation of one of the proxies, on the server at this address. -/
  | operate (proxy : ℕ) (address : Byte) (op : MemoryOp)

/-- An operation is one whose arguments have a request. -/
def ServersInput.HasRequest {κ : Type} : ServersInput κ → Prop
  | .operate _ _ op => op.1.wire ≠ none
  | _ => True

inductive ServersAnswer
  | added (ok : Bool)
  | did (result : Option ProxyResult)

/-- The proxies' transactions, and the super server. -/
structure RemoteServers (κ : Type) where
  proxies : ℕ → Transaction
  ssrv : SuperServerT κ

namespace RemoteServers

/-- New proxies, and a super server that nothing has been added to. -/
def fresh (function : Byte × Byte) (stores : κ → ServerT) : RemoteServers κ :=
  let pdu : EmbPdu := ⟨0, 0, 253, fun _ => 0⟩
  ⟨fun _ => Proxy.fresh function, ⟨[], fun _ _ => false, ⟨pdu, pdu, stores, []⟩⟩⟩

variable [DecidableEq κ] (addr : κ → ℤ) (alloc : ℕ → Bool)

/-- The operation throws (`none`) if a buffer cannot be resized, if no server answers, and if the
client does not take the answer. -/
def operate (s : RemoteServers κ) (proxy : ℕ) (address : Byte) (op : MemoryOp) :
    RemoteServers κ × Option ProxyResult :=
  let call := op.1.call
  let b := call.build.run alloc (s.proxies proxy)
  match b.1 with
  | none => ({ s with proxies := Function.update s.proxies proxy b.2 }, none)
  | some _ =>
    let reaction := embSuperServerOnReceiveReq (s.ssrv.ssrv addr) address.toNat
      { s.ssrv.run with rxPdu := s.ssrv.run.rxPdu.receive b.2.req.pdu }
    match reaction.sent with
    | [(_, answer)] =>
      let res := Proxy.doTransaction b.2 answer
      (⟨Function.update s.proxies proxy res.2, { s.ssrv with run := reaction.run }⟩,
        if res.1 ≠ 0 then none else some (call.result res.2))
    | _ => (⟨Function.update s.proxies proxy b.2, { s.ssrv with run := reaction.run }⟩, none)

def step (s : RemoteServers κ) : ServersInput κ → RemoteServers κ × ServersAnswer
  | .addServer server =>
    let r := s.ssrv.addServer addr server
    ({ s with ssrv := r.1 }, .added r.2)
  | .addFunction server func =>
    let r := s.ssrv.addFunction server func
    ({ s with ssrv := r.1 }, .added r.2)
  | .operate proxy address op =>
    let r := s.operate addr alloc proxy address op
    (r.1, .did r.2)

/-- The one server, with the proxies as they are. -/
def part (s : RemoteServers κ) (server : κ) : RemoteMemory :=
  ⟨s.proxies, s.ssrv.run.part (.at_ server)⟩

/-- The super server, with what the one server has become. -/
def put (s : RemoteServers κ) (server : κ) (r : RemoteMemory) : RemoteServers κ :=
  ⟨r.proxies, { s.ssrv with run := r.run.put (.at_ server) s.ssrv.run.store }⟩

end RemoteServers

/-! ## The memories -/

/-- Who is spoken to at an address, the functions it knows, and its memory. -/
structure ServerMemories (κ : Type) where
  owner : ℤ → Option κ
  knows : κ → Byte → Bool
  memory : κ → FlatMemory

namespace ServerMemories

variable [DecidableEq κ] (addr : κ → ℤ) (l : κ → MemoryLayout)

omit [DecidableEq κ] in
/-- The function of the operation's request is known. -/
def takes (m : ServerMemories κ) (server : κ) (op : MemoryOp) : Bool :=
  op.1.wire.any fun w => m.knows server w.1

/-- The first object that is added at an address is the one there.  An operation is on its memory
alone, and nothing is done if there is no object, or if it does not know the function. -/
def step (m : ServerMemories κ) : ServersInput κ → ServerMemories κ × ServersAnswer
  | .addServer server =>
    match m.owner (addr server) with
    | some _ => (m, .added false)
    | none =>
      ({ m with owner := Function.update m.owner (addr server) (some server) }, .added true)
  | .addFunction server func =>
    let functions := Function.update (m.knows server) func true
    ({ m with knows := Function.update m.knows server functions }, .added true)
  | .operate _ address op =>
    match m.owner address.toNat with
    | none => (m, .did none)
    | some server =>
      if m.takes server op then
        let r := (m.memory server).apply (l server) op.1
        ({ m with memory := Function.update m.memory server r.1 }, .did r.2)
      else (m, .did none)

omit [DecidableEq κ] in
/-- Nobody at any address, and what the blocks hold. -/
def start (stores : κ → ServerT) : ServerMemories κ :=
  ⟨fun _ => none, fun _ _ => false, fun k => (stores k).flatMemory⟩

end ServerMemories

end Emodbus
