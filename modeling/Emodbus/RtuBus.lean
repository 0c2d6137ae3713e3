import Emodbus.PartialWrites
import Emodbus.TcpClient

/-!
# A client and its servers on a serial line

Every station is its transport with the bytes that have arrived at its port; `none` is the client,
the others are super servers.  What one station writes arrives at all the others, a port takes as
many of the bytes it is offered as it likes, and a data event hands over as many as it likes.  When
the line is silent all the stations are told, one after the other in any order.
-/

namespace Emodbus

open Octets

variable {π κ σ : Type}

/-- A transport, and the bytes that its port has not handed over. -/
structure RtuStation where
  mbt : EmbRtu
  unread : List Byte

/-- The bytes that a port takes in these calls of `write_to_port`. -/
def RtuOut.takenBy (t : Taker Byte) (os : List RtuOut) : List Byte :=
  (RtuOut.offers os).flatMap t.take

/-- `emb_transport_send_packet` for each packet. -/
def rtuSendAll (t : Taker Byte) (mbt : EmbRtu) : List (ℤ × EmbPdu) → EmbRtu × List RtuOut
  | [] => (mbt, [])
  | (addr, pdu) :: ps =>
    let s := modbusRtuSendPacket mbt addr pdu (PortResult.took t).rtu
    let r := rtuSendAll t s.2.1 ps
    (r.1, s.2.2 ++ r.2)

namespace EmbSuperServer

/-- The server that `get_server` finds for the address. -/
def find (ssrv : EmbSuperServer σ) (addr : ℤ) : Option (EmbServerEntry σ) :=
  ssrv.getServer.bind fun getServer => getServer (BitVec.ofInt 8 addr)

def Knows (ssrv : EmbSuperServer σ) (addr : ℤ) : Prop := (ssrv.find addr).isSome = true

instance (ssrv : EmbSuperServer σ) (addr : ℤ) : Decidable (ssrv.Knows addr) :=
  inferInstanceAs (Decidable (_ = true))

/-- No server at this address would send an answer. -/
def Mute (ssrv : EmbSuperServer σ) (addr : ℤ) : Prop :=
  ∀ srv, ssrv.find addr = some srv → srv.isBroadcast = true

end EmbSuperServer

/-- A super server behind its transport, with the requests that it had a server for. -/
structure RtuServer (σ : Type) where
  txPdu : EmbPdu
  store : σ
  served : List (Served σ)

/-- The stations, and what has happened so far. -/
structure RtuBus (π κ σ : Type) where
  station : Option κ → RtuStation
  server : κ → RtuServer σ
  run : ClientRun π
  /-- What the user's pointers point to. -/
  pdus : π → EmbPdu
  started : List (ℤ × EmbClientTransaction π)
  ended : List (Ended π)

inductive BusInput (π κ : Type)
  | doTransaction (t : Taker Byte) (slaveAddr : ℤ) (transact : EmbClientTransaction π)
  | waitTimeout (t : Taker Byte)
  /-- A data event whose read returns `atMost + 1` bytes at most. -/
  | dataReceived (who : Option κ) (atMost : ℕ)
  | txBufEmpty (t : Taker Byte) (who : Option κ)
  /-- `emb_rtu_on_char_timeout` at all of these, in this order. -/
  | silence (t : Taker Byte) (order : List (Option κ))

namespace RtuBus

variable [DecidableEq κ]

/-- A station has changed like this and these bytes have gone out. -/
def write (s : RtuBus π κ σ) (who : Option κ) (mbt : EmbRtu) (bytes : List Byte) :
    RtuBus π κ σ :=
  { s with station := fun j =>
      if j = who then { s.station j with mbt := mbt }
      else { s.station j with unread := (s.station j).unread ++ bytes } }

/-! ## The client -/

/-- What the event did at the user's interface. -/
def newActs (user : ClientUser π) (s : RtuBus π κ σ) (i : ClientInput π) : List (ClientAct π) :=
  (Emodbus.clientEvent user s.run i).acts.drop s.run.acts.length

/-- An event of the client, with the packets it sends. -/
def clientEvent (t : Taker Byte) (user : ClientUser π) (s : RtuBus π κ σ) (i : ClientInput π) :
    RtuBus π κ σ :=
  let acts := s.newActs user i
  let r := rtuSendAll t (s.station none).mbt (ClientAct.sent acts)
  { s.write none r.1 (RtuOut.takenBy t r.2) with
    run := Emodbus.clientEvent user s.run i
    started := s.started ++ ClientAct.started acts
    ended := s.ended ++ (ClientAct.procsCalls acts).map fun e =>
      ⟨e.1, e.2, e.1.respPdu.map s.pdus⟩ }

/-- The client's transport, with the PDU that `rx_pdu` points to. -/
def view (s : RtuBus π κ σ) : EmbRtu :=
  { (s.station none).mbt with transport.rxPdu := s.run.cli.rxPdu.map s.pdus }

/-- The client once its transport is so, with the PDU it has written to. -/
def afterRead [DecidableEq π] (s : RtuBus π κ σ) (mbt : EmbRtu) : RtuBus π κ σ :=
  { s.write none mbt [] with
    pdus := match s.run.cli.rxPdu, mbt.transport.rxPdu with
      | some p, some pdu => Function.update s.pdus p pdu
      | _, _ => s.pdus }

def clientTimeout [DecidableEq π] (t : Taker Byte) (user : ClientUser π) (s : RtuBus π κ σ) :
    RtuBus π κ σ :=
  let r := embRtuOnCharTimeout s.view
  (RtuOut.upcalls r.2).foldl (fun s u => s.clientEvent t user (ClientNode.ofUpcall u))
    (s.afterRead r.1)

/-! ## The servers -/

variable (ssrv : κ → EmbSuperServer σ)

/-- What a super server does with a call from its transport. -/
def serve (t : Taker Byte) (k : κ) (s : RtuBus π κ σ) : Upcall → RtuBus π κ σ
  | .recvPacket addr pdu =>
    let run : SrvRun σ := ⟨pdu, (s.server k).txPdu, (s.server k).store, []⟩
    let res := embSuperServerOnReceiveReq (ssrv k) addr run
    let r := rtuSendAll t
      { (s.station (some k)).mbt with transport.rxPdu := some res.run.rxPdu } res.sent
    { s.write (some k) r.1 (RtuOut.takenBy t r.2) with
      server := Function.update s.server k
        { txPdu := res.run.txPdu
          store := res.run.store
          served := if (ssrv k).Knows addr then (s.server k).served ++ [⟨addr, run⟩]
            else (s.server k).served } }
  | .error _ => s

def serverTimeout (t : Taker Byte) (s : RtuBus π κ σ) (k : κ) : RtuBus π κ σ :=
  let r := embRtuOnCharTimeout (s.station (some k)).mbt
  (RtuOut.upcalls r.2).foldl (serve ssrv t k) (s.write (some k) r.1 [])

/-! ## Runs -/

variable [DecidableEq π]

def timeout (t : Taker Byte) (user : ClientUser π) (s : RtuBus π κ σ) : Option κ → RtuBus π κ σ
  | none => s.clientTimeout t user
  | some k => s.serverTimeout ssrv t k

/-- A data event. -/
def read (s : RtuBus π κ σ) (who : Option κ) (atMost : ℕ) : RtuBus π κ σ :=
  let st := s.station who
  let size := (st.mbt.rxBufSize - st.mbt.rxBufCounter).toNat
  let port := st.unread.take (atMost + 1)
  let r := embRtuPortEvent st.mbt (.dataReceived (.upTo port))
  { s with
    station := Function.update s.station who ⟨r.1, st.unread.drop (port.take size).length⟩ }

/-- The port of a station can take more. -/
def txBufEmpty (t : Taker Byte) (s : RtuBus π κ σ) (who : Option κ) : RtuBus π κ σ :=
  let r := embRtuPortEvent (s.station who).mbt (.txBufEmpty (PortResult.took t).rtu)
  s.write who r.1 (RtuOut.takenBy t r.2)

def step (user : ClientUser π) (s : RtuBus π κ σ) : BusInput π κ → RtuBus π κ σ × Unit
  | .doTransaction t slaveAddr transact =>
    (s.clientEvent t user (.doTransaction slaveAddr transact), ())
  | .waitTimeout t => (s.clientEvent t user .waitTimeout, ())
  | .dataReceived who atMost => (s.read who atMost, ())
  | .txBufEmpty t who => (s.txBufEmpty t who, ())
  | .silence t order => (order.foldl (timeout ssrv t user) s, ())

end RtuBus

/-! ## What the transactions are to come to -/

/-- How this answer to the request ends its transaction. -/
def answerEnd (req answer : EmbPdu) : ClientEnd :=
  if embCheckPduForException answer ≠ 0 then .error (embCheckPduForException answer)
  else if req.function ≠ answer.function then .error (-modbusRespWrongFunc)
  else .response

/-- The super server's reaction to the request. -/
def Served.reaction (ssrv : EmbSuperServer σ) (sv : Served σ) : SrvReaction σ :=
  embSuperServerOnReceiveReq ssrv sv.addr sv.run

/-- From the first of these stores every request has found the store that the one before it has
left, and the last one has left the second of these stores. -/
def Served.Replays (ssrv : EmbSuperServer σ) (store : σ) : List (Served σ) → σ → Prop
  | [], store' => store' = store
  | sv :: svs, store' =>
    sv.run.store = store ∧ Replays ssrv (sv.reaction ssrv).run.store svs store'

/-- It is the request of this transaction. -/
structure Served.IsOf (sv : Served σ) (a : ℤ × EmbClientTransaction π) : Prop where
  addr : sv.addr = a.1
  request : sv.run.rxPdu.Same a.2.reqPdu

namespace RtuBus

variable (ssrv : κ → EmbSuperServer σ)

/-- Every transport has been initialized, and no transaction has been started. -/
structure Fresh (s : RtuBus π κ σ) : Prop where
  station : ∀ j, ∃ mbt, s.station j = ⟨embRtuInitialize mbt, []⟩
  run : ∃ cli, s.run = ⟨embClientInit cli, []⟩ ∧ cli.rxPdu = none
  started : s.started = []
  ended : s.ended = []
  served : ∀ k, (s.server k).served = []

/-- All that was to be sent has been sent and read. -/
def Silent (s : RtuBus π κ σ) : Prop :=
  ∀ j, (s.station j).unread = [] ∧ embRtuHasDataToSend (s.station j).mbt = 0

/-- What the station's super server finds when the request arrives in this PDU. -/
def servedWith (s : RtuBus π κ σ) (k : κ) (a : ℤ × EmbClientTransaction π) (rx : EmbPdu) :
    Served σ :=
  ⟨a.1, ⟨rx.receive a.2.reqPdu, (s.server k).txPdu, (s.server k).store, []⟩⟩

/-- The station alone knows the address, and there is room for its answer. -/
structure AnsweredBy (s : RtuBus π κ σ) (a : ℤ × EmbClientTransaction π) (k : κ) : Prop where
  only : ∀ j, (ssrv j).Knows a.1 → j = k
  unicast : ∃ srv, (ssrv k).find a.1 = some srv ∧ srv.isBroadcast = false
  fits : ∀ rx rx' p, (s.station (some k)).mbt.transport.rxPdu = some rx →
    rx'.maxSize = rx.maxSize → a.2.respPdu = some p →
    let answer := ((s.servedWith k a rx').reaction (ssrv k)).run.txPdu
    1 ≤ answer.dataSize.toNat
      ∧ answer.dataSize.toNat + 4 ≤ (s.station (some k)).mbt.txBufSize.toNat
      ∧ (∀ j, j ≠ some k → answer.dataSize.toNat + 4 ≤ (s.station j).mbt.rxBufSize.toNat)
      ∧ answer.dataSize.toNat ≤ (s.pdus p).maxSize.toNat

/-- There is room for the request wherever it comes, and one station answers it or none does. -/
structure Carried (s : RtuBus π κ σ) (a : ℤ × EmbClientTransaction π) : Prop where
  addr : 0 ≤ a.1 ∧ a.1 ≤ 255
  hears : a.2.hasOnResponse = true ∧ a.2.hasOnError = true
  respPdu : a.2.respPdu ≠ none
  txRoom : a.2.reqPdu.dataSize.toNat + 4 ≤ (s.station none).mbt.txBufSize.toNat
  rxRoom : ∀ k, a.2.reqPdu.dataSize.toNat + 4 ≤ (s.station (some k)).mbt.rxBufSize.toNat
  pduRoom : ∀ k, (ssrv k).Knows a.1 → ∃ rx, (s.station (some k)).mbt.transport.rxPdu = some rx
    ∧ a.2.reqPdu.dataSize.toNat ≤ rx.maxSize.toNat
  outcome : (∀ k, (ssrv k).Mute a.1) ∨ ∃ k, AnsweredBy ssrv s a k

variable [DecidableEq κ] [DecidableEq π]

/-- A data event has something to be read, a silence comes to all the stations once what was sent
has been read, and the user gives up when the stations have been told. -/
def Orderly (s : RtuBus π κ σ) : BusInput π κ → Prop
  | .doTransaction _ _ _ => True
  | .waitTimeout _ => s.Silent ∧ ∀ j, (s.station j).mbt.rxBufCounter = 0
  | .dataReceived who _ => (s.station who).unread ≠ []
  | .txBufEmpty _ _ => True
  | .silence _ order => s.Silent ∧ order.Nodup ∧ ∀ j, j ∈ order

/-- The step is orderly, and the transactions that it starts can be carried. -/
def Admits (user : ClientUser π) (s : RtuBus π κ σ) (i : BusInput π κ) : Prop :=
  s.Orderly i ∧ ∀ a ∈ (s.step ssrv user i).1.started.drop s.started.length,
    Carried ssrv (s.step ssrv user i).1 a

omit [DecidableEq κ] [DecidableEq π]

/-- The station has served those of the first `n` transactions whose address it knows, in order. -/
def Delivered (s : RtuBus π κ σ) (n : ℕ) (k : κ) : Prop :=
  List.Forall₂ Served.IsOf (s.server k).served
    ((s.started.take n).filter fun a => (ssrv k).Knows a.1)

/-- What the station has served for the transaction with this number. -/
def servedFor (s : RtuBus π κ σ) (k : κ) (i : ℕ) : Option (Served σ) :=
  (s.server k).served[((s.started.take i).filter fun a => (ssrv k).Knows a.1).length]?

/-- The transaction has come to the end that a station's answer gives it, with this answer in its
PDU, or to a timeout if no station answers. -/
structure Fulfils (s : RtuBus π κ σ) (i : ℕ) (e : Ended π) (a : ℤ × EmbClientTransaction π) :
    Prop where
  transact : e.transact = a.2
  outcome : (∀ k, (ssrv k).Mute a.1) ∧ e.fin = .error (-modbusRespTimeout)
    ∨ ∃ k sv answer, servedFor ssrv s k i = some sv
      ∧ (sv.reaction (ssrv k)).sent = [(a.1, answer)]
      ∧ e.fin = answerEnd a.2.reqPdu answer ∧ ∃ pdu, e.pdu = some pdu ∧ pdu.Same answer

/-- The transactions have ended once each and in order, the last one perhaps not yet.  Every station
has served those it knows, one after the other on its store. -/
structure InOrder (s₀ s : RtuBus π κ σ) : Prop where
  pending : s.ended.length ≤ s.started.length ∧ s.started.length ≤ s.ended.length + 1
  delivered : ∃ n, s.ended.length ≤ n ∧ n ≤ s.started.length ∧ ∀ k, Delivered ssrv s n k
  stores : ∀ k, Served.Replays (ssrv k) (s₀.server k).store (s.server k).served (s.server k).store
  fulfils : ∀ (i : ℕ) (e : Ended π), s.ended[i]? = some e →
    ∃ a, s.started[i]? = some a ∧ Fulfils ssrv s i e a

end RtuBus

end Emodbus
