import Emodbus.Proofs.ClientTurn
import Emodbus.Proofs.Server
import Emodbus.Proofs.TcpLink

/-!
# Every transaction is answered

One frame at most is under way.  It is the request of the transaction that is pending, or the
answer to it (`Phase`); when there is none, no transaction is pending.  A data event that completes
the request makes the super server answer it, and one that completes the answer ends the
transaction, which is when user code may start the next.
-/

namespace Emodbus

open Octets Mealy

variable {π ι σ : Type}

/-! ## The super server's answer -/

/-- The function code of a request has no exception bit. -/
theorem function_and_eq_zero :
    ∀ function : Byte, function.toNat < 0x80 → function &&& 0x80 = 0 := by
  decide

theorem check_receive (p : EmbPdu) {pdu : EmbPdu} (h : 1 ≤ pdu.dataSize.toNat) :
    embCheckPduForException (p.receive pdu) = embCheckPduForException pdu := by
  have hdata : (p.receive pdu).data 0 = pdu.data 0 := if_pos h
  unfold embCheckPduForException
  rw [hdata]
  rfl

/-- What a request is answered with. -/
theorem onReceiveReq_handled {ssrv : EmbSuperServer σ} {sv : Served σ} {res : Byte × SrvRun σ}
    (h : sv.Handled ssrv res) (htx : 1 ≤ sv.run.txPdu.maxSize.toNat) :
    ∃ answer, (embSuperServerOnReceiveReq ssrv sv.addr sv.run).sent = [(sv.addr, answer)]
      ∧ (res.1 ≠ 0 → answer.dataSize = 1
        ∧ embCheckPduForException answer = -(embExceptionBase + res.1.toNat))
      ∧ (res.1 = 0 → answer = res.2.txPdu) := by
  obtain ⟨srv, func, hasks, rfl⟩ := h
  have hmax := (func.sameMax srv.toEmbServer sv.run).tx
  refine ⟨_, (onReceiveReq_eq hasks).2, fun hcode => ?_, fun hcode => ?_⟩
  · rw [callFunction_exception hasks hcode]
    unfold answerException
    have hroom : 1 ≤ (func.call srv.toEmbServer sv.run).2.txPdu.maxSize.toNat := by
      rw [hmax]
      exact htx
    refine ⟨?_, ?_⟩
    · unfold embBuildExceptionPdu
      dsimp only
      rw [if_neg (by omega)]
    · rw [exception_decoded hroom, Int.add_comm]
  · rw [callFunction_ok hasks hcode]

theorem unitId_toNat {f : TcpFrame} {id : Word} {addr : ℤ} {pdu : EmbPdu}
    (h : f.Packs id addr pdu) (haddr : 0 ≤ addr ∧ addr ≤ 255) : (f.unitId.toNat : ℤ) = addr := by
  rw [h.unitId, BitVec.toNat_ofInt]
  omega

/-- A server node answers the request in its buffer with a frame of the same transaction id. -/
theorem handleAll_request {ssrv : EmbSuperServer σ} {n : SrvNode σ ι} {f : TcpFrame} {addr : ℤ}
    {pdu : EmbPdu} {res : Byte × SrvRun σ}
    (h : Served.Handled ssrv ⟨addr, ⟨pdu, n.txPdu, n.store, []⟩⟩ res)
    (hs : n.tcp.transport.isServer = true)
    (hbuf : Mem.slice n.tcp.rxBuf 0 f.bytes.length = f.bytes) (htx : 1 ≤ n.txPdu.maxSize.toNat)
    (hsize : res.1 = 0 → 1 ≤ res.2.txPdu.dataSize.toNat
      ∧ res.2.txPdu.dataSize.toNat ≤ maxPduDataSize) :
    ∃ answer g n', SrvNode.handleAll ssrv wroteAll n [.recvPacket addr pdu]
        = (n', [.writeToPort n.tcp.tcpClientId g.bytes])
      ∧ TcpFrame.Packs g f.transactId addr answer
      ∧ (res.1 ≠ 0 → answer.dataSize = 1
        ∧ embCheckPduForException answer = -(embExceptionBase + res.1.toNat))
      ∧ (res.1 = 0 → answer = res.2.txPdu)
      ∧ SameRx n'.tcp n.tcp ∧ n'.tcp.transport.isServer = true
      ∧ (∃ rx, n'.tcp.transport.rxPdu = some rx ∧ rx.maxSize = pdu.maxSize)
      ∧ n'.txPdu.maxSize = n.txPdu.maxSize := by
  obtain ⟨answer, hsent, hrefused, hanswered⟩ := onReceiveReq_handled h htx
  have hmax := onReceiveReq_sameMax ssrv addr ⟨pdu, n.txPdu, n.store, []⟩
  dsimp only at hsent
  set run := embSuperServerOnReceiveReq ssrv addr ⟨pdu, n.txPdu, n.store, []⟩ with hrun
  have hbounds : 1 ≤ answer.dataSize.toNat ∧ answer.dataSize.toNat ≤ maxPduDataSize := by
    rcases eq_or_ne res.1 0 with hcode | hcode
    · rw [hanswered hcode]
      exact hsize hcode
    · rw [(hrefused hcode).1]
      decide
  set t : EmbTcp ι := { n.tcp with transport.rxPdu := some run.run.rxPdu } with ht
  have hid : t.outId = f.transactId := by
    have hb := f.length_bytes_bounds
    have hbuf' : EmbTcp.transactId t.rxBuf = f.transactId.swap :=
      transactId_of_slice (hbuf.trans (List.take_length).symm) (by omega)
    unfold EmbTcp.outId
    rw [if_pos hs, hbuf', Word.swap_swap]
  obtain ⟨g, hpacks, c, buf, -, hsend⟩ := sendPacket_frame t addr wroteAll hbounds.1 hbounds.2
  rw [hid] at hpacks
  refine ⟨answer, g, ⟨(modbusTcpSendPacket t addr answer wroteAll).2.1, run.run.txPdu,
    run.run.store⟩, ?_, hpacks, hrefused, hanswered, ?_, ?_, ?_, hmax.tx⟩
  · unfold SrvNode.handleAll SrvNode.handle
    dsimp only
    rw [← hrun, ← ht, hsent]
    simp only [SrvNode.sendAll, SrvNode.handleAll, hsend, List.append_nil]
    rfl
  · rw [hsend]
    exact ⟨rfl, rfl, rfl⟩
  · rw [hsend]
    exact hs
  · rw [hsend]
    exact ⟨_, rfl, hmax.rx⟩

/-! ## Where the pair is between two events -/

/-- The client waits for the answer to this transaction. -/
structure EmbClient.Waits (cli : EmbClient π) (a : ℤ × EmbClientTransaction π) (p : π) : Prop where
  currAddr : cli.currAddr = a.1
  currTransaction : cli.currTransaction = some a.2
  rxPdu : cli.rxPdu = some p
  respPdu : a.2.respPdu = some p

namespace TcpPair

/-- What holds between any two events. -/
structure Sound (ssrv : EmbSuperServer σ) (s : TcpPair π ι σ) : Prop where
  client : s.client.tcp.transport.isServer = false
  server : s.server.tcp.transport.isServer = true
  rxPdu : ∃ rx, s.server.tcp.transport.rxPdu = some rx ∧ maxPduDataSize ≤ rx.maxSize.toNat
  txPdu : 1 ≤ s.server.txPdu.maxSize.toNat
  fulfils : ∀ (k : ℕ) (e : Ended π), s.ended[k]? = some e →
    ∃ sv a, s.served[k]? = some sv ∧ s.started[k]? = some a ∧ e.Fulfils ssrv sv a

/-- Nothing is pending. -/
structure Idle (s : TcpPair π ι σ) : Prop where
  rxPdu : s.client.run.cli.rxPdu = none
  started : s.started.length = s.ended.length
  served : s.served.length = s.ended.length

/-- The request `f` is under way. -/
structure Requesting (ssrv : EmbSuperServer σ) (s : TcpPair π ι σ)
    (a : ℤ × EmbClientTransaction π) (p : π) (f : TcpFrame) : Prop where
  waits : s.client.run.cli.Waits a p
  answerable : s.Answerable ssrv a
  packs : f.Packs f.transactId a.1 a.2.reqPdu
  transactId : EmbTcp.transactId s.client.tcp.txBuf = f.transactId.swap
  started : s.started.length = s.ended.length + 1
  last : s.started[s.ended.length]? = some a
  served : s.served.length = s.ended.length

/-- The answer `g` is under way. -/
structure Responding (ssrv : EmbSuperServer σ) (s : TcpPair π ι σ)
    (a : ℤ × EmbClientTransaction π) (p : π) (sv : Served σ) (res : Byte × SrvRun σ)
    (answer : EmbPdu) (g : TcpFrame) : Prop where
  waits : s.client.run.cli.Waits a p
  addr : 0 ≤ a.1 ∧ a.1 ≤ 255
  hears : a.2.hasOnResponse = true ∧ a.2.hasOnError = true
  packs : g.Packs g.transactId a.1 answer
  transactId : EmbTcp.transactId s.client.tcp.txBuf = g.transactId.swap
  fits : g.data.length ≤ (s.client.pdus p).maxSize.toNat
  started : s.started.length = s.ended.length + 1
  last : s.started[s.ended.length]? = some a
  served : s.served.length = s.ended.length + 1
  served_last : s.served[s.ended.length]? = some sv
  served_addr : sv.addr = a.1
  request : sv.run.rxPdu.Same a.2.reqPdu
  handled : sv.Handled ssrv res
  refused : res.1 ≠ 0 → embCheckPduForException answer = -(embExceptionBase + res.1.toNat)
  answered : res.1 = 0 → embCheckPduForException answer = 0
    ∧ a.2.reqPdu.function = answer.function ∧ answer = res.2.txPdu

/-- What is under way to the server, and what to the client. -/
inductive Phase (ssrv : EmbSuperServer σ) (s : TcpPair π ι σ) :
    Option TcpFrame → Option TcpFrame → Prop
  | idle (h : s.Idle) : Phase ssrv s none none
  | requesting {a p f} (h : s.Requesting ssrv a p f) : Phase ssrv s (some f) none
  | responding {a p sv res answer g} (h : s.Responding ssrv a p sv res answer g) :
      Phase ssrv s none (some g)

structure Inv (ssrv : EmbSuperServer σ) (s : TcpPair π ι σ) : Prop where
  sound : s.Sound ssrv
  phase : ∃ request response, s.Phase ssrv request response
    ∧ s.server.tcp.Expects s.toServer request ∧ s.client.tcp.Expects s.toClient response

/-- What the data events have still to bring. -/
def todo (s : TcpPair π ι σ) : ℕ :=
  TcpSession.todo ⟨s.server.tcp, s.toServer⟩ + TcpSession.todo ⟨s.client.tcp, s.toClient⟩

/-- No frame has more than 261 bytes. -/
def spent (s : TcpPair π ι σ) : ℕ := 522 * (s.started.length + s.served.length)

/-- The two differ in their receivers, and in what user code tried, at most. -/
structure Alike (s s' : TcpPair π ι σ) : Prop where
  cli : s'.client.run.cli = s.client.run.cli
  pdus : s'.client.pdus = s.client.pdus
  isServer : s'.client.tcp.transport.isServer = s.client.tcp.transport.isServer
  txBuf : s'.client.tcp.txBuf = s.client.tcp.txBuf
  transport : s'.server.tcp.transport = s.server.tcp.transport
  txPdu : s'.server.txPdu = s.server.txPdu
  store : s'.server.store = s.server.store
  started : s'.started = s.started
  served : s'.served = s.served
  ended : s'.ended = s.ended

section Alike

variable {ssrv : EmbSuperServer σ} {s s' : TcpPair π ι σ} {a : ℤ × EmbClientTransaction π} {p : π}

theorem Answerable.congr (h : s.Answerable ssrv a) (hs : Alike s s') : s'.Answerable ssrv a where
  addr := h.addr
  function := h.function
  dataSize := h.dataSize
  hears := h.hears
  answer := by
    obtain ⟨p, hp, hall⟩ := h.answer
    refine ⟨p, hp, fun rx hrx => ?_⟩
    rw [hs.transport] at hrx
    unfold servedWith
    rw [hs.txPdu, hs.store, hs.pdus]
    exact hall rx hrx

theorem Sound.congr (h : s.Sound ssrv) (hs : Alike s s') : s'.Sound ssrv where
  client := hs.isServer.trans h.client
  server := by rw [hs.transport]; exact h.server
  rxPdu := by rw [hs.transport]; exact h.rxPdu
  txPdu := by rw [hs.txPdu]; exact h.txPdu
  fulfils := by rw [hs.ended, hs.served, hs.started]; exact h.fulfils

theorem Phase.congr {request response : Option TcpFrame} (h : s.Phase ssrv request response)
    (hs : Alike s s') : s'.Phase ssrv request response := by
  cases h with
  | idle h =>
    refine .idle ⟨?_, ?_, ?_⟩
    · rw [hs.cli]
      exact h.rxPdu
    · rw [hs.started, hs.ended]
      exact h.started
    · rw [hs.served, hs.ended]
      exact h.served
  | @requesting a p f h =>
    refine .requesting (p := p) ⟨?_, h.answerable.congr hs, h.packs, ?_, ?_, ?_, ?_⟩
    · rw [hs.cli]
      exact h.waits
    · rw [hs.txBuf]
      exact h.transactId
    · rw [hs.started, hs.ended]
      exact h.started
    · rw [hs.started, hs.ended]
      exact h.last
    · rw [hs.served, hs.ended]
      exact h.served
  | @responding a p sv res answer g h =>
    refine .responding (p := p) ⟨?_, h.addr, h.hears, h.packs, ?_, ?_, ?_, ?_, ?_, ?_,
      h.served_addr, h.request, h.handled, h.refused, h.answered⟩
    · rw [hs.cli]
      exact h.waits
    · rw [hs.txBuf]
      exact h.transactId
    · rw [hs.pdus]
      exact h.fits
    · rw [hs.started, hs.ended]
      exact h.started
    · rw [hs.started, hs.ended]
      exact h.last
    · rw [hs.served, hs.ended]
      exact h.served
    · rw [hs.served, hs.ended]
      exact h.served_last

/-- What is under way is the same, and the receivers still expect it. -/
theorem Inv.of_alike {request response : Option TcpFrame} (hs : Alike s s') (hsound : s.Sound ssrv)
    (hphase : s.Phase ssrv request response)
    (hserver : s'.server.tcp.Expects s'.toServer request)
    (hclient : s'.client.tcp.Expects s'.toClient response) : s'.Inv ssrv :=
  ⟨hsound.congr hs, request, response, hphase.congr hs, hserver, hclient⟩

end Alike

/-! ## A turn of the client -/

section Turn

variable {user : ClientUser π} {s : TcpPair π ι σ} {i : ClientInput π} {r : ClientRun π}
  {ends : List (EmbClientTransaction π × ClientEnd)} {xs : List (ℤ × EmbClientTransaction π)}

/-- What an event of the client comes to. -/
theorem clientEvent_eq (h : r.Goes (Emodbus.clientEvent user s.client.run i) ends xs)
    (hacts : r.acts = s.client.run.acts) :
    let sends := SrvNode.sendAll wroteAll s.client.tcp (xs.map fun a => (a.1, a.2.reqPdu))
    let told := ends.map fun e => (⟨e.1, e.2, e.1.respPdu.map s.client.pdus⟩ : Ended π)
    s.clientEvent user i = ({ s with
      client := ⟨sends.1, Emodbus.clientEvent user s.client.run i, s.client.pdus⟩
      toServer := s.toServer ++ TcpOut.written sends.2
      started := s.started ++ xs
      ended := s.ended ++ told }, told) := by
  obtain ⟨news, hnews, hends, hstarted, hsent⟩ := h.acts
  have hdrop : s.client.newActs user i = news := by
    unfold ClientNode.newActs
    rw [hnews, hacts, List.drop_left]
  unfold TcpPair.clientEvent ClientNode.handle
  rw [hdrop]
  dsimp only
  rw [hends, hstarted, hsent]

/-- What the event tells goes to the logs. -/
theorem Sound.clientEvent {ssrv : EmbSuperServer σ} (hsound : s.Sound ssrv)
    (h : r.Goes (Emodbus.clientEvent user s.client.run i) ends xs)
    (hacts : r.acts = s.client.run.acts)
    (htold : ∀ (k : ℕ) (e : EmbClientTransaction π × ClientEnd), ends[k]? = some e →
      ∃ sv a, s.served[s.ended.length + k]? = some sv ∧ s.started[s.ended.length + k]? = some a
        ∧ Ended.Fulfils ssrv ⟨e.1, e.2, e.1.respPdu.map s.client.pdus⟩ sv a) :
    ∀ (k : ℕ) (e : Ended π), (s.clientEvent user i).1.ended[k]? = some e →
      ∃ sv a, (s.clientEvent user i).1.served[k]? = some sv
        ∧ (s.clientEvent user i).1.started[k]? = some a ∧ e.Fulfils ssrv sv a := by
  intro k e he
  rw [clientEvent_eq h hacts] at he ⊢
  dsimp only at he ⊢
  have hold : ∀ a, s.started[k]? = some a → (s.started ++ xs)[k]? = some a := by
    intro a ha
    rw [List.getElem?_append_left (List.getElem?_eq_some_iff.1 ha).1]
    exact ha
  rcases Nat.lt_or_ge k s.ended.length with hk | hk
  · rw [List.getElem?_append_left hk] at he
    obtain ⟨sv, a, hsv, ha, hful⟩ := hsound.fulfils k e he
    exact ⟨sv, a, hsv, hold a ha, hful⟩
  · rw [List.getElem?_append_right hk, List.getElem?_map] at he
    obtain ⟨e', he', rfl⟩ := Option.map_eq_some_iff.1 he
    obtain ⟨sv, a, hsv, ha, hful⟩ := htold _ e' he'
    rw [Nat.add_sub_cancel' hk] at hsv ha
    exact ⟨sv, a, hsv, hold a ha, hful⟩

/-- With nothing under way, user code starts nothing, or one request is under way then. -/
theorem turn {ssrv : EmbSuperServer σ} (hsound : s.Sound ssrv)
    (h : r.Goes (Emodbus.clientEvent user s.client.run i) ends xs)
    (hacts : r.acts = s.client.run.acts) (hidle : r.cli.rxPdu = none)
    (hserver : s.server.tcp.Expects s.toServer none)
    (hclient : s.client.tcp.Expects s.toClient none)
    (hstarted : s.started.length = s.ended.length + ends.length)
    (hserved : s.served.length = s.ended.length + ends.length)
    (htold : ∀ (k : ℕ) (e : EmbClientTransaction π × ClientEnd), ends[k]? = some e →
      ∃ sv a, s.served[s.ended.length + k]? = some sv ∧ s.started[s.ended.length + k]? = some a
        ∧ Ended.Fulfils ssrv ⟨e.1, e.2, e.1.respPdu.map s.client.pdus⟩ sv a)
    (hans : ∀ a ∈ (s.clientEvent user i).1.started.drop s.started.length,
      (s.clientEvent user i).1.Answerable ssrv a) :
    let s' := (s.clientEvent user i).1
    s'.Inv ssrv ∧ s'.todo + s.spent ≤ s.todo + s'.spent := by
  have hfulfils := hsound.clientEvent h hacts htold
  have hcli := h.cli
  have honce := h.once
  rw [clientEvent_eq h hacts] at hans hfulfils ⊢
  dsimp only at hans hfulfils ⊢
  rw [List.drop_left] at hans
  match xs, honce fun a ha => by obtain ⟨p, hp, -⟩ := (hans a ha).answer; simp [hp] with
  | [], _ =>
    refine ⟨⟨⟨hsound.client, hsound.server, hsound.rxPdu, hsound.txPdu, hfulfils⟩, none, none,
      .idle ⟨?_, ?_, ?_⟩, ?_, hclient⟩, ?_⟩
    · rw [hcli]
      exact hidle
    · simp [hstarted]
    · simp [hserved]
    · exact ⟨hserver.1, hserver.2.1, by rw [hserver.2.2]; rfl⟩
    · simp [todo, spent, TcpOut.written, TcpOut.writes, SrvNode.sendAll]
  | [a], _ =>
    have ha := hans a List.mem_cons_self
    obtain ⟨p, hp, -⟩ := ha.answer
    obtain ⟨f, hpacks, c, buf, hid, hsend⟩ := sendPacket_frame s.client.tcp a.1 wroteAll
      ha.dataSize.1 ha.dataSize.2
    have hall : SrvNode.sendAll wroteAll s.client.tcp ([a].map fun a => (a.1, a.2.reqPdu))
        = ({ s.client.tcp with
              txBuf := buf
              txPktSize := a.2.reqPdu.dataSize.toNat + 2 + 6
              txPktCounter := c }, [.writeToPort s.client.tcp.tcpClientId f.bytes]) := by
      simp only [List.map_cons, List.map_nil, SrvNode.sendAll, hsend, List.append_nil]
    have hwritten : TcpOut.written [(.writeToPort s.client.tcp.tcpClientId f.bytes : TcpOut ι)]
        = f.bytes := List.append_nil _
    rw [hall, hwritten] at ha ⊢
    refine ⟨⟨⟨hsound.client, hsound.server, hsound.rxPdu, hsound.txPdu, hfulfils⟩, some f, none,
      .requesting (p := p) ⟨?_, ha, ?_, ?_, ?_, ?_, ?_⟩, hserver.sent f,
      hclient.congr ⟨rfl, rfl, rfl⟩⟩, ?_⟩
    · rw [hcli]
      exact ⟨rfl, rfl, hp, hp⟩
    · exact ⟨rfl, hpacks.unitId, hpacks.function, hpacks.data⟩
    · rw [hpacks.transactId]
      exact hid
    · simp [hstarted]
    · rw [List.length_append, List.length_map, ← hstarted, List.getElem?_concat_length]
    · simp [hserved]
    · have hb := f.length_bytes_bounds
      simp only [todo, spent, TcpSession.todo, List.length_append, List.length_singleton]
      omega

end Turn

/-! ## Data events -/

section Data

variable {ssrv : EmbSuperServer σ} {user : ClientUser π} {s : TcpPair π ι σ}

/-- The request has arrived and is answered. -/
theorem Requesting.served_next {a : ℤ × EmbClientTransaction π} {p : π} {f : TcpFrame}
    (h : s.Requesting ssrv a p f) {rx answer : EmbPdu} {g : TcpFrame} {res : Byte × SrvRun σ}
    {n : SrvNode σ ι}
    (hpacks : TcpFrame.Packs g f.transactId a.1 answer)
    (hhandled : (s.servedWith a.1 a.2.reqPdu rx).Handled ssrv res)
    (hrefused : res.1 ≠ 0 → embCheckPduForException answer = -(embExceptionBase + res.1.toNat))
    (hanswered : res.1 = 0 → answer = res.2.txPdu ∧ res.2.txPdu.function = a.2.reqPdu.function)
    (hfits : g.data.length ≤ (s.client.pdus p).maxSize.toNat) (unread : List Byte) :
    Responding ssrv { s with
      server := n
      toServer := []
      toClient := unread
      served := s.served ++ [s.servedWith a.1 a.2.reqPdu rx] }
      a p (s.servedWith a.1 a.2.reqPdu rx) res answer g where
  waits := h.waits
  addr := h.answerable.addr
  hears := h.answerable.hears
  packs := ⟨rfl, hpacks.unitId, hpacks.function, hpacks.data⟩
  transactId := by
    rw [hpacks.transactId]
    exact h.transactId
  fits := hfits
  started := h.started
  last := h.last
  served := by simp [h.served]
  served_last := by rw [← h.served, List.getElem?_concat_length]
  served_addr := rfl
  request := EmbPdu.receive_same _ _
  handled := hhandled
  refused := hrefused
  answered hcode := by
    obtain ⟨rfl, hfun⟩ := hanswered hcode
    refine ⟨?_, hfun.symm, rfl⟩
    have hbit : res.2.txPdu.function &&& 0x80 = 0 := by
      rw [hfun]
      exact function_and_eq_zero _ h.answerable.function
    unfold embCheckPduForException
    rw [if_neg (not_not.2 hbit)]

/-- The answer has arrived and is told. -/
theorem Responding.goes {a : ℤ × EmbClientTransaction π} {p : π} {sv : Served σ}
    {res : Byte × SrvRun σ} {answer : EmbPdu} {g : TcpFrame}
    (h : s.Responding ssrv a p sv res answer g) (user : ClientUser π)
    (hsize : 1 ≤ answer.dataSize.toNat) (dst : EmbPdu) :
    ∃ fin xs, s.client.run.clear.Goes
        (Emodbus.clientEvent user s.client.run (.recvPacket a.1 (dst.receive answer)))
        [(a.2, fin)] xs
      ∧ ∀ told : Ended π, told.transact = a.2 → told.fin = fin →
        told.pdu = some (dst.receive answer) → told.Fulfils ssrv sv a := by
  have hcheck := check_receive dst hsize
  obtain ⟨xs, hxs⟩ := ClientRun.Goes.receivePkt user a.2 h.waits.currTransaction a.1
    (dst.receive answer)
  have haddr : ¬ s.client.run.cli.currAddr ≠ a.1 := not_not.2 h.waits.currAddr
  unfold packetEnd at hxs
  rw [if_neg haddr, hcheck] at hxs
  rcases eq_or_ne res.1 0 with hcode | hcode
  · obtain ⟨hok, hfun, heq⟩ := h.answered hcode
    have hfun' : a.2.reqPdu.function = (dst.receive answer).function := hfun
    have htold : a.2.told .response = [(a.2, .response)] := if_pos h.hears.1
    rw [if_neg (not_not.2 hok), if_neg (not_not.2 hfun'), htold] at hxs
    refine ⟨_, xs, hxs, fun told ht hfin hpdu => ⟨ht, h.served_addr, h.request, res, h.handled,
      fun hne => absurd hcode hne, fun _ => ⟨hfin, _, hpdu, ?_⟩⟩⟩
    rw [← heq]
    exact EmbPdu.receive_same dst answer
  · have hexc := h.refused hcode
    have hne : embCheckPduForException answer ≠ 0 := by
      rw [hexc]
      unfold embExceptionBase
      omega
    have htold (errno : ℤ) : a.2.told (.error errno) = [(a.2, .error errno)] := if_pos h.hears.2
    rw [if_pos hne, htold] at hxs
    refine ⟨_, xs, hxs, fun told ht hfin hpdu => ⟨ht, h.served_addr, h.request, res, h.handled,
      fun _ => ?_, fun h0 => absurd h0 hcode⟩⟩
    rw [hfin, hexc]

/-- It is the pending one that is told, with the answer in its PDU. -/
theorem Responding.told {a : ℤ × EmbClientTransaction π} {p : π} {sv : Served σ}
    {res : Byte × SrvRun σ} {answer pdu : EmbPdu} {g : TcpFrame} {fin : ClientEnd}
    {pdus : π → EmbPdu} (h : s.Responding ssrv a p sv res answer g) (hpdu : pdus p = pdu)
    (hfulfils : ∀ told : Ended π, told.transact = a.2 → told.fin = fin →
      told.pdu = some pdu → told.Fulfils ssrv sv a)
    (k : ℕ) (e : EmbClientTransaction π × ClientEnd) (he : [(a.2, fin)][k]? = some e) :
    ∃ sv a, s.served[s.ended.length + k]? = some sv ∧ s.started[s.ended.length + k]? = some a
      ∧ Ended.Fulfils ssrv ⟨e.1, e.2, e.1.respPdu.map pdus⟩ sv a := by
  rw [List.getElem?_singleton] at he
  split_ifs at he with hk
  obtain rfl := Option.some.inj he
  subst hk
  refine ⟨sv, a, h.served_last, h.last, hfulfils _ rfl rfl ?_⟩
  dsimp only
  rw [h.waits.respPdu, ← hpdu]
  rfl

/-- The server has handled a request. -/
theorem Sound.serve (h : s.Sound ssrv) {n : SrvNode σ ι} (hserver : n.tcp.transport.isServer = true)
    (hrx : ∃ rx, n.tcp.transport.rxPdu = some rx ∧ maxPduDataSize ≤ rx.maxSize.toNat)
    (htx : n.txPdu.maxSize = s.server.txPdu.maxSize) (sv : Served σ) (unread : List Byte) :
    Sound ssrv { s with
      server := n
      toServer := []
      toClient := unread
      served := s.served ++ [sv] } where
  client := h.client
  server := hserver
  rxPdu := hrx
  txPdu := by
    rw [htx]
    exact h.txPdu
  fulfils k e he := by
    obtain ⟨sv', a, hsv, ha, hful⟩ := h.fulfils k e he
    refine ⟨sv', a, ?_, ha, hful⟩
    dsimp only
    rw [List.getElem?_append_left (List.getElem?_eq_some_iff.1 hsv).1]
    exact hsv

section Inv

variable [DecidableEq π]

theorem serverData_inv (h : s.Inv ssrv) (client : Option ι) (atMost : ℕ) :
    let s' := (s.step ssrv user (.serverData client atMost)).1
    s'.Inv ssrv ∧ s.busy (.serverData client atMost : PairInput π ι) + s'.todo + s.spent
      ≤ s.todo + s'.spent := by
  obtain ⟨request, response, hphase, hserver, hclient⟩ := h.phase
  obtain ⟨htodo, hpart | ⟨f, rfl, hleft, hwhole⟩⟩ := hserver.event client atMost
  -- nothing is handed up
  · obtain ⟨hnext, hups, buf, count, curr, heq⟩ := hpart
    unfold step SrvNode.dataReceived
    dsimp only
    rw [hups]
    simp only [SrvNode.handleAll, requests, List.filterMap_nil, TcpOut.written, TcpOut.writes,
      List.flatMap_nil, List.append_nil]
    refine ⟨.of_alike (s := s) ?_ h.sound hphase hnext hclient, ?_⟩
    · rw [heq]
      exact ⟨rfl, rfl, rfl, rfl, rfl, rfl, rfl, rfl, rfl, rfl⟩
    · unfold busy todo spent
      dsimp only
      omega
  -- the request is there
  · cases hphase with | @requesting a p f hreq =>
    obtain ⟨rx, hrx, hroom⟩ := h.sound.rxPdu
    obtain ⟨buf, curr, hcurr, hslice, heq, hups⟩ := hwhole rx hrx (f.fits.trans hroom)
      (.inl h.sound.server)
    have hans := hreq.answerable
    obtain ⟨p', hp', hall⟩ := hans.answer
    obtain rfl : p = p' := Option.some.inj (hreq.waits.respPdu.symm.trans hp')
    obtain ⟨res, hhandled, hexc, hok⟩ := hall rx hrx
    rw [copiedTo_eq_receive hreq.packs hslice, unitId_toNat hreq.packs hans.addr] at hups
    unfold step SrvNode.dataReceived
    dsimp only
    rw [hups, hleft, heq]
    rw [heq, hleft] at htodo
    set n : SrvNode σ ι := { s.server with
      tcp := { s.server.tcp with
        tcpClientId := client
        rxBuf := buf
        rxPktCounter := 0
        currRxLength := curr
        transport.rxPdu := some (f.copiedTo buf rx) } } with hn
    obtain ⟨answer, g, n', hhandle, hpacks, hrefused, hanswered, hsame, hflag, ⟨rx', hrx', hmax⟩,
      htx⟩ := handleAll_request (n := n) hhandled h.sound.server hslice h.sound.txPdu
        fun hcode => ⟨(hok hcode).2.1, (hok hcode).2.2.1⟩
    rw [hhandle]
    have hlen : g.data.length = answer.dataSize.toNat := by
      rw [hpacks.data, EmbPdu.length_bytes]
    have hwritten : TcpOut.written [(.writeToPort n.tcp.tcpClientId g.bytes : TcpOut ι)]
        = g.bytes := List.append_nil _
    have hfits : g.data.length ≤ (s.client.pdus p).maxSize.toNat := by
      rw [hlen]
      rcases eq_or_ne res.1 0 with hcode | hcode
      · rw [hanswered hcode]
        exact (hok hcode).2.2.2
      · rw [(hrefused hcode).1]
        exact hexc hcode
    have hrequests : requests s.server [.recvPacket a.1 (rx.receive a.2.reqPdu)]
        = [s.servedWith a.1 a.2.reqPdu rx] := rfl
    rw [hrequests, hwritten]
    have hserver' : n'.tcp.Expects [] none :=
      ⟨hsame.counter.trans rfl, hsame.curr.trans_le hcurr, rfl⟩
    have hroom' : maxPduDataSize ≤ rx'.maxSize.toNat := by
      rw [hmax]
      exact hroom
    refine ⟨⟨h.sound.serve hflag ⟨rx', hrx', hroom'⟩ htx _ _, none, some g, .responding
      (hreq.served_next (n := n') hpacks hhandled (fun hcode => (hrefused hcode).2)
        (fun hcode => ⟨hanswered hcode, (hok hcode).1⟩) hfits _), hserver', hclient.sent g⟩, ?_⟩
    have hb := g.length_bytes_bounds
    have hcurr' : n'.tcp.currRxLength = curr := hsame.curr
    unfold busy todo spent
    unfold TcpSession.todo at htodo ⊢
    simp only [List.length_append, List.length_singleton, List.length_nil, hcurr'] at htodo ⊢
    omega

/-- Only a PDU the transport has written to changes. -/
theorem afterRead_pdus (n : ClientNode π ι) {tcp : EmbTcp ι}
    (h : tcp.transport.rxPdu = n.run.cli.rxPdu.map n.pdus) : (n.afterRead tcp).pdus = n.pdus := by
  unfold ClientNode.afterRead
  dsimp only
  rw [h]
  cases n.run.cli.rxPdu with
  | none => rfl
  | some p => exact Function.update_eq_self p n.pdus

theorem afterRead_pdu (n : ClientNode π ι) {tcp : EmbTcp ι} {p : π} {pdu : EmbPdu}
    (hp : n.run.cli.rxPdu = some p) (h : tcp.transport.rxPdu = some pdu) :
    (n.afterRead tcp).pdus p = pdu := by
  unfold ClientNode.afterRead
  dsimp only
  rw [hp, h]
  exact Function.update_self ..

theorem clientData_inv (h : s.Inv ssrv) (client : Option ι) (atMost : ℕ)
    (hans : s.StartsAnswerable ssrv user (.clientData client atMost)) :
    let s' := (s.step ssrv user (.clientData client atMost)).1
    s'.Inv ssrv ∧ s.busy (.clientData client atMost : PairInput π ι) + s'.todo + s.spent
      ≤ s.todo + s'.spent := by
  obtain ⟨request, response, hphase, hserver, hclient⟩ := h.phase
  have hview : s.client.view.Expects s.toClient response := hclient.congr ⟨rfl, rfl, rfl⟩
  obtain ⟨htodo, hpart | ⟨g, rfl, hleft, hwhole⟩⟩ := hview.event client atMost
  -- nothing is handed up
  · obtain ⟨hnext, hups, buf, count, curr, heq⟩ := hpart
    unfold step
    dsimp only
    rw [hups]
    unfold clientEvents
    have hpdus : (s.client.afterRead (tcpStep s.client.view
        (.event client (.dataReceived (.upTo (s.toClient.take atMost))))).1).pdus
        = s.client.pdus := afterRead_pdus _ (by rw [heq]; rfl)
    refine ⟨.of_alike (s := s) ?_ h.sound hphase hserver hnext, ?_⟩
    · exact ⟨rfl, hpdus, congrArg (·.transport.isServer) heq, congrArg (·.txBuf) heq, rfl, rfl,
        rfl, rfl, rfl, rfl⟩
    · have hsame : TcpSession.todo ⟨s.client.view, s.toClient⟩
          = TcpSession.todo ⟨s.client.tcp, s.toClient⟩ := rfl
      unfold busy todo spent ClientNode.afterRead
      dsimp only
      omega
  -- the answer is there
  · cases hphase with | @responding a p sv res answer g hresp =>
    have hp : s.client.view.transport.rxPdu = some (s.client.pdus p) := by
      unfold ClientNode.view
      dsimp only
      rw [hresp.waits.rxPdu]
      rfl
    obtain ⟨buf, curr, hcurr, hslice, heq, hups⟩ := hwhole _ hp hresp.fits (.inr hresp.transactId)
    rw [copiedTo_eq_receive hresp.packs hslice, unitId_toNat hresp.packs hresp.addr] at hups
    have hsize : 1 ≤ answer.dataSize.toNat := by
      rw [← EmbPdu.length_bytes, ← hresp.packs.data]
      exact g.nonempty
    obtain ⟨fin, xs, hgoes, hfulfils⟩ := hresp.goes user hsize (s.client.pdus p)
    set t := (tcpStep s.client.view
      (.event client (.dataReceived (.upTo (s.toClient.take atMost))))).1 with ht
    set mid : TcpPair π ι σ := { s with client := s.client.afterRead t, toClient := [] } with hmid
    have hstep : (s.step ssrv user (.clientData client atMost)).1
        = (mid.clientEvent user (.recvPacket a.1 ((s.client.pdus p).receive answer))).1 := by
      unfold step
      dsimp only
      rw [hups, hleft]
      rfl
    have hrx : t.transport.rxPdu = some ((s.client.pdus p).receive answer) := by
      rw [heq, ← copiedTo_eq_receive hresp.packs hslice]
    have hpdu : mid.client.pdus p = (s.client.pdus p).receive answer :=
      afterRead_pdu s.client hresp.waits.rxPdu hrx
    unfold StartsAnswerable at hans
    rw [hstep] at hans ⊢
    have hsound : mid.Sound ssrv := ⟨(congrArg (·.transport.isServer) heq).trans h.sound.client,
      h.sound.server, h.sound.rxPdu, h.sound.txPdu, h.sound.fulfils⟩
    obtain ⟨hinv, htodo'⟩ := turn hsound hgoes rfl rfl hserver
      ⟨congrArg (·.rxPktCounter) heq, (congrArg (·.currRxLength) heq).trans_le hcurr, rfl⟩
      hresp.started hresp.served (hresp.told hpdu hfulfils) hans
    refine ⟨hinv, ?_⟩
    have hspent : mid.spent = s.spent := rfl
    have hmidtodo : mid.todo
        = TcpSession.todo ⟨s.server.tcp, s.toServer⟩ + TcpSession.todo ⟨t, []⟩ := rfl
    have hsame : TcpSession.todo ⟨s.client.view, s.toClient⟩
        = TcpSession.todo ⟨s.client.tcp, s.toClient⟩ := rfl
    have htodos : s.todo
        = TcpSession.todo ⟨s.server.tcp, s.toServer⟩ + TcpSession.todo ⟨s.client.tcp, s.toClient⟩ :=
      rfl
    have hbusy : s.busy (.clientData client atMost : PairInput π ι)
        = if s.toClient ≠ [] ∧ atMost ≠ 0 then 1 else 0 := rfl
    rw [hleft] at htodo
    omega

theorem doTransaction_inv (h : s.Inv ssrv) (addr : ℤ) (t : EmbClientTransaction π)
    (hans : s.StartsAnswerable ssrv user (.doTransaction addr t)) :
    let s' := (s.step ssrv user (.doTransaction addr t)).1
    s'.Inv ssrv ∧ s'.todo + s.spent ≤ s.todo + s'.spent := by
  have hgoes := ClientRun.Goes.doTransaction s.client.run addr t
  change s.client.run.Goes (Emodbus.clientEvent user s.client.run (.doTransaction addr t)) [] _
    at hgoes
  have hevent := clientEvent_eq hgoes rfl
  obtain ⟨request, response, hphase, hserver, hclient⟩ := h.phase
  unfold StartsAnswerable at hans
  unfold step at hans ⊢
  dsimp only at hans ⊢
  by_cases hidle : s.client.run.cli.rxPdu = none
  · cases hphase with
    | idle hi =>
      exact turn h.sound hgoes rfl hidle hserver hclient hi.started hi.served
        (fun k e he => by simp at he) hans
    | requesting hr => simp [hr.waits.rxPdu] at hidle
    | responding hr => simp [hr.waits.rxPdu] at hidle
  -- it is refused
  · rw [if_pos (Option.isSome_iff_ne_none.2 hidle)] at hgoes hevent
    have hcli := hgoes.cli
    rw [hevent]
    have hunread : s.toServer ++ TcpOut.written ([] : List (TcpOut ι)) = s.toServer :=
      List.append_nil _
    simp only [List.map_nil, SrvNode.sendAll, List.append_nil, hunread]
    have halike : Alike s { s with client := ⟨s.client.tcp,
        Emodbus.clientEvent user s.client.run (.doTransaction addr t), s.client.pdus⟩ } :=
      ⟨hcli, rfl, rfl, rfl, rfl, rfl, rfl, rfl, rfl, rfl⟩
    exact ⟨⟨h.sound.congr halike, request, response, hphase.congr halike, hserver, hclient⟩,
      le_rfl⟩

/-- A step keeps the invariant, and what it costs was there or is paid for by a new request or a
new answer. -/
theorem step_inv (s : TcpPair π ι σ) (i : PairInput π ι) (h : s.Inv ssrv)
    (hans : s.StartsAnswerable ssrv user i) :
    (s.step ssrv user i).1.Inv ssrv
      ∧ s.busy i + (s.step ssrv user i).1.todo + s.spent
        ≤ s.todo + (s.step ssrv user i).1.spent := by
  cases i with
  | doTransaction addr t =>
    obtain ⟨hinv, htodo⟩ := doTransaction_inv h addr t hans
    have hbusy : s.busy (.doTransaction addr t : PairInput π ι) = 0 := rfl
    exact ⟨hinv, by omega⟩
  | serverData client atMost => exact serverData_inv h client atMost
  | clientData client atMost => exact clientData_inv h client atMost hans

end Inv

end Data

/-! ## Runs -/

theorem Inv.inOrder {ssrv : EmbSuperServer σ} {s : TcpPair π ι σ} (h : s.Inv ssrv) :
    s.InOrder ssrv := by
  obtain ⟨request, response, hphase, -, -⟩ := h.phase
  cases hphase with
  | idle hi => exact ⟨⟨hi.served.ge, by rw [hi.served, hi.started]⟩, by rw [hi.started]; omega,
      h.sound.fulfils⟩
  | requesting hr => exact ⟨⟨hr.served.ge, by rw [hr.served, hr.started]; omega⟩, hr.started.le,
      h.sound.fulfils⟩
  | responding hr => exact ⟨⟨by rw [hr.served]; omega, by rw [hr.served, hr.started]⟩,
      hr.started.le, h.sound.fulfils⟩

/-- When nothing is under way, nothing is pending. -/
theorem Inv.all_ended {ssrv : EmbSuperServer σ} {s : TcpPair π ι σ} (h : s.Inv ssrv)
    (hserver : s.toServer = []) (hclient : s.toClient = []) :
    s.ended.length = s.started.length := by
  obtain ⟨request, response, hphase, hs, hc⟩ := h.phase
  have hnone : ∀ {t : EmbTcp ι} {f : TcpFrame}, ¬ t.Expects [] (some f) := by
    rintro t f ⟨n, hpart, hunread⟩
    have hlt := hpart.lt
    have hlen := congrArg List.length hunread
    rw [List.length_nil, List.length_drop] at hlen
    omega
  cases hphase with
  | idle hi => exact hi.started.symm
  | requesting hr =>
    rw [hserver] at hs
    exact absurd hs hnone
  | responding hr =>
    rw [hclient] at hc
    exact absurd hc hnone

theorem start_inv (ssrv : EmbSuperServer σ) (onResponse onError : Bool) (pdus : π → EmbPdu)
    {rxPdu txPdu : EmbPdu} (hrx : maxPduDataSize ≤ rxPdu.maxSize.toNat)
    (htx : 1 ≤ txPdu.maxSize.toNat) (store : σ) :
    (start onResponse onError pdus rxPdu txPdu store : TcpPair π ι σ).Inv ssrv where
  sound := ⟨rfl, rfl, ⟨rxPdu, rfl, hrx⟩, htx, fun k e he => by simp [start] at he⟩
  phase := by
    have hcurr : (-1 : ℤ) ≤ 0 := by simp
    exact ⟨none, none, .idle ⟨rfl, rfl, rfl⟩, ⟨rfl, hcurr, rfl⟩, ⟨rfl, hcurr, rfl⟩⟩

end TcpPair

open TcpPair in
/-- Whatever the callbacks start, however the streams are cut and in whatever order the events come:
as long as the transactions that are started can be answered, each ends once, in order, with what
the handler made of the request it got.  When no byte is unread all of them have ended, and no run
has more than 1044 events for each transaction that find unread bytes and may read some. -/
theorem pair_completes [DecidableEq π] (ssrv : EmbSuperServer σ) (user : ClientUser π)
    (onResponse onError : Bool) (pdus : π → EmbPdu) (rxPdu txPdu : EmbPdu) (store : σ)
    (hrx : maxPduDataSize ≤ rxPdu.maxSize.toNat) (htx : 1 ≤ txPdu.maxSize.toNat)
    (is : List (PairInput π ι)) :
    let s₀ : TcpPair π ι σ := start onResponse onError pdus rxPdu txPdu store
    let s := (run (step ssrv user) s₀ is).1
    Along (step ssrv user) (StartsAnswerable ssrv user) s₀ is →
      s.InOrder ssrv
        ∧ (s.toServer = [] → s.toClient = [] → s.ended.length = s.started.length)
        ∧ cost (step ssrv user) busy s₀ is ≤ 1044 * s.started.length := by
  intro s₀ s hans
  have h₀ : s₀.Inv ssrv := start_inv ssrv onResponse onError pdus hrx htx store
  have hinv : s.Inv ssrv := run_inv (fun s i h hq => (step_inv s i h hq).1) is s₀ h₀ hans
  have hcost := run_cost (fun s i h hq => step_inv s i h hq) is s₀ h₀ hans
  have htodo : s₀.todo = 0 := rfl
  have hspent : s.spent = 522 * (s.started.length + s.served.length) := rfl
  have hserved := hinv.inOrder.served.2
  refine ⟨hinv.inOrder, hinv.all_ended, ?_⟩
  change cost (step ssrv user) busy s₀ is + s.todo + s₀.spent ≤ s₀.todo + s.spent at hcost
  omega

/-- A super server that knows every function at every address and answers with one byte. -/
def EmbSuperServer.oneByte : EmbSuperServer Unit where
  getServer := some fun _ => some
    { getCoils := none
      getDiscreteInputs := none
      getHoldingRegs := none
      getInputRegs := none
      getFile := none
      readFifo := none
      getFunction := some fun _ => some
        { call := fun _ r => (0, { r with txPdu := { r.txPdu with
            function := r.rxPdu.function
            dataSize := 1 } })
          sameMax := fun _ _ => ⟨rfl, rfl⟩ }
      isBroadcast := false }

namespace EmbSuperServer.OneByte

def pdu : EmbPdu := ⟨0, 0, 253, fun _ => 9⟩

def transact : EmbClientTransaction Unit :=
  ⟨⟨3, 1, 253, fun _ => 7⟩, some (), some ⟨true, true⟩⟩

/-- Every callback tries the transaction as long as it has been started once. -/
def user : ClientUser Unit := fun acts =>
  if (ClientAct.started acts).length < 2 then [(1, transact)] else []

def start : TcpPair Unit Unit Unit := .start true true (fun _ => pdu) pdu pdu ()

theorem answerable {s : TcpPair Unit Unit Unit} (h : (s.client.pdus ()).maxSize = 253) :
    s.Answerable .oneByte (1, transact) where
  addr := by simp
  function := by decide
  dataSize := by decide
  hears := by decide
  answer := by
    refine ⟨(), rfl, fun rx _ => ⟨_, ⟨_, _, ⟨⟨_, rfl, rfl⟩, ⟨_, rfl, rfl⟩, rfl⟩, rfl⟩, ?_, ?_⟩⟩
    · intro hcode
      exact absurd rfl hcode
    · intro _
      have hfit : (1 : Byte).toNat ≤ maxPduDataSize := by decide
      have hroom : (1 : Byte).toNat ≤ (253 : Byte).toNat := by simp
      rw [h]
      exact ⟨rfl, le_rfl, hfit, hroom⟩

theorem answerable_of_eq {s : TcpPair Unit Unit Unit} {xs : List (ℤ × EmbClientTransaction Unit)}
    (h : xs = [] ∨ xs = [(1, transact)] ∧ (s.client.pdus ()).maxSize = 253) :
    ∀ a ∈ xs, s.Answerable .oneByte a := by
  intro a ha
  rcases h with rfl | ⟨rfl, hmax⟩
  · exact absurd ha List.not_mem_nil
  · rw [List.mem_singleton.1 ha]
    exact answerable hmax

end EmbSuperServer.OneByte

open TcpPair EmbSuperServer in
/-- A response whose callback starts the next transaction, and the response to that. -/
theorem pair_completes_two :
    let s := (run (step .oneByte OneByte.user) OneByte.start
      [.doTransaction 1 OneByte.transact, .serverData none 4, .serverData none 20,
        .clientData none 300, .serverData none 0, .serverData none 1, .serverData none 300,
        .clientData none 9, .clientData none 9]).1
    s.InOrder .oneByte ∧ s.ended.length = 2 := by
  have h := pair_completes .oneByte OneByte.user true true (fun _ => OneByte.pdu) OneByte.pdu
    OneByte.pdu () (by decide) (by decide)
    [.doTransaction 1 OneByte.transact, .serverData none 4, .serverData none 20,
      .clientData none 300, .serverData none 0, .serverData none 1, .serverData none 300,
      .clientData none 9, .clientData (none : Option Unit) 9]
    ⟨OneByte.answerable_of_eq (.inr ⟨rfl, rfl⟩), OneByte.answerable_of_eq (.inl rfl),
      OneByte.answerable_of_eq (.inl rfl), OneByte.answerable_of_eq (.inr ⟨rfl, rfl⟩),
      OneByte.answerable_of_eq (.inl rfl), OneByte.answerable_of_eq (.inl rfl),
      OneByte.answerable_of_eq (.inl rfl), OneByte.answerable_of_eq (.inl rfl),
      OneByte.answerable_of_eq (.inl rfl), trivial⟩
  exact ⟨h.1, h.2.1 rfl rfl⟩

end Emodbus
