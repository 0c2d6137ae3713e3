import Emodbus.Proofs.Server
import Emodbus.Proofs.TcpIsolation
import Emodbus.TcpServerPort

/-!
# Connections that come and go

A data event is for one connection throughout (`Answers`): the read is from it, and so the super
server's answers, each of them a whole frame, go back to it.  As nothing calls back for a connection
that is gone, nothing is done to one; that the timer passes on the client id of the last event does
no harm, for it has the port neither read nor written.
-/

namespace Emodbus

open Octets Mealy

variable {σ ι : Type}

/-! ## What the transport passes on -/

/-- The transport has gone on to this, with these outputs. -/
structure EmbTcp.Passes (t : EmbTcp ι) (r : EmbTcp ι × List (TcpOut ι)) : Prop where
  client : r.1.tcpClientId = t.tcpClientId
  isServer : r.1.transport.isServer = t.transport.isServer
  maxSize : r.1.transport.rxPdu.map EmbPdu.maxSize = t.transport.rxPdu.map EmbPdu.maxSize
  upcalls : ∀ addr pdu, .recvPacket addr pdu ∈ TcpOut.upcalls r.2 →
    t.transport.rxPdu.map EmbPdu.maxSize = some pdu.maxSize

theorem acceptPacket_passes (t : EmbTcp ι) (pktLength : Word) :
    t.Passes (acceptPacket t pktLength) := by
  unfold acceptPacket
  split_ifs with hid
  · exact ⟨rfl, rfl, rfl, fun addr pdu h => by simp [TcpOut.upcalls] at h⟩
  · split
    · exact ⟨rfl, rfl, rfl, fun addr pdu h => by simp [TcpOut.upcalls] at h⟩
    · rename_i p hp
      dsimp only
      split_ifs with hovf
      · exact ⟨rfl, rfl, rfl, fun addr pdu h => by simp [TcpOut.upcalls] at h⟩
      · refine ⟨rfl, rfl, by rw [hp]; rfl, fun addr pdu h => ?_⟩
        simp only [TcpOut.upcalls, List.mem_singleton, Upcall.recvPacket.injEq] at h
        rw [hp, h.2]
        rfl

theorem takeIn_passes (t : EmbTcp ι) : t.Passes (takeIn t) := by
  have hparse : t.Passes ((parsePacket t).1, (parsePacket t).2.1) := by
    rcases Nat.lt_or_ge t.rxPktCounter 9 with h9 | h9
    · rw [parsePacket_short h9]
      exact ⟨rfl, rfl, rfl, fun addr pdu h => by simp [TcpOut.upcalls] at h⟩
    rcases Nat.lt_or_ge t.rxPktCounter (EmbTcp.frameEnd t.rxBuf) with hlt | hle
    · rw [parsePacket_wait h9 hlt]
      exact ⟨rfl, rfl, rfl, fun addr pdu h => by simp [TcpOut.upcalls] at h⟩
    · obtain ⟨hclient, hserver, hmax, hups⟩ := acceptPacket_passes
        { t with currRxLength := (EmbTcp.frameEnd t.rxBuf : ℤ) - t.rxPktCounter }
        (swapBytes (EmbTcp.mbapLength t.rxBuf) - 1)
      rw [parsePacket_done h9 hle]
      exact ⟨hclient, hserver, hmax, hups⟩
  obtain ⟨hclient, hserver, hmax, hups⟩ := hparse
  unfold takeIn
  dsimp only
  split_ifs
  · exact ⟨hclient, hserver, hmax, hups⟩
  · exact ⟨hclient, hserver, hmax, hups⟩

/-- A data event is for its connection from the start. -/
theorem dataReceived_passes (t : EmbTcp ι) (client : Option ι) (port : PortRead) :
    { t with tcpClientId := client }.Passes (tcpStep t (.event client (.dataReceived port))) := by
  have hnone : ∀ addr pdu, Upcall.recvPacket addr pdu ∈ TcpOut.upcalls ([] : List (TcpOut ι)) →
      t.transport.rxPdu.map EmbPdu.maxSize = some pdu.maxSize :=
    fun addr pdu h => by simp [TcpOut.upcalls] at h
  rw [tcpStep_dataReceived]
  split_ifs with hclean hzero
  · exact ⟨rfl, rfl, rfl, hnone⟩
  · obtain ⟨hclient, hserver, hmax, hups⟩ :=
      takeIn_passes ({ t with tcpClientId := client }.received [])
    exact ⟨hclient, hserver, hmax, hups⟩
  · split
    · exact ⟨rfl, rfl, rfl, hnone⟩
    · rename_i bytes hread
      obtain ⟨hclient, hserver, hmax, hups⟩ :=
        takeIn_passes ({ t with tcpClientId := client }.received bytes)
      exact ⟨hclient, hserver, hmax, hups⟩

/-! ## What the super server answers -/

open EmbTcpViaTcpServer (IsFrame tcpServerWrite putWrite)

theorem outId_congr {t t' : EmbTcp ι} (hserver : t.transport.isServer = true)
    (hsame : SameRx t' t) (htransport : t'.transport.isServer = t.transport.isServer) :
    t'.outId = t.outId := by
  unfold EmbTcp.outId
  rw [htransport, if_pos hserver, if_pos hserver, hsame.buf]

theorem sendPacket_isFrame (wrote : List Byte → ℤ) (t : EmbTcp ι) (addr : ℤ) (pdu : EmbPdu) :
    ∀ w ∈ TcpOut.writes (modbusTcpSendPacket t addr pdu wrote).2.2,
      w.1 = t.tcpClientId ∧ IsFrame t.outId w.2 := by
  by_cases hfit : pdu.dataSize.toNat ≤ maxPduDataSize
  · obtain ⟨c, heq⟩ := sendPacket_eq t addr wrote hfit
    rw [heq]
    intro w hw
    simp only [TcpOut.writes, List.mem_singleton] at hw
    subst hw
    exact ⟨rfl, addr, pdu, hfit, rfl⟩
  · unfold modbusTcpSendPacket
    rw [if_neg hfit]
    simp [TcpOut.writes]

theorem sendAll_isFrame (wrote : List Byte → ℤ) (ps : List (ℤ × EmbPdu)) {t : EmbTcp ι}
    (hserver : t.transport.isServer = true) :
    ∀ w ∈ TcpOut.writes (SrvNode.sendAll wrote t ps).2,
      w.1 = t.tcpClientId ∧ IsFrame t.outId w.2 := by
  induction ps generalizing t with
  | nil =>
    intro w hw
    simp [SrvNode.sendAll, TcpOut.writes] at hw
  | cons p ps ih =>
    obtain ⟨hsame, htransport, hclient⟩ := sendPacket_same t p.1 p.2 wrote
    have hserver' : (modbusTcpSendPacket t p.1 p.2 wrote).2.1.transport.isServer = true := by
      rw [htransport]
      exact hserver
    have hid := outId_congr hserver hsame (hserver'.trans hserver.symm)
    unfold SrvNode.sendAll
    intro w hw
    rw [writes_append, List.mem_append] at hw
    rcases hw with hw | hw
    · exact sendPacket_isFrame wrote t p.1 p.2 w hw
    · rw [← hclient, ← hid]
      exact ih hserver' w hw

/-- The node has gone on to this, with these outputs: it answers the connection of the event. -/
structure Answers (n : SrvNode σ ι) (r : SrvNode σ ι × List (TcpOut ι)) : Prop where
  sameRx : SameRx r.1.tcp n.tcp
  client : r.1.tcp.tcpClientId = n.tcp.tcpClientId
  isServer : r.1.tcp.transport.isServer = true
  maxSize : r.1.tcp.transport.rxPdu.map EmbPdu.maxSize = n.tcp.transport.rxPdu.map EmbPdu.maxSize
  writes : ∀ w ∈ TcpOut.writes r.2, w.1 = n.tcp.tcpClientId ∧ IsFrame n.tcp.outId w.2

section Node

variable (ssrv : EmbSuperServer σ) (wrote : List Byte → ℤ)

theorem handle_answers {n : SrvNode σ ι} (hserver : n.tcp.transport.isServer = true) {u : Upcall}
    (hu : ∀ addr pdu, u = .recvPacket addr pdu →
      n.tcp.transport.rxPdu.map EmbPdu.maxSize = some pdu.maxSize) :
    Answers n (SrvNode.handle ssrv wrote n u) := by
  cases u with
  | error e => exact ⟨⟨rfl, rfl, rfl⟩, rfl, hserver, rfl, by simp [SrvNode.handle, TcpOut.writes]⟩
  | recvPacket addr pdu =>
    have hmax := (onReceiveReq_sameMax ssrv addr ⟨pdu, n.txPdu, n.store, []⟩).rx
    unfold SrvNode.handle
    dsimp only
    set res := embSuperServerOnReceiveReq ssrv addr ⟨pdu, n.txPdu, n.store, []⟩
    set t : EmbTcp ι := { n.tcp with transport.rxPdu := some res.run.rxPdu } with ht
    obtain ⟨hsame, htransport, hclient⟩ := sendAll_same wrote t res.sent
    have hid : t.outId = n.tcp.outId := outId_congr hserver ⟨rfl, rfl, rfl⟩ rfl
    have hwrites := sendAll_isFrame wrote res.sent (t := t) hserver
    rw [hid] at hwrites
    refine ⟨⟨hsame.counter, hsame.buf, hsame.curr⟩, hclient, ?_, ?_, hwrites⟩
    · rw [htransport]
      exact hserver
    · rw [htransport, hu addr pdu rfl]
      exact congrArg some hmax

theorem handleAll_answers (us : List Upcall) {n : SrvNode σ ι}
    (hserver : n.tcp.transport.isServer = true)
    (hus : ∀ addr pdu, .recvPacket addr pdu ∈ us →
      n.tcp.transport.rxPdu.map EmbPdu.maxSize = some pdu.maxSize) :
    Answers n (SrvNode.handleAll ssrv wrote n us) := by
  induction us generalizing n with
  | nil =>
    exact ⟨⟨rfl, rfl, rfl⟩, rfl, hserver, rfl, by simp [SrvNode.handleAll, TcpOut.writes]⟩
  | cons u us ih =>
    obtain ⟨hsame, hclient, hserver', hmax, hwrites⟩ := handle_answers ssrv wrote hserver (u := u)
      fun addr pdu hu => hus addr pdu (by simp [hu])
    have hid := outId_congr hserver hsame (hserver'.trans hserver.symm)
    have hrest := ih hserver' fun addr pdu hu => hmax.trans (hus addr pdu (by simp [hu]))
    unfold SrvNode.handleAll
    dsimp only
    refine ⟨⟨hrest.sameRx.counter.trans hsame.counter, hrest.sameRx.buf.trans hsame.buf,
      hrest.sameRx.curr.trans hsame.curr⟩, hrest.client.trans hclient, hrest.isServer,
      hrest.maxSize.trans hmax, fun w hw => ?_⟩
    rw [writes_append, List.mem_append] at hw
    rcases hw with hw | hw
    · exact hwrites w hw
    · rw [← hclient, ← hid]
      exact hrest.writes w hw

/-- A data event, from the read to the answers. -/
theorem dataReceived_answers {n : SrvNode σ ι} (hserver : n.tcp.transport.isServer = true)
    (client : Option ι) (port : PortRead) :
    let t := (tcpStep n.tcp (.event client (.dataReceived port))).1
    let r := n.dataReceived ssrv wrote client port
    t.tcpClientId = client ∧ t.transport.isServer = true
      ∧ t.transport.rxPdu.map EmbPdu.maxSize = n.tcp.transport.rxPdu.map EmbPdu.maxSize
      ∧ Answers { n with tcp := t } (r.1, r.2.2) := by
  obtain ⟨hclient, hserver', hmax, hups⟩ := dataReceived_passes n.tcp client port
  have hserver₁ := hserver'.trans hserver
  exact ⟨hclient, hserver₁, hmax,
    handleAll_answers ssrv wrote _ hserver₁ fun addr pdu hu => hmax.trans (hups addr pdu hu)⟩

end Node

namespace EmbTcpViaTcpServer

variable [DecidableEq ι] {ssrv : EmbSuperServer σ} {s : EmbTcpViaTcpServer σ ι} {client : ι}

/-- Writes that are all for one connection. -/
theorem foldl_putWrite {ws : List (Option ι × List Byte)} (hws : ∀ w ∈ ws, w.1 = some client)
    (written : ι → List Byte) :
    ws.foldl putWrite written
      = Function.update written client (written client ++ (ws.map Prod.snd).flatten) := by
  induction ws generalizing written with
  | nil => simp
  | cons w ws ih =>
    obtain ⟨hw, hws⟩ := List.forall_mem_cons.1 hws
    have hput : putWrite written w
        = Function.update written client (written client ++ w.2) := by
      unfold putWrite
      rw [hw]
    rw [List.foldl_cons, hput, ih hws, Function.update_self, Function.update_idem,
      List.map_cons, List.flatten_cons, List.append_assoc]

variable (ssrv) in
/-- What a data event of an open connection leaves. -/
theorem dataReceived_spec (hserver : s.node.tcp.transport.isServer = true)
    (hopen : client ∈ s.tcpServer.opened) (ok : Bool) :
    let event : TcpInput ι := .event (some client) (.dataReceived (.upTo (s.unread client)))
    let t := (tcpStep s.node.tcp event).1
    let asked := TcpOut.asked (tcpStep s.node.tcp event).2
    ∃ (node : SrvNode σ ι) (fs : List (List Byte)), SameRx node.tcp t
      ∧ node.tcp.transport.isServer = true
      ∧ node.tcp.transport.rxPdu.map EmbPdu.maxSize
        = s.node.tcp.transport.rxPdu.map EmbPdu.maxSize
      ∧ (∀ f ∈ fs, IsFrame t.outId f)
      ∧ (TcpOut.upcalls (tcpStep s.node.tcp event).2 = [] → fs = [])
      ∧ s.dataReceived ssrv client ok = ({ s with
          node := node
          rxTimeoutTimer := s.rxTimeoutTimer || 0 < asked
          unread := Function.update s.unread client ((s.unread client).drop asked)
          written := Function.update s.written client (s.written client ++ fs.flatten) },
        TcpOut.delivered (tcpStep s.node.tcp event).2) := by
  obtain ⟨hreader, -, hmax, hanswers⟩ := dataReceived_answers ssrv (tcpServerWrite ok) hserver
    (some client) (.upTo (s.unread client))
  dsimp only at hreader hmax hanswers ⊢
  set r := s.node.dataReceived ssrv (tcpServerWrite ok) (some client) (.upTo (s.unread client))
    with hr
  have hfor : ∀ w ∈ TcpOut.writes r.2.2, w.1 = some client := fun w hw =>
    ((hanswers.writes w hw).1).trans hreader
  refine ⟨r.1, if ok then (TcpOut.writes r.2.2).map Prod.snd else [], hanswers.sameRx,
    hanswers.isServer, hanswers.maxSize.trans hmax, ?_, ?_, ?_⟩
  · intro f hf
    cases ok with
    | false => simp at hf
    | true =>
      simp only [if_true, List.mem_map] at hf
      obtain ⟨w, hw, rfl⟩ := hf
      exact (hanswers.writes w hw).2
  · intro hups
    have hnone : r.2.2 = [] := by
      rw [hr]
      unfold SrvNode.dataReceived
      dsimp only
      rw [hups]
      rfl
    rw [hnone]
    simp [TcpOut.writes]
  · have hstray : ∀ us : List (Option ι), (∀ u ∈ us, u = some client) →
        us.filter (fun id => ∀ c ∈ s.tcpServer.opened, id ≠ some c) = [] := by
      intro us hus
      rw [List.filter_eq_nil_iff]
      intro u hu
      simp only [decide_eq_true_eq]
      exact fun hne => hne client hopen (hus u hu)
    unfold dataReceived
    dsimp only
    rw [← hr, hreader, hstray, List.append_nil]
    · refine Prod.ext ?_ rfl
      dsimp only
      congr 1
      cases ok with
      | false => simp
      | true => exact foldl_putWrite hfor s.written
    · intro u hu
      rw [List.mem_append] at hu
      rcases hu with hu | hu
      · split_ifs at hu
        · exact List.mem_singleton.1 hu
        · simp at hu
      · obtain ⟨w, hw, rfl⟩ := List.mem_map.1 hu
        exact hfor w hw

/-! ## Every callback -/

/-- The receiver is as at the start. -/
def AtRest (s : EmbTcpViaTcpServer σ ι) : Prop :=
  s.node.tcp.rxPktCounter = 0 ∧ s.node.tcp.currRxLength = -1

/-- What every state has. -/
structure Inv (s : EmbTcpViaTcpServer σ ι) : Prop where
  sound : s.Sound
  isServer : s.node.tcp.transport.isServer = true
  maxSize : s.node.tcp.transport.rxPdu.map EmbPdu.maxSize = some 253

omit [DecidableEq ι] in
theorem create_inv (rxPdu txPdu : EmbPdu) (store : σ) : (create ι rxPdu txPdu store).Inv where
  sound := ⟨rfl, List.nodup_nil, rfl, fun _ => ⟨[], by simp, rfl⟩, fun _ => ⟨rfl, rfl⟩⟩
  isServer := rfl
  maxSize := rfl

omit [DecidableEq ι] in
/-- At rest the receiver asks for a whole buffer. -/
theorem AtRest.asked (h : s.AtRest) (client : Option ι) (port : PortRead) :
    TcpOut.asked (tcpStep s.node.tcp (.event client (.dataReceived port))).2 = 263 := by
  have hread : s.node.tcp.toBeRead = 263 := by
    unfold EmbTcp.toBeRead
    rw [h.1, h.2]
    rfl
  rw [tcpStep_asked, h.1, h.2, hread]
  rfl

variable (ssrv) in
theorem Inv.dataReceived (h : s.Inv) (hopen : client ∈ s.tcpServer.opened) (ok : Bool) :
    (s.dataReceived ssrv client ok).1.Inv := by
  have hspec := dataReceived_spec ssrv h.isServer hopen ok
  obtain ⟨node, fs, -, hserver, hmax, hfs, -, heq⟩ := hspec
  rw [heq]
  refine ⟨⟨h.sound.counter, h.sound.nodup, h.sound.strayed, fun c => ?_, fun htimer => ?_⟩, hserver,
    hmax.trans h.maxSize⟩
  · obtain ⟨gs, hgs, hwritten⟩ := h.sound.frames c
    by_cases hc : c = client
    · subst hc
      refine ⟨gs ++ fs, fun f hf => ?_, ?_⟩
      · rcases List.mem_append.1 hf with hf | hf
        · exact hgs f hf
        · exact ⟨_, hfs f hf⟩
      · simp [hwritten]
    · refine ⟨gs, hgs, ?_⟩
      rw [← hwritten]
      exact Function.update_of_ne hc ..
  · simp only [Bool.or_eq_false_iff, decide_eq_false_iff_not, not_lt, Nat.le_zero] at htimer
    have hasked := AtRest.asked (h.sound.rest htimer.1) (some client) (.upTo (s.unread client))
    rw [htimer.2] at hasked
    omega

theorem Inv.acceptConnCb (h : s.Inv) (hnew : client ∉ s.tcpServer.opened) :
    (s.acceptConnCb client).Inv := by
  unfold EmbTcpViaTcpServer.acceptConnCb
  dsimp only
  split_ifs with hfull
  · refine ⟨⟨?_, h.sound.nodup, h.sound.strayed, h.sound.frames, h.sound.rest⟩, h.isServer,
      h.maxSize⟩
    dsimp only
    rw [h.sound.counter]
    omega
  · refine ⟨⟨?_, List.nodup_cons.2 ⟨hnew, h.sound.nodup⟩, h.sound.strayed, fun c => ?_,
      h.sound.rest⟩, h.isServer, h.maxSize⟩
    · dsimp only
      rw [h.sound.counter, List.length_cons]
      omega
    · by_cases hc : c = client
      · subst hc
        exact ⟨[], by simp, Function.update_self ..⟩
      · obtain ⟨fs, hfs, hwritten⟩ := h.sound.frames c
        exact ⟨fs, hfs, (Function.update_of_ne hc ..).trans hwritten⟩

theorem Inv.eventCallback (h : s.Inv) (hopen : client ∈ s.tcpServer.opened) (ended : Bool) :
    (s.eventCallback client ended).Inv := by
  unfold EmbTcpViaTcpServer.eventCallback
  split_ifs
  · refine ⟨⟨?_, h.sound.nodup.erase client, h.sound.strayed, h.sound.frames, h.sound.rest⟩,
      h.isServer, h.maxSize⟩
    have hpos := List.length_pos_of_mem hopen
    dsimp only
    rw [h.sound.counter, List.length_erase_of_mem hopen]
    omega
  · exact h

omit [DecidableEq ι] in
theorem Inv.onRxTimeout (h : s.Inv) : s.onRxTimeout.Inv :=
  ⟨⟨h.sound.counter, h.sound.nodup, h.sound.strayed, h.sound.frames, fun _ => ⟨rfl, rfl⟩⟩,
    h.isServer, h.maxSize⟩

variable (ssrv) in
theorem step_inv (s : EmbTcpViaTcpServer σ ι) (i : TcpServerInput ι) (h : s.Inv)
    (hlegal : s.Legal i) : (s.step ssrv i).1.Inv := by
  cases i with
  | connection client => exact h.acceptConnCb hlegal
  | readable client bytes ok =>
    have hcome : ({ s with
        unread := Function.update s.unread client (s.unread client ++ bytes) }).Inv :=
      ⟨⟨h.sound.counter, h.sound.nodup, h.sound.strayed, h.sound.frames, h.sound.rest⟩,
        h.isServer, h.maxSize⟩
    exact hcome.dataReceived ssrv hlegal ok
  | drained client ok => exact h.dataReceived ssrv hlegal ok
  | event client ended => exact h.eventCallback hlegal ended
  | rxTimeout =>
    simp only [step]
    split_ifs
    · exact h.onRxTimeout
    · exact h
  | setClientsLimit limit =>
    exact ⟨⟨h.sound.counter, h.sound.nodup, h.sound.strayed, h.sound.frames, h.sound.rest⟩,
      h.isServer, h.maxSize⟩

theorem run_inv (rxPdu txPdu : EmbPdu) (store : σ) {ins : List (TcpServerInput ι)}
    (hlegal : Along (step ssrv) Legal (create ι rxPdu txPdu store) ins) :
    (run (step ssrv) (create ι rxPdu txPdu store) ins).1.Inv :=
  Mealy.run_inv (Q := Legal) (fun s i h hi => step_inv ssrv s i h hi) ins _
    (create_inv rxPdu txPdu store) hlegal

/-! ## The limit -/

/-- The limit stays as it is. -/
def KeepsLimit : TcpServerInput ι → Prop
  | .setClientsLimit _ => False
  | _ => True

/-- A connection is refused if and only if as many as the limit allows are open. -/
theorem acceptConnCb_opened (h : s.Inv) (client : ι) :
    (s.acceptConnCb client).tcpServer.nClientsLimit = s.tcpServer.nClientsLimit
      ∧ (s.acceptConnCb client).tcpServer.opened
        = if 0 < s.tcpServer.nClientsLimit
            ∧ s.tcpServer.nClientsLimit ≤ s.tcpServer.opened.length then s.tcpServer.opened
          else client :: s.tcpServer.opened := by
  have hcounter := h.sound.counter
  unfold acceptConnCb
  dsimp only
  by_cases hfull : 0 < s.tcpServer.nClientsLimit
      ∧ s.tcpServer.nClientsLimit < s.tcpServer.clientsCounter + 1
  · rw [if_pos hfull, if_pos (by omega)]
    exact ⟨rfl, rfl⟩
  · rw [if_neg hfull, if_neg (by omega)]
    exact ⟨rfl, rfl⟩

/-- The connections do not become more than this. -/
structure Limited (most : ℤ) (s : EmbTcpViaTcpServer σ ι) : Prop where
  inv : s.Inv
  limit : 0 < s.tcpServer.nClientsLimit ∧ s.tcpServer.nClientsLimit ≤ most
  opened : s.tcpServer.opened.length ≤ most

theorem step_limited {most : ℤ} (s : EmbTcpViaTcpServer σ ι) (i : TcpServerInput ι)
    (h : s.Limited most) (hi : s.Legal i ∧ KeepsLimit i) : (s.step ssrv i).1.Limited most := by
  have hinv := step_inv ssrv s i h.inv hi.1
  cases i with
  | connection client =>
    obtain ⟨hlimit, hopened⟩ := acceptConnCb_opened h.inv client
    have hmost := h.limit
    have hlen := h.opened
    refine ⟨hinv, ?_, ?_⟩
    · simp only [step, hlimit]
      exact h.limit
    · simp only [step, hopened]
      split_ifs with hfull
      · exact h.opened
      · rw [List.length_cons]
        omega
  | readable client bytes ok => exact ⟨hinv, h.limit, h.opened⟩
  | drained client ok => exact ⟨hinv, h.limit, h.opened⟩
  | event client ended =>
    simp only [step, eventCallback] at hinv ⊢
    split_ifs at hinv ⊢
    · refine ⟨hinv, h.limit, le_trans ?_ h.opened⟩
      exact_mod_cast List.length_erase_le
    · exact h
  | rxTimeout =>
    simp only [step] at hinv ⊢
    split_ifs at hinv ⊢
    · exact ⟨hinv, h.limit, h.opened⟩
    · exact h
  | setClientsLimit limit => exact absurd hi.2 id

/-- In every run the counter of the clients is right, no connection is read or written that is not
open, what a connection has been sent are whole frames, and either the receiver is as at the start
or the timer that brings it there is pending.  A further connection is refused if and only if the
limit is reached, and as long as a limit stays the connections become no more than it allows, or
than there were. -/
theorem server_port_sound (ssrv : EmbSuperServer σ) (rxPdu txPdu : EmbPdu) (store : σ)
    (ins : List (TcpServerInput ι))
    (hlegal : Along (step ssrv) Legal (create ι rxPdu txPdu store) ins) :
    let s := (run (step ssrv) (create ι rxPdu txPdu store) ins).1
    s.Sound
      ∧ (∀ client ∉ s.tcpServer.opened,
        client ∉ (s.step ssrv (.connection client)).1.tcpServer.opened
          ↔ 0 < s.tcpServer.nClientsLimit
            ∧ s.tcpServer.nClientsLimit ≤ s.tcpServer.opened.length)
      ∧ ∀ more : List (TcpServerInput ι),
        Along (step ssrv) (fun s i => s.Legal i ∧ KeepsLimit i) s more →
        0 < s.tcpServer.nClientsLimit →
        ((run (step ssrv) s more).1.tcpServer.opened.length : ℤ)
          ≤ max s.tcpServer.nClientsLimit s.tcpServer.opened.length := by
  have hinv := run_inv rxPdu txPdu store hlegal
  refine ⟨hinv.sound, fun client hnew => ?_, fun more hmore hpos => ?_⟩
  · simp only [step, (acceptConnCb_opened hinv client).2]
    split_ifs with hfull
    · exact iff_of_true hnew hfull
    · exact iff_of_false (by simp) hfull
  · exact (Mealy.run_inv (Q := fun s i => s.Legal i ∧ KeepsLimit i) (P := Limited _)
      step_limited more _ ⟨hinv, ⟨hpos, le_max_left _ _⟩, le_max_right _ _⟩ hmore).opened

/-- One connection sends a part of a frame and is gone, with another one open. -/
def leftBehind : List (TcpServerInput Bool) :=
  [.setClientsLimit 2, .connection true, .readable true [0, 1, 0, 0] true, .connection false,
    .event true true]

def emptyPort : EmbTcpViaTcpServer Unit Bool :=
  create Bool ⟨0, 0, 253, fun _ => 0⟩ ⟨0, 0, 253, fun _ => 0⟩ ()

theorem leftBehind_legal : Along (step (.bare Unit)) Legal emptyPort leftBehind :=
  ⟨trivial, List.not_mem_nil, List.mem_cons_self, show false ∉ [true] by simp,
    show true ∈ [false, true] by simp, trivial⟩

theorem server_port_sound_left :
    let s := (run (step (.bare Unit)) emptyPort leftBehind).1
    s.Sound
      ∧ (∀ client ∉ s.tcpServer.opened,
        client ∉ (s.step (.bare Unit) (.connection client)).1.tcpServer.opened
          ↔ 0 < s.tcpServer.nClientsLimit
            ∧ s.tcpServer.nClientsLimit ≤ s.tcpServer.opened.length)
      ∧ ∀ more : List (TcpServerInput Bool),
        Along (step (.bare Unit)) (fun s i => s.Legal i ∧ KeepsLimit i) s more →
        0 < s.tcpServer.nClientsLimit →
        ((run (step (.bare Unit)) s more).1.tcpServer.opened.length : ℤ)
          ≤ max s.tcpServer.nClientsLimit s.tcpServer.opened.length :=
  server_port_sound (.bare Unit) _ _ () leftBehind leftBehind_legal

/-! ## One frame at a time -/

omit [DecidableEq ι] in
theorem delivered_of_upcalls {os : List (TcpOut ι)} {f : TcpFrame} {buf : Mem Byte} {p : EmbPdu}
    (hslice : Mem.slice buf 0 f.bytes.length = f.bytes)
    (hups : TcpOut.upcalls os = [.recvPacket f.unitId.toNat (f.copiedTo buf p)]) :
    TcpOut.delivered os = [f.view] := by
  unfold TcpOut.delivered
  rw [hups]
  simp only [List.filterMap_cons, Upcall.view, List.filterMap_nil,
    TcpFrame.bytes_copiedTo hslice]
  rfl

variable (ssrv) in
/-- A receiver at rest finds a whole frame. -/
theorem dataReceived_frame (h : s.Inv) (hrest : s.AtRest) (hopen : client ∈ s.tcpServer.opened)
    {f : TcpFrame} (hunread : s.unread client = f.bytes) (ok : Bool) :
    ∃ (node : SrvNode σ ι) (fs : List (List Byte)), node.tcp.rxPktCounter = 0
      ∧ node.tcp.currRxLength ≤ 0 ∧ (∀ g ∈ fs, IsFrame f.transactId g)
      ∧ s.dataReceived ssrv client ok = ({ s with
          node := node
          rxTimeoutTimer := true
          unread := Function.update s.unread client []
          written := Function.update s.written client (s.written client ++ fs.flatten) },
        [f.view]) := by
  have hspec := dataReceived_spec ssrv h.isServer hopen ok
  have hasked := hrest.asked (some client) (.upTo (s.unread client))
  have hbounds := f.length_bytes_bounds
  have hpart : s.node.tcp.Partway f 0 := .start hrest.1 (by rw [hrest.2]; simp) f
  have hread : s.node.tcp.toBeRead = 263 := by
    unfold EmbTcp.toBeRead
    rw [hrest.1, hrest.2]
    rfl
  have hbytes : (s.unread client).take s.node.tcp.toBeRead.toNat
      = (f.bytes.drop 0).take f.bytes.length := by
    rw [hunread, hread, List.drop_zero, List.take_length]
    refine List.take_of_length_le (?_ : f.bytes.length ≤ 263)
    omega
  obtain ⟨p, hp, hp253⟩ := Option.map_eq_some_iff.1 h.maxSize
  have hfit : f.data.length ≤ p.maxSize.toNat := by
    rw [hp253]
    exact f.fits
  rcases tcpStep_within hpart (some client) hbytes (Nat.zero_add _).le with
    ⟨hshort, -⟩ | ⟨-, hwhole⟩
  · omega
  obtain ⟨buf, curr, hcurr, hslice, heq, hups⟩ := hwhole p hp hfit (.inl h.isServer)
  obtain ⟨node, fs, hsame, -, -, hfs, -, hdata⟩ := hspec
  have hid : (tcpStep s.node.tcp
      (.event (some client) (.dataReceived (.upTo (s.unread client))))).1.outId = f.transactId := by
    have htr := transactId_of_slice (hslice.trans (List.take_length).symm) (by omega)
    rw [heq]
    unfold EmbTcp.outId
    dsimp only
    rw [if_pos h.isServer, htr, Word.swap_swap]
  rw [hid] at hfs
  refine ⟨node, fs, ?_, ?_, hfs, ?_⟩
  · rw [hsame.counter, heq]
  · rw [hsame.curr, heq]
    exact hcurr
  · have hdrop : (s.unread client).drop 263 = [] := by
      rw [hunread, List.drop_eq_nil_iff]
      omega
    rw [hdata, hasked, hdrop, delivered_of_upcalls hslice hups]
    simp

variable (ssrv) in
/-- Between two frames an event that brings nothing leaves the receiver at rest. -/
theorem dataReceived_nothing (h : s.Inv) (hcounter : s.node.tcp.rxPktCounter = 0)
    (hcurr : s.node.tcp.currRxLength ≤ 0) (hopen : client ∈ s.tcpServer.opened)
    (hunread : s.unread client = []) (ok : Bool) :
    let r := s.dataReceived ssrv client ok
    r.1.AtRest ∧ r.1.tcpServer = s.tcpServer ∧ r.1.unread = s.unread ∧ r.1.written = s.written
      ∧ r.2 = [] := by
  let f : TcpFrame := ⟨0, 0, 0, 0, [0], by simp, one_byte_fits⟩
  have hpart : s.node.tcp.Partway f 0 := .start hcounter hcurr f
  have hbytes : (s.unread client).take s.node.tcp.toBeRead.toNat = [] := by
    rw [hunread, List.take_nil]
  have hgives := tcpStep_nothing hpart (some client) hbytes
  obtain ⟨node, fs, hsame, -, -, -, hfs, hdata⟩ := dataReceived_spec ssrv h.isServer hopen ok
  rcases tcpStep_within hpart (some client) (m := 0) (by rw [hbytes]; rfl) (Nat.zero_le _) with
    ⟨-, hnext, hups, -⟩ | ⟨hwhole, -⟩
  · dsimp only
    rw [hdata]
    refine ⟨⟨?_, ?_⟩, rfl, ?_, ?_, ?_⟩
    · exact hsame.counter.trans hnext.counter
    · exact hsame.curr.trans hgives
    · dsimp only
      rw [hunread, List.drop_nil, ← hunread, Function.update_eq_self]
    · dsimp only
      rw [hfs hups, List.flatten_nil, List.append_nil, Function.update_eq_self]
    · unfold TcpOut.delivered
      rw [hups]
      rfl
  · exact absurd hwhole hpart.lt.ne

omit [DecidableEq ι] in
theorem TcpExchange.Ready.congr {s' : EmbTcpViaTcpServer σ ι} {e : TcpExchange ι} (h : e.Ready s)
    (hserver : s'.tcpServer = s.tcpServer) (hunread : s'.unread = s.unread) : e.Ready s' :=
  ⟨by rw [hserver]; exact h.client, by rw [hunread]; exact h.unread,
    by rw [hserver]; exact h.drains, by rw [hunread]; exact h.drained⟩

variable (ssrv) in
theorem run_exchange (h : s.Inv) (hrest : s.AtRest) (e : TcpExchange ι) (he : e.Ready s) :
    ∃ fs : List (List Byte), (∀ f ∈ fs, IsFrame e.frame.transactId f)
      ∧ ∃ s' : EmbTcpViaTcpServer σ ι, run (step ssrv) s e.inputs = (s', [[e.frame.view], []])
        ∧ s'.Inv ∧ s'.AtRest ∧ s'.tcpServer = s.tcpServer ∧ s'.unread = s.unread
        ∧ s'.written
          = Function.update s.written e.client (s.written e.client ++ fs.flatten) := by
  set s₁ : EmbTcpViaTcpServer σ ι :=
    { s with unread := Function.update s.unread e.client (s.unread e.client ++ e.frame.bytes) }
    with hs₁
  have h₁ : s₁.Inv :=
    ⟨⟨h.sound.counter, h.sound.nodup, h.sound.strayed, h.sound.frames, h.sound.rest⟩,
      h.isServer, h.maxSize⟩
  have hunread₁ : s₁.unread e.client = e.frame.bytes := by
    rw [hs₁, he.unread]
    exact Function.update_self ..
  obtain ⟨node, fs, hcounter, hcurr, hfs, hdata⟩ :=
    dataReceived_frame ssrv h₁ hrest he.client hunread₁ e.ok
  have h₂ := h₁.dataReceived ssrv he.client e.ok
  set s₂ := (s₁.dataReceived ssrv e.client e.ok).1 with hs₂
  have heq₂ : s₂ = _ := congrArg Prod.fst hdata
  have hunread₂ : s₂.unread = s.unread := by
    rw [heq₂]
    dsimp only
    rw [hs₁]
    dsimp only
    rw [Function.update_idem, ← he.unread, Function.update_eq_self]
  have hdrains₂ : e.drains ∈ s₂.tcpServer.opened := by
    rw [heq₂]
    exact he.drains
  obtain ⟨hrest', hserver, hunread, hwritten, hout⟩ := dataReceived_nothing ssrv h₂
    (by rw [heq₂]; exact hcounter) (by rw [heq₂]; exact hcurr) hdrains₂
    (by rw [hunread₂]; exact he.drained) e.ok
  refine ⟨fs, hfs, (s₂.dataReceived ssrv e.drains e.ok).1, ?_, ?_, hrest', ?_, ?_, ?_⟩
  · have hview : (s₁.dataReceived ssrv e.client e.ok).2 = [e.frame.view] :=
      congrArg Prod.snd hdata
    unfold TcpExchange.inputs
    simp only [run_cons, run_nil, step]
    rw [← hs₁, hview, ← hs₂, hout]
  · exact h₂.dataReceived ssrv hdrains₂ e.ok
  · rw [hserver, heq₂]
  · rw [hunread, hunread₂]
  · rw [hwritten, heq₂]

variable (ssrv) in
theorem run_exchanges : ∀ (es : List (TcpExchange ι)) {s : EmbTcpViaTcpServer σ ι}, s.Inv →
    s.AtRest → (∀ e ∈ es, e.Ready s) →
    let r := run (step ssrv) s (es.flatMap TcpExchange.inputs)
    r.2.flatten = es.map (fun e => e.frame.view)
      ∧ ∀ c, ∃ fs : List (List Byte),
        (∀ f ∈ fs, ∃ e ∈ es, e.client = c ∧ IsFrame e.frame.transactId f)
        ∧ r.1.written c = s.written c ++ fs.flatten
  | [], s, _, _, _ => ⟨rfl, fun c => ⟨[], by simp, (List.append_nil _).symm⟩⟩
  | e :: es, s, h, hrest, hes => by
    obtain ⟨he, hes⟩ := List.forall_mem_cons.1 hes
    obtain ⟨gs, hgs, s', hrun, h', hrest', hserver, hunread, hwritten⟩ :=
      run_exchange ssrv h hrest e he
    obtain ⟨hout, hfs⟩ := run_exchanges es h' hrest'
      fun e' he' => (hes e' he').congr hserver hunread
    dsimp only
    rw [List.flatMap_cons, run_append, hrun]
    refine ⟨?_, fun c => ?_⟩
    · simp [hout]
    · obtain ⟨fs, hfs, heq⟩ := hfs c
      dsimp only
      rw [heq, hwritten]
      by_cases hc : c = e.client
      · subst hc
        refine ⟨gs ++ fs, fun f hf => ?_, by simp⟩
        rcases List.mem_append.1 hf with hf | hf
        · exact ⟨e, by simp, rfl, hgs f hf⟩
        · obtain ⟨e', he', hclient, hframe⟩ := hfs f hf
          exact ⟨e', by simp [he'], hclient, hframe⟩
      · refine ⟨fs, fun f hf => ?_, by rw [Function.update_of_ne hc]⟩
        obtain ⟨e', he', hclient, hframe⟩ := hfs f hf
        exact ⟨e', by simp [he'], hclient, hframe⟩

/-- Whatever the connections have done so far, and whatever a connection that is gone has left in
the buffer: once the timer has had its time, whole frames that open connections with nothing unread
send one at a time are passed to the super server, each as it was sent and in their order, and all
that is written is whole frames on those connections under the transaction ids of their own
requests. -/
theorem timer_recovers (ssrv : EmbSuperServer σ) (rxPdu txPdu : EmbPdu) (store : σ)
    (ins : List (TcpServerInput ι))
    (hlegal : Along (step ssrv) Legal (create ι rxPdu txPdu store) ins)
    (es : List (TcpExchange ι))
    (hes : ∀ e ∈ es, e.Ready (run (step ssrv) (create ι rxPdu txPdu store) ins).1) :
    let s := (run (step ssrv) (create ι rxPdu txPdu store) ins).1
    let r := run (step ssrv) s (.rxTimeout :: es.flatMap TcpExchange.inputs)
    r.2.flatten = es.map (fun e => e.frame.view)
      ∧ ∀ c, ∃ fs : List (List Byte),
        (∀ f ∈ fs, ∃ e ∈ es, e.client = c ∧ IsFrame e.frame.transactId f)
        ∧ r.1.written c = s.written c ++ fs.flatten := by
  have hinv := run_inv rxPdu txPdu store hlegal
  dsimp only
  set s := (run (step ssrv) (create ι rxPdu txPdu store) ins).1
  have hinv' : ((step ssrv s .rxTimeout).1).Inv := step_inv ssrv s .rxTimeout hinv trivial
  have hstep : (step ssrv s .rxTimeout).1.AtRest ∧ (step ssrv s .rxTimeout).1.unread = s.unread
      ∧ (step ssrv s .rxTimeout).1.tcpServer = s.tcpServer
      ∧ (step ssrv s .rxTimeout).1.written = s.written := by
    by_cases htimer : s.rxTimeoutTimer = true
    · have hfires : (step ssrv s .rxTimeout).1 = s.onRxTimeout := by simp [step, htimer]
      rw [hfires]
      exact ⟨⟨rfl, rfl⟩, rfl, rfl, rfl⟩
    · have hoff : s.rxTimeoutTimer = false := by simpa using htimer
      have hstays : (step ssrv s .rxTimeout).1 = s := by simp [step, hoff]
      rw [hstays]
      exact ⟨hinv.sound.rest hoff, rfl, rfl, rfl⟩
  obtain ⟨hrest, hunread, hserver, hwritten⟩ := hstep
  obtain ⟨hout, hfs⟩ := run_exchanges ssrv es hinv' hrest
    fun e he => (hes e he).congr hserver hunread
  rw [run_cons]
  refine ⟨?_, fun c => ?_⟩
  · rw [List.flatten_cons, hout]
    rfl
  · rw [← hwritten]
    exact hfs c

/-- The connection that is still open sends two requests. -/
def twoRequests : List (TcpExchange Bool) :=
  [⟨false, ⟨1, 0, 1, 3, [0], Nat.le_refl 1, one_byte_fits⟩, false, true⟩,
    ⟨false, ⟨2, 0, 1, 3, [7], Nat.le_refl 1, one_byte_fits⟩, false, true⟩]

theorem twoRequests_ready :
    ∀ e ∈ twoRequests, e.Ready (run (step (.bare Unit)) emptyPort leftBehind).1 := by
  intro e he
  have hfalse : e.client = false ∧ e.drains = false := by
    simp only [twoRequests, List.mem_cons, List.not_mem_nil, or_false] at he
    rcases he with rfl | rfl <;> exact ⟨rfl, rfl⟩
  have hopen : false ∈ (run (step (.bare Unit)) emptyPort leftBehind).1.tcpServer.opened :=
    show false ∈ [false] by simp
  refine ⟨?_, ?_, ?_, ?_⟩
  · rw [hfalse.1]
    exact hopen
  · rw [hfalse.1]
    rfl
  · rw [hfalse.2]
    exact hopen
  · rw [hfalse.2]
    rfl

theorem timer_recovers_two :
    let s := (run (step (.bare Unit)) emptyPort leftBehind).1
    let r := run (step (.bare Unit)) s (.rxTimeout :: twoRequests.flatMap TcpExchange.inputs)
    r.2.flatten = twoRequests.map (fun e => e.frame.view)
      ∧ ∀ c, ∃ fs : List (List Byte),
        (∀ f ∈ fs, ∃ e ∈ twoRequests, e.client = c ∧ IsFrame e.frame.transactId f)
        ∧ r.1.written c = s.written c ++ fs.flatten :=
  timer_recovers (.bare Unit) _ _ () leftBehind leftBehind_legal twoRequests twoRequests_ready

end EmbTcpViaTcpServer

end Emodbus
