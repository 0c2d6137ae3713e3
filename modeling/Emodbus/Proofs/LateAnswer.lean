import Emodbus.Proofs.TcpClient

/-!
# What a late answer does to the pending transaction

The transport reports an id that is not the one in `tx_buf` as an error, and the client ends the
pending transaction with every error.  So the answer that comes after it finds no transaction, or
one that was started since.
-/

namespace Emodbus

open Octets Mealy

variable {π ι : Type}

namespace TcpClient

section Event

variable (wrote : List Byte → ℤ) (user : ClientUser π) {s : TcpClient π ι} (answer : Option Answer)
  {i : ClientInput π} {req : EmbClientTransaction π}

/-- An event that ends the pending transaction: it tells its end, and a transaction that is pending
then has been started since. -/
theorem clientEvent_ends (hcurr : s.node.run.cli.currTransaction = some req) {fin : ClientEnd}
    (hfin : i.endOf s.node.run.cli req = some fin) :
    (s.clientEvent wrote user answer i).told = s.told ++ (if req.hears fin then
        [⟨⟨req, fin, req.respPdu.map s.node.pdus⟩, s.requested.length - 1, answer⟩] else [])
      ∧ (s.clientEvent wrote user answer i).node.pdus = s.node.pdus
      ∧ ((s.clientEvent wrote user answer i).node.run.cli.currTransaction ≠ none →
        s.requested.length < (s.clientEvent wrote user answer i).requested.length) := by
  obtain ⟨xs, hgoes⟩ := ClientRun.Goes.event_ends user req hcurr hfin
  rw [clientEvent_eq hgoes rfl]
  refine ⟨?_, rfl, fun hpend => ?_⟩
  · unfold EmbClientTransaction.told
    split_ifs
    · rfl
    · rfl
  dsimp only at hpend ⊢
  rw [List.length_append]
  cases xs with
  | nil =>
    rw [hgoes.cli] at hpend
    exact absurd rfl hpend
  | cons a xs =>
    unfold requests
    rw [List.length_cons]
    omega

end Event

section Receive

variable [DecidableEq π] (wrote : List Byte → ℤ) (user : ClientUser π) {s : TcpClient π ι}

theorem afterRead_pdus {n : ClientNode π ι} {t : EmbTcp ι}
    (h : t.transport.rxPdu = n.view.transport.rxPdu) : (n.afterRead t).pdus = n.pdus := by
  unfold ClientNode.afterRead
  dsimp only
  rw [h]
  cases hp : n.run.cli.rxPdu with
  | none => rfl
  | some p =>
    have hview : n.view.transport.rxPdu = some (n.pdus p) := by
      unfold ClientNode.view
      rw [hp]
      rfl
    rw [hview]
    exact Function.update_eq_self p n.pdus

/-- The frame comes to the client, whether it takes one data event or two. -/
theorem receive_eq (hs : s.Inv) (client : Option ι) (a : Answer) :
    ∃ t : EmbTcp ι, ∃ buf, Mem.slice buf 0 a.frame.bytes.length = a.frame.bytes
      ∧ t.transport.rxPdu = (a.frame.taken s.node.view buf).1
      ∧ s.receive wrote user client a
        = (a.frame.taken s.node.view buf).2.foldl
          (fun s u => s.clientEvent wrote user (some a) (ClientNode.ofUpcall u))
          { s with node := s.node.afterRead t } := by
  have hview : s.node.view.transport.isServer = false := hs.isServer
  have hasked := tcpStep_asked s.node.view client (.upTo a.frame.bytes)
  have hcount : s.node.view.rxPktCounter = 0 := hs.counter
  have hle : s.node.view.currRxLength ≤ 0 := hs.curr
  have hsize : embTcpRxBufSize = 263 := rfl
  rw [if_neg (by omega)] at hasked
  unfold EmbTcp.toBeRead at hasked
  unfold receive step portEvent
  dsimp only
  rw [hasked]
  rcases tcpStep_whole (f := a.frame) hview hcount hle client with
    ⟨hzero, hups, buf, hstate⟩ | ⟨hneg, buf, curr, -, hslice, hstate, hups⟩
  · -- the first event reads nothing, and the second finds the client as it was
    rw [if_pos (by rw [if_pos (by omega)]; omega), hups, hstate]
    set t : EmbTcp ι := { s.node.view with
      tcpClientId := client, rxBuf := buf, rxPktCounter := 0, currRxLength := -1 }
    have hpdus : (s.node.afterRead t).pdus = s.node.pdus := afterRead_pdus rfl
    have hview' : (s.node.afterRead t).view = t := by
      unfold ClientNode.view
      rw [hpdus]
      rfl
    rw [List.foldl_nil]
    dsimp only
    rw [hview']
    have ht : t.transport.isServer = false := hs.isServer
    have ht0 : t.rxPktCounter = 0 := rfl
    have ht1 : t.currRxLength = -1 := rfl
    rcases tcpStep_whole (f := a.frame) ht ht0 (by omega) client with
      ⟨hzero', -⟩ | ⟨-, buf', curr, -, hslice, hstate', hups'⟩
    · omega
    · have htaken : a.frame.taken t buf' = a.frame.taken s.node.view buf' := rfl
      rw [htaken] at hups' hstate'
      rw [hups', hstate']
      refine ⟨{ t with
        tcpClientId := client, rxBuf := buf', rxPktCounter := 0, currRxLength := curr,
        transport.rxPdu := (a.frame.taken s.node.view buf').1 }, buf', hslice, rfl, ?_⟩
      unfold ClientNode.afterRead at hpdus ⊢
      rw [hpdus]
  · rw [if_neg (by rw [if_neg (by omega)]; omega), hups, hstate]
    exact ⟨_, buf, hslice, rfl, rfl⟩

theorem Inv.receive (hs : s.Inv) (client : Option ι) (a : Answer) :
    (s.receive wrote user client a).Inv := by
  have hfirst : (s.step wrote user (.answer client a)).1.Inv := hs.step _
  unfold TcpClient.receive
  dsimp only
  split_ifs
  · exact hfirst.step _
  · exact hfirst

/-- Whatever frame comes, only the transaction that is pending is told of. -/
theorem receive_told (hs : s.Inv) (client : Option ι) (a : Answer) :
    ∃ ts, (s.receive wrote user client a).told = s.told ++ ts
      ∧ (∀ t ∈ ts, t.number = s.requested.length - 1)
      ∧ (s.node.run.cli.currTransaction = none → ts = []) := by
  obtain ⟨t, buf, -, -, heq⟩ := receive_eq wrote user hs client a
  rw [heq]
  have hups : (a.frame.taken s.node.view buf).2 = []
      ∨ ∃ u, (a.frame.taken s.node.view buf).2 = [u] := by
    unfold TcpFrame.taken
    split_ifs
    · exact .inr ⟨_, rfl⟩
    · split
      · exact .inl rfl
      · split_ifs
        · exact .inr ⟨_, rfl⟩
        · exact .inr ⟨_, rfl⟩
  rcases hups with hups | ⟨u, hups⟩
  · rw [hups]
    exact ⟨[], (List.append_nil _).symm, by simp, fun _ => rfl⟩
  · rw [hups, List.foldl_cons, List.foldl_nil]
    obtain ⟨r, ends, xs, hgoes, hacts, hends, -⟩ := clientEvent_goes user
      ({ s with node := s.node.afterRead t } : TcpClient π ι) (ClientNode.ofUpcall u)
    rw [clientEvent_eq hgoes hacts]
    refine ⟨_, rfl, fun t' ht' => ?_, fun hnone => ?_⟩
    · obtain ⟨e, -, rfl⟩ := List.mem_map.1 ht'
      rfl
    · rcases hends with rfl | ⟨req, fin, hreq, -⟩
      · rfl
      · rw [show s.node.run.cli.currTransaction = some req from hreq] at hnone
        cases hnone

/-- The frame is not the answer to the pending transaction, and ends it. -/
theorem receive_late (hs : s.Inv) (client : Option ι) {a : Answer}
    (hid : EmbTcp.transactId s.node.tcp.txBuf ≠ a.frame.transactId.swap)
    {req : EmbClientTransaction π} (hcurr : s.node.run.cli.currTransaction = some req) :
    (s.receive wrote user client a).told
        = s.told ++ (if req.hears (.error (-modbusRespWrongTransactionId)) then
          [⟨⟨req, .error (-modbusRespWrongTransactionId), req.respPdu.map s.node.pdus⟩,
            s.requested.length - 1, some a⟩] else [])
      ∧ (s.receive wrote user client a).node.pdus = s.node.pdus
      ∧ ((s.receive wrote user client a).node.run.cli.currTransaction ≠ none →
        s.requested.length < (s.receive wrote user client a).requested.length) := by
  obtain ⟨t, buf, -, hrx, heq⟩ := receive_eq wrote user hs client a
  have htaken : a.frame.taken s.node.view buf
      = (s.node.view.transport.rxPdu, [.error (-modbusRespWrongTransactionId)]) := if_pos hid
  rw [htaken] at hrx heq
  rw [heq, List.foldl_cons, List.foldl_nil]
  have hpdus := afterRead_pdus hrx
  obtain ⟨htold, hkept, hstarted⟩ := clientEvent_ends wrote user (some a)
    (s := { s with node := s.node.afterRead t })
    (i := .error (-modbusRespWrongTransactionId)) hcurr rfl
  dsimp only at htold hkept
  rw [hpdus] at htold hkept
  exact ⟨htold, hkept, hstarted⟩

/-- The frame is the answer to the pending transaction. -/
theorem receive_own (hs : s.Inv) (client : Option ι) {a : Answer}
    (hid : EmbTcp.transactId s.node.tcp.txBuf = a.frame.transactId.swap)
    {req : EmbClientTransaction π} (hcurr : s.node.run.cli.currTransaction = some req) {p : π}
    (hp : req.respPdu = some p) (hfit : a.frame.data.length ≤ (s.node.pdus p).maxSize.toNat)
    (haddr : (a.frame.unitId.toNat : ℤ) = s.node.run.cli.currAddr) :
    ∃ pdu, pdu.Carries a.frame.function a.frame.data
      ∧ (s.receive wrote user client a).told
        = s.told ++ (if req.hears (a.frame.answerEnd req.reqPdu.function) then
          [⟨⟨req, a.frame.answerEnd req.reqPdu.function, some pdu⟩, s.requested.length - 1, some a⟩]
          else []) := by
  obtain ⟨t, buf, hslice, hrx, heq⟩ := receive_eq wrote user hs client a
  have hcli : s.node.run.cli.rxPdu = some p := (hs.rxPdu req hcurr).trans hp
  have hview : s.node.view.transport.rxPdu = some (s.node.pdus p) := by
    unfold ClientNode.view
    rw [hcli]
    rfl
  have htaken : a.frame.taken s.node.view buf = (some (a.frame.copiedTo buf (s.node.pdus p)),
      [.recvPacket a.frame.unitId.toNat (a.frame.copiedTo buf (s.node.pdus p))]) := by
    have hid' : EmbTcp.transactId s.node.view.txBuf = a.frame.transactId.swap := hid
    unfold TcpFrame.taken
    rw [if_neg (not_not.2 hid'), hview]
    exact if_neg (Nat.not_lt.2 hfit)
  rw [htaken] at hrx heq
  rw [heq, List.foldl_cons, List.foldl_nil]
  set pdu := a.frame.copiedTo buf (s.node.pdus p) with hpdu
  have hdata : pdu.data 0 = a.frame.data.headD 0 := by
    have hpos : 0 < a.frame.data.length := a.frame.nonempty
    have hhead := data_of_slice hslice
    obtain ⟨x, xs, hx⟩ := List.exists_cons_of_length_pos hpos
    rw [hx, List.length_cons, Mem.slice_succ, List.cons.injEq] at hhead
    rw [hx, hpdu]
    unfold TcpFrame.copiedTo Mem.copy Mem.shift
    dsimp only
    rw [if_pos hpos]
    exact hhead.1
  have hend : packetEnd s.node.run.cli req a.frame.unitId.toNat pdu
      = a.frame.answerEnd req.reqPdu.function := by
    have hbase : embExceptionBase = 1500 := rfl
    have hfun : pdu.function = a.frame.function := rfl
    unfold packetEnd TcpFrame.answerEnd embCheckPduForException
    rw [if_neg (not_not.2 haddr.symm), hdata, hfun]
    by_cases hexc : a.frame.function &&& 0x80 ≠ 0
    · rw [if_pos hexc, if_pos hexc, if_pos (by omega), Int.add_comm]
    · rw [if_neg hexc, if_neg hexc, if_neg (not_not.2 rfl)]
  have hnew : (s.node.afterRead t).pdus = Function.update s.node.pdus p pdu := by
    unfold ClientNode.afterRead
    rw [hcli, hrx]
  obtain ⟨htold, -, -⟩ := clientEvent_ends wrote user (some a)
    (s := { s with node := s.node.afterRead t })
    (i := .recvPacket a.frame.unitId.toNat pdu) hcurr rfl
  dsimp only at htold
  have hcli' : (s.node.afterRead t).run.cli = s.node.run.cli := rfl
  rw [hnew, hcli', hend, hp, Option.map_some, Function.update_self] at htold
  exact ⟨pdu, ⟨rfl, TcpFrame.bytes_copiedTo hslice _⟩, htold⟩

end Receive

/-! ## The two runs -/

theorem Reachable.inv [DecidableEq π] {wrote : List Byte → ℤ} {user : ClientUser π}
    {s : TcpClient π ι} (hs : s.Reachable wrote user) : s.Inv := by
  obtain ⟨onResponse, onError, pdus, ins, rfl⟩ := hs
  exact run_inv (Q := fun _ _ => True) (fun _ i hs _ => hs.step i) ins _
    (inv_start ι onResponse onError pdus) (along_of_forall (P := fun _ => True) fun _ _ => trivial)

/-- The id in `tx_buf` is that of the last transaction. -/
theorem Inv.pending_id {s : TcpClient π ι} (hs : s.Inv) {n : ℕ} {q : Requested π} {id : Word}
    (hlen : s.requested.length = n + 1) (hget : s.requested[n]? = some q) (hid : q.id = some id) :
    EmbTcp.transactId s.node.tcp.txBuf = id.swap := by
  obtain ⟨as, has, htx⟩ := hs.ids
  rw [has, length_numbered] at hlen
  rw [has] at hget
  obtain ⟨-, hqid⟩ := getElem?_numbered hget
  split_ifs at hqid
  · rw [hid, Option.some.injEq, Nat.zero_add, List.take_of_length_le hlen.le] at hqid
    rw [htx, hqid]
  · rw [hid] at hqid
    cases hqid

/-- What is told of other transactions is no matter. -/
theorem outcome_others {s s' : TcpClient π ι} {ts : List (Told π)} {k : ℕ}
    (h : s'.told = s.told ++ ts) (hts : ∀ t ∈ ts, t.number ≠ k) : s'.outcome k = s.outcome k := by
  have hnil : ts.filter (fun t => t.number = k) = [] := by
    rw [List.filter_eq_nil_iff]
    simpa using hts
  unfold outcome
  rw [h, List.filter_append, hnil, List.append_nil]

/-- The first that is told of a transaction. -/
theorem outcome_first {s s' : TcpClient π ι} {req : EmbClientTransaction π} {fin : ClientEnd}
    {pdu : Option EmbPdu} {k : ℕ} {answer : Option Answer}
    (h : s'.told = s.told ++ (if req.hears fin then [⟨⟨req, fin, pdu⟩, k, answer⟩] else []))
    (hnone : ∀ t ∈ s.told, t.number ≠ k) :
    s'.outcome k
      = if req.hears fin then [(fin, pdu.map fun p => (p.function, p.bytes))] else [] := by
  have hnil : s.told.filter (fun t => t.number = k) = [] := by
    rw [List.filter_eq_nil_iff]
    simpa using hnone
  unfold outcome
  rw [h, List.filter_append, hnil, List.nil_append]
  split_ifs
  · simp
  · rfl

end TcpClient

open TcpClient

/-- A frame with another id that comes while a transaction is pending ends it with an error and its
response PDU as it was, and the correct answer that follows does not change that; without the
frame, it is the answer that ends the transaction. -/
theorem late_answer_ends_pending [DecidableEq π] {wrote : List Byte → ℤ} {user : ClientUser π}
    {s : TcpClient π ι} (hs : s.Reachable wrote user) (client : Option ι) {late own : Answer}
    {req : EmbClientTransaction π} {q : Requested π} {id : Word} {p : π}
    (hcurr : s.node.run.cli.currTransaction = some req) (hq : s.requested.getLast? = some q)
    (hid : q.id = some id) (hlate : late.frame.transactId ≠ id) (hown : own.frame.transactId = id)
    (haddr : (own.frame.unitId.toNat : ℤ) = q.addr) (hp : req.respPdu = some p)
    (hfit : own.frame.data.length ≤ (s.node.pdus p).maxSize.toNat) :
    let k := s.requested.length - 1
    let fin := own.frame.answerEnd req.reqPdu.function
    let aborted := ClientEnd.error (-modbusRespWrongTransactionId)
    (s.receive wrote user client own).outcome k
        = (if req.hears fin then [(fin, some (own.frame.function, own.frame.data))] else [])
      ∧ ((s.receive wrote user client late).receive wrote user client own).outcome k
        = if req.hears aborted then
            [(aborted, some ((s.node.pdus p).function, (s.node.pdus p).bytes))] else [] := by
  have hinv := hs.inv
  obtain ⟨n, q', hlen, hget, -, hqaddr, htold⟩ := hinv.pending req hcurr
  rw [List.getLast?_eq_getElem?, hlen, Nat.add_sub_cancel, hget, Option.some.injEq] at hq
  subst hq
  have htxid := hinv.pending_id hlen hget hid
  have hnone : ∀ t ∈ s.told, t.number ≠ n := fun t ht => (htold t ht).ne
  dsimp only
  rw [hlen, Nat.add_sub_cancel]
  constructor
  · obtain ⟨pdu, hpdu, hnew⟩ := receive_own wrote user hinv client
      (by rw [htxid, hown]) hcurr hp hfit (haddr.trans hqaddr)
    rw [hlen, Nat.add_sub_cancel] at hnew
    rw [outcome_first hnew hnone, Option.map_some, hpdu.function, hpdu.bytes]
  · have hne : EmbTcp.transactId s.node.tcp.txBuf ≠ late.frame.transactId.swap := by
      rw [htxid]
      intro h
      have hswap := congrArg Word.swap h
      rw [Word.swap_swap, Word.swap_swap] at hswap
      exact hlate hswap.symm
    obtain ⟨hnew, -, hstarted⟩ := receive_late wrote user hinv client hne hcurr
    have hinv' : (s.receive wrote user client late).Inv := hinv.receive wrote user client late
    obtain ⟨ts, hts, hnumber, hidle⟩ := receive_told wrote user hinv' client own
    rw [hlen, Nat.add_sub_cancel] at hnew
    -- what the answer ends, if anything, is a transaction that was started since
    have hother : ∀ t ∈ ts, t.number ≠ n := by
      intro t ht
      have hcurr' : (s.receive wrote user client late).node.run.cli.currTransaction ≠ none := by
        intro hnil
        rw [hidle hnil] at ht
        cases ht
      have hlt := hstarted hcurr'
      have hnum := hnumber t ht
      omega
    rw [outcome_others hts hother, outcome_first hnew hnone, hp]
    rfl

/-- The client of two transactions, the first of which has run out of time. -/
def secondPending : TcpClient Unit Unit :=
  (run idleStep idleStart [.doTransaction 1 (writeFileOf 4), .waitTimeout,
    .doTransaction 1 (writeFileOf 4)]).1

theorem secondPending_reachable : secondPending.Reachable wroteAll fun _ => [] :=
  ⟨true, true, fun _ => ⟨0, 0, 253, fun _ => 0⟩, _, rfl⟩

theorem second_ended_by_late_answer :
    (secondPending.receive wroteAll (fun _ => []) none (writeFileAnswer 1 2)).outcome 1
        = [(.response, some (0x15, [0]))]
      ∧ ((secondPending.receive wroteAll (fun _ => []) none (writeFileAnswer 0 1)).receive wroteAll
          (fun _ => []) none (writeFileAnswer 1 2)).outcome 1
        = [(.error (-modbusRespWrongTransactionId), some (0, []))] := by
  have hcurr : secondPending.node.run.cli.currTransaction = some (writeFileOf 4) := rfl
  have hlast : secondPending.requested.getLast? = some ⟨1, writeFileOf 4, some 2⟩ := rfl
  exact late_answer_ends_pending secondPending_reachable none hcurr hlast rfl
    (show (1 : Word) ≠ 2 by simp) rfl rfl rfl (show 1 ≤ 253 by simp)

/-- A late answer makes a difference. -/
theorem late_answer_disturbs :
    (secondPending.receive wroteAll (fun _ => []) none (writeFileAnswer 1 2)).outcome 1
      ≠ ((secondPending.receive wroteAll (fun _ => []) none (writeFileAnswer 0 1)).receive wroteAll
          (fun _ => []) none (writeFileAnswer 1 2)).outcome 1 := by
  intro h
  have hends := congrArg (List.map Prod.fst) h
  exact absurd hends (by decide)

end Emodbus
