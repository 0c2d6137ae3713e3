import Emodbus.Proofs.ClientTurn
import Emodbus.Proofs.TcpSender
import Emodbus.TcpClient

/-!
# A TCP client takes its own answers only

The receiver is empty between two events, as a read brings a whole frame or nothing, so what the
client is told depends on the frame and on the transaction id in `tx_buf` (`TcpFrame.taken`).  That
id is the number of requests sent so far, and the requests sent between an answer's own and the
pending one are fewer than there are ids.
-/

namespace Emodbus

open Octets Mealy

variable {π ι : Type}

/-! ## A whole frame -/

/-- What becomes of the PDU, and what the high level is told, when the frame lies in `buf`. -/
def TcpFrame.taken (f : TcpFrame) (t : EmbTcp ι) (buf : Mem Byte) : Option EmbPdu × List Upcall :=
  if EmbTcp.transactId t.txBuf ≠ f.transactId.swap then
    (t.transport.rxPdu, [.error (-modbusRespWrongTransactionId)])
  else
    match t.transport.rxPdu with
    | none => (none, [])
    | some p =>
      if p.maxSize.toNat < f.data.length then (some p, [.error (-modbusRespBufferOvf)])
      else (some (f.copiedTo buf p), [.recvPacket f.unitId.toNat (f.copiedTo buf p)])

section Whole

variable {t : EmbTcp ι} {f : TcpFrame}

theorem acceptPacket_taken (hserver : t.transport.isServer = false)
    (h : Mem.slice t.rxBuf 0 f.bytes.length = f.bytes) :
    (acceptPacket t (swapBytes (EmbTcp.mbapLength t.rxBuf) - 1)).1
        = { t with transport.rxPdu := (f.taken t t.rxBuf).1 }
      ∧ TcpOut.upcalls (acceptPacket t (swapBytes (EmbTcp.mbapLength t.rxBuf) - 1)).2
        = (f.taken t t.rxBuf).2 := by
  have htaken : Mem.slice t.rxBuf 0 f.bytes.length = f.bytes.take f.bytes.length := by
    rw [h, List.take_length]
  have hb := f.length_bytes_bounds
  have hrx := transactId_of_slice htaken (by omega)
  have hlen := mbapLength_of_slice htaken (by omega)
  have hfits := f.fits
  unfold maxPduDataSize at hfits
  unfold TcpFrame.taken
  by_cases hid : EmbTcp.transactId t.txBuf = f.transactId.swap
  · rw [if_neg (not_not.2 hid)]
    cases hp : t.transport.rxPdu with
    | none =>
      unfold acceptPacket
      rw [if_neg (by simp [hrx, hid]), hp]
      refine ⟨?_, rfl⟩
      dsimp only
      rw [← hp]
    | some p =>
      dsimp only
      split_ifs with hovf
      · have h1 : (1 : Word).toNat = 1 := rfl
        have hpkt : ((BitVec.ofNat 16 (f.data.length + 2) - 1 : Word).toNat : ℤ) - 1
            = (f.data.length : ℕ) := by
          rw [BitVec.toNat_sub, BitVec.toNat_ofNat, h1]
          omega
        unfold acceptPacket
        rw [if_neg (by simp [hrx, hid]), hp]
        dsimp only
        rw [hlen, hpkt, if_pos (by omega)]
        refine ⟨?_, rfl⟩
        rw [← hp]
      · rw [acceptPacket_frame h (Or.inr hid) hp (Nat.not_lt.1 hovf)]
        exact ⟨rfl, rfl⟩
  · rw [if_pos hid]
    unfold acceptPacket
    rw [if_pos (by simp [hserver, hrx, hid])]
    exact ⟨rfl, rfl⟩

/-- A data event that finds the frame, with an empty buffer: it reads nothing, or it takes the
frame in. -/
theorem tcpStep_whole (hserver : t.transport.isServer = false) (hcount : t.rxPktCounter = 0)
    (hcurr : t.currRxLength ≤ 0) (client : Option ι) :
    let r := tcpStep t (.event client (.dataReceived (.upTo f.bytes)))
    (t.currRxLength = 0 ∧ TcpOut.upcalls r.2 = []
        ∧ ∃ buf, r.1 = { t with
          tcpClientId := client, rxBuf := buf, rxPktCounter := 0, currRxLength := -1 })
      ∨ (t.currRxLength < 0 ∧ ∃ buf curr, curr ≤ 0 ∧ Mem.slice buf 0 f.bytes.length = f.bytes
        ∧ r.1 = { t with
          tcpClientId := client, rxBuf := buf, rxPktCounter := 0, currRxLength := curr,
          transport.rxPdu := (f.taken t buf).1 }
        ∧ TcpOut.upcalls r.2 = (f.taken t buf).2) := by
  have hb := f.length_bytes_bounds
  have hsize : embTcpRxBufSize = 263 := rfl
  dsimp only
  rw [tcpStep_dataReceived, if_neg (by omega)]
  unfold EmbTcp.toBeRead
  rcases Int.lt_or_eq_of_le hcurr with hneg | hzero
  · right
    rw [if_neg (by omega), if_neg (by omega)]
    have hread : (PortRead.upTo f.bytes).read ((embTcpRxBufSize : ℤ) - t.rxPktCounter).toNat
        = some f.bytes := by
      have hle : f.bytes.length ≤ ((embTcpRxBufSize : ℤ) - t.rxPktCounter).toNat := by omega
      exact congrArg some (List.take_of_length_le hle)
    rw [hread]
    dsimp only [TcpOut.upcalls_cons_readFromPort]
    set r := ({ t with tcpClientId := client } : EmbTcp ι).received f.bytes with hr
    have hslice : Mem.slice r.rxBuf 0 f.bytes.length = f.bytes := by
      simp only [hr, EmbTcp.received, hcount, Mem.slice_blit]
    have hcnt : r.rxPktCounter = f.bytes.length := by simp [hr, EmbTcp.received, hcount]
    have hfe := frameEnd_of_slice (hslice.trans (List.take_length).symm) (by omega)
    have hdone := parsePacket_done (t := r) (by omega) (by omega)
    obtain ⟨hstate, hups⟩ := acceptPacket_taken
      (t := { r with currRxLength := (EmbTcp.frameEnd r.rxBuf : ℤ) - r.rxPktCounter })
      hserver hslice
    refine ⟨hneg, r.rxBuf, (EmbTcp.frameEnd r.rxBuf : ℤ) - r.rxPktCounter, by omega, hslice, ?_, ?_⟩
    · unfold takeIn
      rw [hdone]
      simp only [true_or, if_true]
      rw [hstate]
      rfl
    · rw [takeIn_out, hdone]
      exact hups
  · left
    rw [if_pos (by omega)]
    have hcnt : (({ t with tcpClientId := client } : EmbTcp ι).received []).rxPktCounter = 0 := by
      simp [EmbTcp.received, hcount]
    have hbuf : (({ t with tcpClientId := client } : EmbTcp ι).received []).rxBuf = t.rxBuf := by
      simp [EmbTcp.received]
    refine ⟨hzero, ?_, t.rxBuf, ?_⟩
    · rw [takeIn_out, parsePacket_short (by omega)]
      rfl
    · unfold takeIn
      rw [parsePacket_short (by omega)]
      dsimp only
      rw [if_neg (by simp only [Bool.false_eq_true, false_or]; omega), hbuf, hcnt]
      rfl

end Whole

/-! ## Transaction ids -/

/-- A request that the transport sends. -/
def Sendable (a : ℤ × EmbClientTransaction π) : Prop := a.2.reqPdu.dataSize.toNat ≤ maxPduDataSize

instance (a : ℤ × EmbClientTransaction π) : Decidable (Sendable a) :=
  inferInstanceAs (Decidable (_ ≤ _))

/-- How many of the transactions are sent. -/
def sentCount (as : List (ℤ × EmbClientTransaction π)) : ℕ := as.countP fun a => Sendable a

/-- The transactions numbered on from `n`. -/
def numbered : ℕ → List (ℤ × EmbClientTransaction π) → List (Requested π)
  | _, [] => []
  | n, a :: as =>
    ⟨a.1, a.2, if Sendable a then some (BitVec.ofNat 16 (n + 1)) else none⟩
      :: numbered (n + if Sendable a then 1 else 0) as

theorem sentCount_cons (a : ℤ × EmbClientTransaction π) (as : List (ℤ × EmbClientTransaction π)) :
    sentCount (a :: as) = (if Sendable a then 1 else 0) + sentCount as := by
  unfold sentCount
  rw [List.countP_cons]
  simp only [decide_eq_true_eq]
  omega

theorem sentCount_append (as bs : List (ℤ × EmbClientTransaction π)) :
    sentCount (as ++ bs) = sentCount as + sentCount bs := List.countP_append

theorem numbered_append (n : ℕ) (as bs : List (ℤ × EmbClientTransaction π)) :
    numbered n (as ++ bs) = numbered n as ++ numbered (n + sentCount as) bs := by
  induction as generalizing n with
  | nil => rfl
  | cons a as ih => simp only [List.cons_append, numbered, ih, sentCount_cons, Nat.add_assoc]

@[simp] theorem length_numbered (n : ℕ) (as : List (ℤ × EmbClientTransaction π)) :
    (numbered n as).length = as.length := by
  induction as generalizing n with
  | nil => rfl
  | cons a as ih => simp only [numbered, List.length_cons, ih]

/-- The id of a transaction is the number of those sent up to it. -/
theorem getElem?_numbered {n j : ℕ} {as : List (ℤ × EmbClientTransaction π)} {q : Requested π}
    (h : (numbered n as)[j]? = some q) :
    as[j]? = some (q.addr, q.transact) ∧ q.id = if Sendable (q.addr, q.transact) then
      some (BitVec.ofNat 16 (n + sentCount (as.take (j + 1)))) else none := by
  induction as generalizing n j with
  | nil => simp [numbered] at h
  | cons a as ih =>
    unfold numbered at h
    rw [List.take_succ_cons, sentCount_cons]
    cases j with
    | zero =>
      simp only [List.getElem?_cons_zero, Option.some.injEq] at h
      subst h
      by_cases ha : Sendable a
      · simp [ha, sentCount]
      · simp [ha]
    | succ j =>
      rw [List.getElem?_cons_succ] at h ⊢
      rw [← Nat.add_assoc]
      exact ih h

/-- Of two transactions that are less than 65536 apart, the later one was sent with another id. -/
theorem numbered_inj {as : List (ℤ × EmbClientTransaction π)} {j : ℕ} {q : Requested π} {id : Word}
    (hj : (numbered 0 as)[j]? = some q) (hq : q.id = some id)
    (hid : BitVec.ofNat 16 (sentCount as) = id) (hlast : ∀ a, as.getLast? = some a → Sendable a)
    (hlate : as.length ≤ j + 1 + 65535) : as.length = j + 1 := by
  obtain ⟨hget, hqid⟩ := getElem?_numbered hj
  have hlt : j < as.length := (List.getElem?_eq_some_iff.1 hget).1
  split_ifs at hqid
  · rw [hq, Option.some.injEq, Nat.zero_add] at hqid
    by_contra hne
    -- the transactions behind the answer's own, the last of them sent
    have hsplit : sentCount as = sentCount (as.take (j + 1)) + sentCount (as.drop (j + 1)) := by
      rw [← sentCount_append, List.take_append_drop]
    have hle : sentCount (as.drop (j + 1)) ≤ as.length - (j + 1) := by
      rw [← List.length_drop]
      exact List.countP_le_length
    have hpos : 0 < sentCount (as.drop (j + 1)) := by
      have hne' : as.drop (j + 1) ≠ [] := by
        intro hnil
        rw [List.drop_eq_nil_iff] at hnil
        omega
      refine List.countP_pos_iff.2 ⟨(as.drop (j + 1)).getLast hne', List.getLast_mem hne', ?_⟩
      simp only [decide_eq_true_eq]
      refine hlast _ ?_
      rw [List.getLast_drop, List.getLast?_eq_some_getLast]
    have hmod := congrArg BitVec.toNat (hid.trans hqid)
    rw [BitVec.toNat_ofNat, BitVec.toNat_ofNat] at hmod
    omega
  · rw [hq] at hqid
    cases hqid

section Requests

variable {t : EmbTcp ι} (wrote : List Byte → ℤ)

theorem beWord_buildFrame (t : EmbTcp ι) (addr : ℤ) (pdu : EmbPdu) :
    Mem.beWord (buildFrame t addr pdu) 0 = t.outId := by
  have hslice := slice_buildFrame t addr pdu
  have hid : Mem.At (buildFrame t addr pdu) 0 (Mem.be [t.outId]) := by
    unfold Mem.At
    have hle : (Mem.be [t.outId]).length ≤ 8 + pdu.dataSize.toNat := by
      simp only [Mem.length_be, List.length_singleton]
      omega
    rw [← Mem.take_slice _ hle, hslice]
    rfl
  exact hid.beWord

/-- A client gives its requests the ids in order. -/
theorem requests_eq (hserver : t.transport.isServer = false) {n : ℕ}
    (hid : EmbTcp.transactId t.txBuf = Word.swap (BitVec.ofNat 16 n))
    (as : List (ℤ × EmbClientTransaction π)) :
    TcpClient.requests wrote t as = numbered n as
      ∧ EmbTcp.transactId (SrvNode.sendAll wrote t (as.map fun a => (a.1, a.2.reqPdu))).1.txBuf
        = Word.swap (BitVec.ofNat 16 (n + sentCount as)) := by
  induction as generalizing t n with
  | nil => exact ⟨rfl, hid⟩
  | cons a as ih =>
    unfold TcpClient.requests numbered
    rw [List.map_cons, sentCount_cons]
    unfold SrvNode.sendAll
    by_cases ha : Sendable a
    · obtain ⟨c, heq⟩ := sendPacket_eq t a.1 wrote ha
      have hout : t.outId = BitVec.ofNat 16 (n + 1) := by
        unfold EmbTcp.outId
        rw [hserver, hid, Word.swap_swap, BitVec.ofNat_add]
        rfl
      have hword := beWord_buildFrame t a.1 a.2.reqPdu
      have htx : EmbTcp.transactId (buildFrame t a.1 a.2.reqPdu)
          = Word.swap (BitVec.ofNat 16 (n + 1)) := by
        rw [← hout, ← hword, ← Mem.swap_leWord, Word.swap_swap]
        rfl
      rw [if_pos ha, if_pos ha, heq]
      dsimp only
      rw [if_pos rfl, hword, hout, ← Nat.add_assoc]
      obtain ⟨hrest, hrest'⟩ := ih (t := { t with
        txBuf := buildFrame t a.1 a.2.reqPdu
        txPktSize := a.2.reqPdu.dataSize.toNat + 2 + 6
        txPktCounter := c }) hserver htx
      exact ⟨by rw [hrest], hrest'⟩
    · have heq : modbusTcpSendPacket t a.1 a.2.reqPdu wrote = (-modbusBufferOverflow, t, []) := by
        unfold modbusTcpSendPacket
        exact if_neg ha
      have hne : -modbusBufferOverflow ≠ 0 := by decide
      rw [if_neg ha, if_neg ha, heq]
      dsimp only
      rw [if_neg hne, Nat.zero_add, Nat.add_zero]
      obtain ⟨hrest, hrest'⟩ := ih hserver hid
      exact ⟨by rw [hrest], hrest'⟩

end Requests

/-! ## Between two events -/

namespace TcpClient

/-- The receiver has nothing, the ids are in order, and the pending transaction is the last one
accepted and has been told nothing. -/
structure Inv (s : TcpClient π ι) : Prop where
  isServer : s.node.tcp.transport.isServer = false
  counter : s.node.tcp.rxPktCounter = 0
  curr : s.node.tcp.currRxLength ≤ 0
  ids : ∃ as, s.requested = numbered 0 as
    ∧ EmbTcp.transactId s.node.tcp.txBuf = Word.swap (BitVec.ofNat 16 (sentCount as))
  pending : ∀ req, s.node.run.cli.currTransaction = some req → ∃ n q,
    s.requested.length = n + 1 ∧ s.requested[n]? = some q ∧ q.transact = req
      ∧ q.addr = s.node.run.cli.currAddr ∧ ∀ t ∈ s.told, t.number < n
  rxPdu : ∀ req, s.node.run.cli.currTransaction = some req → s.node.run.cli.rxPdu = req.respPdu
  told : ∀ t ∈ s.told, t.number < s.requested.length

theorem inv_start (ι : Type) (onResponse onError : Bool) (pdus : π → EmbPdu) :
    (start ι onResponse onError pdus).Inv where
  isServer := rfl
  counter := rfl
  curr := show (-1 : ℤ) ≤ 0 by simp
  ids := by
    refine ⟨[], rfl, ?_⟩
    change Mem.leWord (storeWord (fun _ => 0) 0 (swapBytes 0)) 0 = _
    rw [leWord_storeWord, swapBytes_eq]
    rfl
  pending _ h := by cases h
  rxPdu _ h := by cases h
  told _ h := by cases h

section Event

variable {wrote : List Byte → ℤ} {user : ClientUser π} {s : TcpClient π ι}
  {answer : Option Answer} {i : ClientInput π} {r : ClientRun π}
  {ends : List (EmbClientTransaction π × ClientEnd)} {xs : List (ℤ × EmbClientTransaction π)}

/-- What an event of the client comes to. -/
theorem clientEvent_eq (h : r.Goes (Emodbus.clientEvent user s.node.run i) ends xs)
    (hacts : r.acts = s.node.run.acts) :
    s.clientEvent wrote user answer i =
      { node := { s.node with
          tcp := (SrvNode.sendAll wrote s.node.tcp (xs.map fun a => (a.1, a.2.reqPdu))).1
          run := Emodbus.clientEvent user s.node.run i }
        requested := s.requested ++ requests wrote s.node.tcp xs
        told := s.told ++ ends.map fun e =>
          ⟨⟨e.1, e.2, e.1.respPdu.map s.node.pdus⟩, s.requested.length - 1, answer⟩ } := by
  obtain ⟨news, hnews, hends, hstarted, hsent⟩ := h.acts
  have hdrop : s.node.newActs user i = news := by
    unfold ClientNode.newActs
    rw [hnews, hacts, List.drop_left]
  unfold TcpClient.clientEvent
  rw [hdrop]
  dsimp only
  rw [hends, hstarted, hsent]

/-- The transactions that were started come last, and the last of them is pending. -/
theorem foldl_accept (cli : EmbClient π) (xs : List (ℤ × EmbClientTransaction π))
    (a : ℤ × EmbClientTransaction π) :
    ((xs ++ [a]).foldl EmbClient.accept cli).currTransaction = some a.2
      ∧ ((xs ++ [a]).foldl EmbClient.accept cli).currAddr = a.1
      ∧ ((xs ++ [a]).foldl EmbClient.accept cli).rxPdu = a.2.respPdu := by
  rw [List.foldl_append]
  exact ⟨rfl, rfl, rfl⟩

/-- An event of the client keeps the invariant, whatever was pending has been told its end. -/
theorem Inv.goes (hs : s.Inv) (h : r.Goes (Emodbus.clientEvent user s.node.run i) ends xs)
    (hacts : r.acts = s.node.run.acts) (hends : ends ≠ [] → s.requested ≠ [])
    (hcurr : xs = [] → r.cli.currTransaction ≠ none → ends = [] ∧ r.cli = s.node.run.cli) :
    (s.clientEvent wrote user answer i).Inv := by
  obtain ⟨hsame, htransport, -⟩ :=
    sendAll_same wrote s.node.tcp (xs.map fun a => (a.1, a.2.reqPdu))
  obtain ⟨as, has, hid⟩ := hs.ids
  obtain ⟨hnew, hid'⟩ := requests_eq wrote hs.isServer hid xs
  have hreq : s.requested ++ requests wrote s.node.tcp xs = numbered 0 (as ++ xs) := by
    rw [has, hnew, numbered_append, Nat.zero_add]
  rw [clientEvent_eq h hacts]
  have hlt : ∀ t ∈ s.told ++ ends.map fun e =>
      (⟨⟨e.1, e.2, e.1.respPdu.map s.node.pdus⟩, s.requested.length - 1, answer⟩ : Told π),
      t.number < s.requested.length := by
    intro t ht
    rcases List.mem_append.1 ht with ht | ht
    · exact hs.told t ht
    · obtain ⟨e, he, rfl⟩ := List.mem_map.1 ht
      have hpos := List.length_pos_iff.2 (hends (List.ne_nil_of_mem he))
      dsimp only
      omega
  refine ⟨?_, hsame.counter.trans hs.counter, hsame.curr.trans_le hs.curr,
    ⟨as ++ xs, hreq, by rw [sentCount_append]; exact hid'⟩, ?_, ?_, ?_⟩
  · rw [htransport]
    exact hs.isServer
  · dsimp only
    intro req hpend
    rw [h.cli] at hpend ⊢
    rcases List.eq_nil_or_concat xs with rfl | ⟨ys, a, rfl⟩
    · obtain ⟨rfl, hcli⟩ := hcurr rfl (by rw [List.foldl_nil] at hpend; simp [hpend])
      rw [hcli] at hpend ⊢
      obtain ⟨n, q, hlen, hget, htransact, hqaddr, htold⟩ := hs.pending req hpend
      rw [hnew]
      exact ⟨n, q, by simpa [numbered] using hlen, by simpa [numbered] using hget, htransact,
        hqaddr, by simpa using htold⟩
    · rw [List.concat_eq_append] at hpend hreq hnew ⊢
      obtain ⟨hlast, haddr, -⟩ := foldl_accept r.cli ys a
      rw [hlast, Option.some.injEq] at hpend
      rw [haddr]
      have hlen : (numbered 0 (as ++ (ys ++ [a]))).length = (as ++ ys).length + 1 := by
        simp [Nat.add_assoc]
      have hget : (as ++ (ys ++ [a]))[(as ++ ys).length]? = some a := by
        rw [← List.append_assoc, List.getElem?_concat_length]
      rw [hreq]
      obtain ⟨q, hq⟩ : ∃ q, (numbered 0 (as ++ (ys ++ [a])))[(as ++ ys).length]? = some q :=
        ⟨_, List.getElem?_eq_getElem (by omega)⟩
      obtain ⟨hqa, -⟩ := getElem?_numbered hq
      rw [hget, Option.some.injEq] at hqa
      refine ⟨(as ++ ys).length, q, hlen, hq, ?_, ?_, fun t ht => ?_⟩
      · rw [← hpend, hqa]
      · rw [hqa]
      · have hlt' := hlt t ht
        rw [has, length_numbered] at hlt'
        rw [List.length_append]
        omega
  · dsimp only
    intro req hpend
    rw [h.cli] at hpend ⊢
    rcases List.eq_nil_or_concat xs with rfl | ⟨ys, a, rfl⟩
    · obtain ⟨-, hcli⟩ := hcurr rfl (by rw [List.foldl_nil] at hpend; simp [hpend])
      rw [hcli] at hpend ⊢
      exact hs.rxPdu req hpend
    · rw [List.concat_eq_append] at hpend ⊢
      obtain ⟨hlast, -, hrx⟩ := foldl_accept r.cli ys a
      rw [hlast, Option.some.injEq] at hpend
      rw [hrx, hpend]
  · dsimp only
    intro t ht
    rw [List.length_append]
    exact Nat.lt_add_right _ (hlt t ht)

/-- What an event tells leaves the answers as they are to be, if it tells no wrong response. -/
theorem OwnAnswers.goes (ho : s.OwnAnswers) (hs : s.Inv)
    (h : r.Goes (Emodbus.clientEvent user s.node.run i) ends xs)
    (hacts : r.acts = s.node.run.acts) (hends : ends.length ≤ 1)
    (hnew : ∀ e ∈ ends, s.node.run.cli.currTransaction = some e.1
      ∧ (e.2 = .response → ∃ f q, answer = some ⟨s.requested.length - 1, f⟩
        ∧ s.requested[s.requested.length - 1]? = some q ∧ q.transact = e.1
        ∧ q.id = some f.transactId ∧ (f.unitId.toNat : ℤ) = q.addr
        ∧ f.function = q.transact.reqPdu.function)) :
    (s.clientEvent wrote user answer i).OwnAnswers := by
  rw [clientEvent_eq h hacts]
  have hold : ∀ {n : ℕ} {q : Requested π}, s.requested[n]? = some q →
      (s.requested ++ requests wrote s.node.tcp xs)[n]? = some q := by
    intro n q hq
    rw [List.getElem?_append_left (List.getElem?_eq_some_iff.1 hq).1]
    exact hq
  constructor
  · dsimp only
    rw [List.map_append, List.map_map, List.nodup_append]
    refine ⟨ho.once, ?_, ?_⟩
    · match ends, hends with
      | [], _ => simp
      | [e], _ => simp
    · intro n hn m hm
      obtain ⟨t, ht, rfl⟩ := List.mem_map.1 hn
      obtain ⟨e, he, rfl⟩ := List.mem_map.1 hm
      obtain ⟨k, q, hlen, -, -, -, htold⟩ := hs.pending e.1 (hnew e he).1
      have := htold t ht
      simp only [Function.comp_apply]
      omega
  · dsimp only
    intro t ht hfin
    rcases List.mem_append.1 ht with ht | ht
    · obtain ⟨f, q, hans, hq, hrest⟩ := ho.own t ht hfin
      exact ⟨f, q, hans, hold hq, hrest⟩
    · obtain ⟨e, he, rfl⟩ := List.mem_map.1 ht
      obtain ⟨f, q, hans, hq, hrest⟩ := (hnew e he).2 hfin
      exact ⟨f, q, hans, hold hq, hrest⟩

/-- An event of the client tells the end of the pending transaction or nothing, and if it starts no
transaction, one that is pending then is still untold. -/
theorem clientEvent_goes (user : ClientUser π) (s : TcpClient π ι) (i : ClientInput π) :
    ∃ (r : ClientRun π) (ends : List (EmbClientTransaction π × ClientEnd))
      (xs : List (ℤ × EmbClientTransaction π)),
      r.Goes (Emodbus.clientEvent user s.node.run i) ends xs ∧ r.acts = s.node.run.acts
      ∧ (ends = [] ∨ ∃ req fin, s.node.run.cli.currTransaction = some req
        ∧ i.endOf s.node.run.cli req = some fin ∧ ends = req.told fin)
      ∧ (xs = [] → r.cli.currTransaction ≠ none → ends = [] ∧ r.cli = s.node.run.cli) := by
  by_cases hi : ∃ addr t, i = .doTransaction addr t
  · rcases hi with ⟨addr, t, rfl⟩
    exact ⟨_, _, _, ClientRun.Goes.doTransaction s.node.run addr t, rfl, .inl rfl,
      fun _ _ => ⟨rfl, rfl⟩⟩
  simp only [not_exists] at hi
  cases hcurr : s.node.run.cli.currTransaction with
  | none =>
    obtain ⟨hacts, hnone⟩ := ClientRun.Goes.event_idle user hcurr hi
    exact ⟨_, _, _, .refl (Emodbus.clientEvent user s.node.run i), hacts, .inl rfl,
      fun _ hne => absurd hnone hne⟩
  | some req =>
    obtain ⟨fin, hfin⟩ : ∃ fin, i.endOf s.node.run.cli req = some fin := by
      cases i with
      | doTransaction addr t => exact absurd rfl (hi addr t)
      | recvPacket addr pkt => exact ⟨_, rfl⟩
      | error errno => exact ⟨_, rfl⟩
      | waitTimeout => exact ⟨_, rfl⟩
    obtain ⟨xs, hgoes⟩ := ClientRun.Goes.event_ends user req hcurr hfin
    exact ⟨_, _, xs, hgoes, rfl, .inr ⟨req, fin, rfl, hfin, rfl⟩, fun _ hne => absurd rfl hne⟩

theorem Inv.clientEvent (hs : s.Inv) : (s.clientEvent wrote user answer i).Inv := by
  obtain ⟨r, ends, xs, hgoes, hacts, hends, hcurr⟩ := clientEvent_goes user s i
  refine hs.goes hgoes hacts (fun hne hnil => ?_) hcurr
  rcases hends with rfl | ⟨req, fin, hreq, -, -⟩
  · exact hne rfl
  · obtain ⟨n, q, hn, -⟩ := hs.pending req hreq
    rw [hnil] at hn
    simp at hn

/-- An event of the client, where a response is told only of its own answer. -/
theorem OwnAnswers.clientEvent (ho : s.OwnAnswers) (hs : s.Inv)
    (hresp : ∀ req, s.node.run.cli.currTransaction = some req →
      i.endOf s.node.run.cli req = some .response → ∃ f q,
        answer = some ⟨s.requested.length - 1, f⟩
        ∧ s.requested[s.requested.length - 1]? = some q ∧ q.transact = req
        ∧ q.id = some f.transactId ∧ (f.unitId.toNat : ℤ) = q.addr
        ∧ f.function = q.transact.reqPdu.function) :
    (s.clientEvent wrote user answer i).OwnAnswers := by
  obtain ⟨r, ends, xs, hgoes, hacts, hends, -⟩ := clientEvent_goes user s i
  rcases hends with rfl | ⟨req, fin, hreq, hfin, rfl⟩
  · exact ho.goes hs hgoes hacts (Nat.zero_le _) (by simp)
  · have htold : ∀ e ∈ req.told fin, e = (req, fin) := by
      unfold EmbClientTransaction.told
      split_ifs <;> simp
    have hlen : (req.told fin).length ≤ 1 := by
      unfold EmbClientTransaction.told
      split_ifs <;> simp
    refine ho.goes hs hgoes hacts hlen fun e he => ?_
    rw [htold e he]
    refine ⟨hreq, fun hres => hresp req hreq ?_⟩
    rw [hfin, ← hres]

/-- The logs and the client are not touched by the transport. -/
theorem Inv.afterRead [DecidableEq π] (hs : s.Inv) {t : EmbTcp ι}
    (hserver : t.transport.isServer = false) (hcount : t.rxPktCounter = 0)
    (hcurr : t.currRxLength ≤ 0) (htx : t.txBuf = s.node.tcp.txBuf) :
    ({ s with node := s.node.afterRead t } : TcpClient π ι).Inv where
  isServer := hserver
  counter := hcount
  curr := hcurr
  ids := by
    obtain ⟨as, has, hid⟩ := hs.ids
    exact ⟨as, has, by rw [← hid, ← htx]; rfl⟩
  pending := hs.pending
  rxPdu := hs.rxPdu
  told := hs.told

end Event

/-- A port event that brings nothing. -/
theorem tcpStep_quiet {t : EmbTcp ι} (hcount : t.rxPktCounter = 0) (hcurr : t.currRxLength ≤ 0)
    (client : Option ι) {e : TcpPortEvent}
    (he : ∀ port, e = .dataReceived port → ∃ fails, port = .nothing fails) :
    let r := tcpStep t (.event client e)
    TcpOut.upcalls r.2 = [] ∧ r.1.transport = t.transport ∧ r.1.rxPktCounter = 0
      ∧ r.1.currRxLength ≤ 0 ∧ r.1.txBuf = t.txBuf := by
  have hshort : (({ t with tcpClientId := client } : EmbTcp ι).received []).rxPktCounter < 9 := by
    simp [EmbTcp.received, hcount]
  have htake : TcpOut.upcalls (takeIn (({ t with tcpClientId := client } : EmbTcp ι).received [])).2
        = []
      ∧ (takeIn (({ t with tcpClientId := client } : EmbTcp ι).received [])).1
        = { t with
          tcpClientId := client
          rxBuf := (({ t with tcpClientId := client } : EmbTcp ι).received []).rxBuf
          currRxLength := -1 } := by
    have hsize : embTcpRxBufSize = 263 := rfl
    rw [takeIn_out, parsePacket_short hshort]
    refine ⟨rfl, ?_⟩
    unfold takeIn
    rw [parsePacket_short hshort]
    dsimp only
    rw [if_neg (by simp only [Bool.false_eq_true, false_or]; omega)]
    rfl
  cases e with
  | dataReceived port =>
    obtain ⟨fails, rfl⟩ := he port rfl
    dsimp only
    rw [tcpStep_dataReceived, if_neg (by simp only [embTcpRxBufSize, embTcpMbapSize]; omega)]
    split_ifs with hzero
    · rw [htake.1, htake.2]
      exact ⟨rfl, rfl, hcount, show (-1 : ℤ) ≤ 0 by simp, rfl⟩
    · cases fails with
      | false =>
        dsimp only [PortRead.nothing]
        rw [if_neg Bool.false_ne_true]
        dsimp only [TcpOut.upcalls_cons_readFromPort]
        rw [htake.1, htake.2]
        exact ⟨rfl, rfl, hcount, show (-1 : ℤ) ≤ 0 by simp, rfl⟩
      | true => exact ⟨rfl, rfl, hcount, hcurr, rfl⟩
  | txBufEmpty wrote' =>
    unfold tcpStep embTcpPortEvent
    dsimp only
    split_ifs
    · exact ⟨rfl, rfl, hcount, hcurr, rfl⟩
    · exact ⟨rfl, rfl, hcount, hcurr, rfl⟩
  | lastRxTimeout => exact ⟨rfl, rfl, rfl, show (-1 : ℤ) ≤ 0 by simp, rfl⟩

/-- What a response needs of the packet. -/
theorem packetEnd_response {cli : EmbClient π} {req : EmbClientTransaction π} {addr : ℤ}
    {pkt : EmbPdu} (h : packetEnd cli req addr pkt = .response) :
    cli.currAddr = addr ∧ req.reqPdu.function = pkt.function := by
  unfold packetEnd at h
  split_ifs at h with haddr hexc hfun
  exact ⟨not_not.1 haddr, not_not.1 hfun⟩

/-- A frame that carries the id in `tx_buf` answers the pending transaction. -/
theorem Inv.own {s : TcpClient π ι} (hs : s.Inv) {client : Option ι} {a : Answer}
    (hdel : s.Delivers (.answer client a)) {req : EmbClientTransaction π}
    (hcurr : s.node.run.cli.currTransaction = some req)
    (hid : EmbTcp.transactId s.node.tcp.txBuf = a.frame.transactId.swap)
    (hsend : req.reqPdu.dataSize.toNat ≤ maxPduDataSize) :
    a.number = s.requested.length - 1 ∧ ∃ q, s.requested[s.requested.length - 1]? = some q
      ∧ q.transact = req ∧ q.id = some a.frame.transactId ∧ q.addr = s.node.run.cli.currAddr := by
  obtain ⟨⟨q, hget, hq⟩, hlate⟩ := hdel
  obtain ⟨as, has, htx⟩ := hs.ids
  obtain ⟨n, q', hlen, hget', htransact, haddr, -⟩ := hs.pending req hcurr
  rw [has, length_numbered] at hlen hlate
  have hword : BitVec.ofNat 16 (sentCount as) = a.frame.transactId := by
    have hswap := congrArg Word.swap (htx.symm.trans hid)
    rwa [Word.swap_swap, Word.swap_swap] at hswap
  have hlast : ∀ b, as.getLast? = some b → Sendable b := by
    intro b hb
    rw [has] at hget'
    have hlast' := (getElem?_numbered hget').1
    rw [List.getLast?_eq_getElem?, hlen, Nat.add_sub_cancel, hlast', Option.some.injEq] at hb
    rw [← hb, htransact]
    exact hsend
  have hnum : as.length = a.number + 1 :=
    numbered_inj (by rw [← has]; exact hget) hq hword hlast hlate
  have hlen' : s.requested.length = a.number + 1 := by rw [has, length_numbered, hnum]
  have hn : n = a.number := by omega
  subst hn
  rw [hget', Option.some.injEq] at hget
  subst hget
  rw [hlen', Nat.add_sub_cancel]
  exact ⟨rfl, q', hget', htransact, hq, haddr⟩

section Port

variable [DecidableEq π] {wrote : List Byte → ℤ} {user : ClientUser π} {s : TcpClient π ι}

/-- A port event leaves the receiver empty, and the client gets one upcall at most: an error, or
the frame if it carries the id in `tx_buf`. -/
theorem portEvent_cases (hs : s.Inv) {client : Option ι}
    {answer : Option Answer} {e : TcpPortEvent}
    (he : ∀ port, e = .dataReceived port → (∃ fails, port = .nothing fails)
      ∨ ∃ a, answer = some a ∧ port = .upTo a.frame.bytes) :
    ∃ t : EmbTcp ι, ({ s with node := s.node.afterRead t } : TcpClient π ι).Inv
      ∧ (s.portEvent wrote user answer client e = { s with node := s.node.afterRead t }
        ∨ (∃ errno, s.portEvent wrote user answer client e
          = ({ s with node := s.node.afterRead t } : TcpClient π ι).clientEvent wrote user answer
            (.error errno))
        ∨ ∃ a pdu, answer = some a ∧ EmbTcp.transactId s.node.tcp.txBuf = a.frame.transactId.swap
          ∧ pdu.function = a.frame.function ∧ s.portEvent wrote user answer client e
            = ({ s with node := s.node.afterRead t } : TcpClient π ι).clientEvent wrote user answer
              (.recvPacket a.frame.unitId.toNat pdu)) := by
  have hcount : s.node.view.rxPktCounter = 0 := hs.counter
  have hserver : s.node.view.transport.isServer = false := hs.isServer
  unfold portEvent
  dsimp only
  by_cases hquiet : ∀ port, e = .dataReceived port → ∃ fails, port = .nothing fails
  · obtain ⟨hups, htransport, hcount', hcurr', htx⟩ := tcpStep_quiet hcount hs.curr client hquiet
    rw [hups]
    exact ⟨_, hs.afterRead (by rw [htransport]; exact hserver) hcount' hcurr' htx, .inl rfl⟩
  simp only [not_forall] at hquiet
  obtain ⟨port, rfl, hport⟩ := hquiet
  obtain ⟨a, rfl, rfl⟩ := (he port rfl).resolve_left hport
  rcases tcpStep_whole (f := a.frame) hserver hcount hs.curr client with
    ⟨-, hups, buf, hstate⟩ | ⟨-, buf, curr, hcurr, -, hstate, hups⟩
  · rw [hups, hstate]
    exact ⟨{ s.node.view with
        tcpClientId := client, rxBuf := buf, rxPktCounter := 0, currRxLength := -1 },
      hs.afterRead hs.isServer rfl (show (-1 : ℤ) ≤ 0 by simp) rfl, .inl rfl⟩
  · rw [hups, hstate]
    refine ⟨{ s.node.view with
        tcpClientId := client, rxBuf := buf, rxPktCounter := 0, currRxLength := curr,
        transport.rxPdu := (a.frame.taken s.node.view buf).1 },
      hs.afterRead hs.isServer rfl hcurr rfl, ?_⟩
    unfold TcpFrame.taken
    split_ifs with hid
    · exact .inr (.inl ⟨_, rfl⟩)
    · split
      · exact .inl rfl
      · split_ifs with hovf
        · exact .inr (.inl ⟨_, rfl⟩)
        · exact .inr (.inr ⟨a, _, rfl, not_not.1 hid, rfl, rfl⟩)

theorem Inv.portEvent (hs : s.Inv) {client : Option ι} {answer : Option Answer} {e : TcpPortEvent}
    (he : ∀ port, e = .dataReceived port → (∃ fails, port = .nothing fails)
      ∨ ∃ a, answer = some a ∧ port = .upTo a.frame.bytes) :
    (s.portEvent wrote user answer client e).Inv := by
  obtain ⟨t, hs', heq | ⟨errno, heq⟩ | ⟨a, pdu, -, -, -, heq⟩⟩ := portEvent_cases hs he
  · rw [heq]
    exact hs'
  · rw [heq]
    exact hs'.clientEvent
  · rw [heq]
    exact hs'.clientEvent

theorem OwnAnswers.portEvent (ho : s.OwnAnswers) (hs : s.Inv) {client : Option ι}
    {answer : Option Answer} {e : TcpPortEvent}
    (he : ∀ port, e = .dataReceived port → (∃ fails, port = .nothing fails)
      ∨ ∃ a, answer = some a ∧ port = .upTo a.frame.bytes)
    (hdel : ∀ a, answer = some a →
      s.Delivers (.answer client a) ∧ s.Unmistaken (.answer client a)) :
    (s.portEvent wrote user answer client e).OwnAnswers := by
  obtain ⟨t, hs', heq | ⟨errno, heq⟩ | ⟨a, pdu, rfl, hid, hpdu, heq⟩⟩ := portEvent_cases hs he
  all_goals
    have ho' : ({ s with node := s.node.afterRead t } : TcpClient π ι).OwnAnswers :=
      ⟨ho.once, ho.own⟩
    rw [heq]
  · exact ho'
  · exact ho'.clientEvent hs' fun req _ hres => by cases hres
  · refine ho'.clientEvent hs' fun req hreq hres => ?_
    obtain ⟨hdel, hun⟩ := hdel a rfl
    have hend : packetEnd s.node.run.cli req a.frame.unitId.toNat pdu = .response :=
      Option.some.inj hres
    obtain ⟨haddr, hfun⟩ := packetEnd_response hend
    rw [hpdu] at hfun
    have hsend := hun req hreq hid haddr.symm hfun.symm
    obtain ⟨hnum, q, hget, htransact, hq, hqaddr⟩ := hs.own hdel hreq hid hsend
    refine ⟨a.frame, q, ?_, hget, htransact, hq, ?_, ?_⟩
    · rw [← hnum]
    · rw [hqaddr, haddr]
    · rw [htransact, hfun]

theorem Inv.step (hs : s.Inv) (i : TcpClientInput π ι) : (s.step wrote user i).1.Inv := by
  unfold TcpClient.step
  cases i with
  | doTransaction addr t => exact hs.clientEvent
  | waitTimeout => exact hs.clientEvent
  | answer client a =>
    exact hs.portEvent fun port hport => .inr ⟨a, rfl, (TcpPortEvent.dataReceived.inj hport).symm⟩
  | noAnswer client fails =>
    exact hs.portEvent fun port hport => .inl ⟨fails, (TcpPortEvent.dataReceived.inj hport).symm⟩
  | txBufEmpty client wrote' => exact hs.portEvent fun port hport => by cases hport
  | lastRxTimeout client => exact hs.portEvent fun port hport => by cases hport

theorem OwnAnswers.step (ho : s.OwnAnswers) (hs : s.Inv) {i : TcpClientInput π ι}
    (hdel : s.Delivers i) (hun : s.Unmistaken i) : (s.step wrote user i).1.OwnAnswers := by
  unfold TcpClient.step
  cases i with
  | doTransaction addr t => exact ho.clientEvent hs fun req _ hres => by cases hres
  | waitTimeout => exact ho.clientEvent hs fun req _ hres => by cases hres
  | answer client a =>
    refine ho.portEvent hs
      (fun port hport => .inr ⟨a, rfl, (TcpPortEvent.dataReceived.inj hport).symm⟩) fun a' ha => ?_
    cases ha
    exact ⟨hdel, hun⟩
  | noAnswer client fails =>
    exact ho.portEvent hs
      (fun port hport => .inl ⟨fails, (TcpPortEvent.dataReceived.inj hport).symm⟩)
      fun a ha => by cases ha
  | txBufEmpty client wrote' =>
    exact ho.portEvent hs (fun port hport => by cases hport) fun a ha => by cases ha
  | lastRxTimeout client =>
    exact ho.portEvent hs (fun port hport => by cases hport) fun a ha => by cases ha

end Port

end TcpClient

open TcpClient

/-- In every run in which no frame looks like the answer to a pending request too long to be sent,
whatever answers come in whatever order: every transaction is told one end at most, and a response
only while its own answer is taken in. -/
theorem client_takes_own_answers [DecidableEq π] (wrote : List Byte → ℤ) (user : ClientUser π)
    (onResponse onError : Bool) (pdus : π → EmbPdu) (ins : List (TcpClientInput π ι))
    (h : Along (TcpClient.step wrote user) (fun s i => s.Delivers i ∧ s.Unmistaken i)
      (TcpClient.start ι onResponse onError pdus) ins) :
    (run (TcpClient.step wrote user)
      (TcpClient.start ι onResponse onError pdus) ins).1.OwnAnswers :=
  (run_inv (P := fun s : TcpClient π ι => s.Inv ∧ s.OwnAnswers)
    (Q := fun s i => s.Delivers i ∧ s.Unmistaken i)
    (fun _ i hs hq => ⟨hs.1.step i, hs.2.step hs.1 hq.1 hq.2⟩) ins _
    ⟨inv_start ι onResponse onError pdus, List.nodup_nil, fun _ ht => by cases ht⟩ h).2

/-- A transaction with a request of this size. -/
def writeFileOf (size : Byte) : EmbClientTransaction Unit :=
  ⟨⟨0x15, size, 255, fun _ => 0⟩, some (), some ⟨true, true⟩⟩

/-- A frame of one byte that answers the request with this number, sent with this id. -/
def writeFileAnswer (number : ℕ) (id : Word) : Answer :=
  ⟨number, ⟨id, 0, 1, 0x15, [0], by decide, one_byte_fits⟩⟩

/-- The first transaction runs out of time, and then an answer comes while the second one is
pending. -/
def afterTimeout (size : Byte) (a : Answer) : List (TcpClientInput Unit Unit) :=
  [.doTransaction 1 (writeFileOf 4), .waitTimeout, .doTransaction 1 (writeFileOf size),
    .answer none a]

/-- A client whose callbacks start nothing, with a port that takes everything. -/
def idleStep : TcpClient Unit Unit → TcpClientInput Unit Unit →
    TcpClient Unit Unit × List (Told Unit) := TcpClient.step wroteAll fun _ => []

def idleStart : TcpClient Unit Unit :=
  TcpClient.start Unit true true fun _ => ⟨0, 0, 253, fun _ => 0⟩

theorem second_takes_own_answer :
    (run idleStep idleStart (afterTimeout 4 (writeFileAnswer 1 2))).1.OwnAnswers :=
  client_takes_own_answers wroteAll (fun _ => []) true true (fun _ => ⟨0, 0, 253, fun _ => 0⟩)
    (afterTimeout 4 (writeFileAnswer 1 2))
    ⟨⟨trivial, trivial⟩, ⟨trivial, trivial⟩, ⟨trivial, trivial⟩,
      ⟨⟨⟨_, rfl, rfl⟩, by decide⟩, fun _ hreq _ _ _ => by cases hreq; decide⟩, trivial⟩

/-- With a request of 254 bytes, which is not sent, the late answer passes for its own. -/
theorem unsent_takes_late_answer :
    Along idleStep Delivers idleStart (afterTimeout 254 (writeFileAnswer 0 1))
      ∧ ¬ (run idleStep idleStart (afterTimeout 254 (writeFileAnswer 0 1))).1.OwnAnswers := by
  refine ⟨⟨trivial, trivial, trivial, ⟨⟨_, rfl, rfl⟩, by decide⟩, trivial⟩, fun h => ?_⟩
  have hall : ∀ t ∈ (run idleStep idleStart (afterTimeout 254 (writeFileAnswer 0 1))).1.told,
      t.fin = .response → t.answer.map Answer.number = some t.number := by
    intro t ht hfin
    obtain ⟨f, q, hans, -⟩ := h.own t ht hfin
    rw [hans]
    rfl
  exact absurd hall (by decide)

end Emodbus
