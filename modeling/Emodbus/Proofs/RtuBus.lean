import Emodbus.Proofs.RtuLine
import Emodbus.Proofs.TcpPair

/-!
# Every transaction on the line ends once

One packet at most is under way: the request of the pending transaction, or the answer to it
(`Phase`).  In the silence behind a request every station that knows its address serves it, and one
of them may answer; in the silence behind an answer the client ends the transaction, and the other
servers find that the packet is not for them.
-/

namespace Emodbus

open Octets Mealy

variable {π κ σ : Type}

/-! ## The reaction of a super server -/

section Reaction

variable {ssrv : EmbSuperServer σ} {addr : ℤ}

theorem onReceiveReq_unknown (h : ¬ ssrv.Knows addr) (run : SrvRun σ) :
    (embSuperServerOnReceiveReq ssrv addr run).run = run
      ∧ (embSuperServerOnReceiveReq ssrv addr run).sent = [] := by
  unfold EmbSuperServer.Knows EmbSuperServer.find at h
  unfold embSuperServerOnReceiveReq
  cases hget : ssrv.getServer with
  | none => exact ⟨rfl, rfl⟩
  | some getServer =>
    rw [hget, Option.bind_some] at h
    dsimp only
    rw [Option.not_isSome_iff_eq_none.1 h]
    exact ⟨rfl, rfl⟩

theorem onReceiveReq_found {srv : EmbServerEntry σ} (h : ssrv.find addr = some srv)
    (run : SrvRun σ) :
    let res := embSuperServerOnReceiveReq ssrv addr run
    res.sent = if srv.isBroadcast then [] else [(addr, res.run.txPdu)] := by
  unfold EmbSuperServer.find at h
  obtain ⟨getServer, hget, hsrv⟩ := Option.bind_eq_some_iff.1 h
  unfold embSuperServerOnReceiveReq
  rw [hget]
  dsimp only
  rw [hsrv]
  dsimp only
  split_ifs <;> rfl

end Reaction

/-! ## The requests that a station has served -/

section Replays

variable {ssrv : EmbSuperServer σ} {store : σ}

theorem Served.replays_append (svs : List (Served σ)) {store' : σ} {sv : Served σ}
    (h : Replays ssrv store svs store') (hsv : sv.run.store = store') :
    Replays ssrv store (svs ++ [sv]) (sv.reaction ssrv).run.store := by
  induction svs generalizing store with
  | nil => exact ⟨hsv.trans h, rfl⟩
  | cons sv' svs ih => exact ⟨h.1, ih h.2⟩

end Replays

namespace RtuBus

/-- The client is as it was, and so is the room that the stations have. -/
structure Kept (s s' : RtuBus π κ σ) : Prop where
  cli : s'.run.cli = s.run.cli
  pdus : s'.pdus = s.pdus
  started : s'.started = s.started
  ended : s'.ended = s.ended
  rx : ∀ j, (s'.station j).mbt.rxBufSize = (s.station j).mbt.rxBufSize
  tx : ∀ j, (s'.station j).mbt.txBufSize = (s.station j).mbt.txBufSize
  pdu : ∀ k, (s'.station (some k)).mbt.transport.rxPdu.map EmbPdu.maxSize
    = (s.station (some k)).mbt.transport.rxPdu.map EmbPdu.maxSize

/-- The two differ in what the stations hold, and in what user code tried, at most. -/
structure Alike (s s' : RtuBus π κ σ) : Prop extends Kept s s' where
  server : s'.server = s.server

section Alike

variable {s s' s'' : RtuBus π κ σ} {ssrv : κ → EmbSuperServer σ}
  {a : ℤ × EmbClientTransaction π}

theorem Kept.refl (s : RtuBus π κ σ) : Kept s s :=
  ⟨rfl, rfl, rfl, rfl, fun _ => rfl, fun _ => rfl, fun _ => rfl⟩

theorem Kept.trans (h : Kept s s') (h' : Kept s' s'') : Kept s s'' :=
  ⟨h'.cli.trans h.cli, h'.pdus.trans h.pdus, h'.started.trans h.started,
    h'.ended.trans h.ended, fun j => (h'.rx j).trans (h.rx j), fun j => (h'.tx j).trans (h.tx j),
    fun k => (h'.pdu k).trans (h.pdu k)⟩

theorem Alike.refl (s : RtuBus π κ σ) : Alike s s := ⟨.refl s, rfl⟩

theorem Alike.symm (h : Alike s s') : Alike s' s :=
  ⟨⟨h.cli.symm, h.pdus.symm, h.started.symm, h.ended.symm, fun j => (h.rx j).symm,
    fun j => (h.tx j).symm, fun k => (h.pdu k).symm⟩, h.server.symm⟩

theorem Alike.trans (h : Alike s s') (h' : Alike s' s'') : Alike s s'' :=
  ⟨h.toKept.trans h'.toKept, h'.server.trans h.server⟩

theorem AnsweredBy.congr {k : κ} (h : AnsweredBy ssrv s a k) (hs : Alike s s') :
    AnsweredBy ssrv s' a k where
  only := h.only
  unicast := h.unicast
  fits rx rx' p hrx hmax hp := by
    have hpdu := hs.pdu k
    rw [hrx] at hpdu
    obtain ⟨rx₀, hrx₀, hmax₀⟩ := Option.map_eq_some_iff.1 hpdu.symm
    have hfits := h.fits rx₀ rx' p hrx₀ (hmax.trans hmax₀.symm) hp
    unfold servedWith at hfits ⊢
    rw [hs.server, hs.tx, hs.pdus]
    simp only [hs.rx]
    exact hfits

theorem Carried.congr (h : Carried ssrv s a) (hs : Alike s s') : Carried ssrv s' a where
  addr := h.addr
  hears := h.hears
  respPdu := h.respPdu
  txRoom := by
    rw [hs.tx]
    exact h.txRoom
  rxRoom k := by
    rw [hs.rx]
    exact h.rxRoom k
  pduRoom k hk := by
    obtain ⟨rx, hrx, hroom⟩ := h.pduRoom k hk
    have hpdu := hs.pdu k
    rw [hrx] at hpdu
    obtain ⟨rx', hrx', hmax⟩ := Option.map_eq_some_iff.1 hpdu
    exact ⟨rx', hrx', by rwa [hmax]⟩
  outcome := by
    rcases h.outcome with hmute | ⟨k, hk⟩
    · exact .inl hmute
    · exact .inr ⟨k, hk.congr hs⟩

theorem Delivered.congr {n : ℕ} {k : κ} (h : Delivered ssrv s n k) (hs : Alike s s') :
    Delivered ssrv s' n k := by
  unfold Delivered
  rw [hs.server, hs.started]
  exact h

end Alike

/-! ## Where the line is between two events -/

variable (ssrv : κ → EmbSuperServer σ)

/-- What holds at any time, in the middle of a silence too. -/
structure Sound (s₀ s : RtuBus π κ σ) : Prop where
  stores : ∀ k, Served.Replays (ssrv k) (s₀.server k).store (s.server k).served (s.server k).store
  fulfils : ∀ (i : ℕ) (e : Ended π), s.ended[i]? = some e →
    ∃ a, s.started[i]? = some a ∧ Fulfils ssrv s i e a

/-- Nothing is pending. -/
structure Idle (s : RtuBus π κ σ) : Prop where
  rxPdu : s.run.cli.rxPdu = none
  currTransaction : s.run.cli.currTransaction = none
  started : s.started.length = s.ended.length
  delivered : ∀ k, Delivered ssrv s s.started.length k

/-- The transaction is pending. -/
structure Pending (s : RtuBus π κ σ) (a : ℤ × EmbClientTransaction π) (p : π) : Prop where
  waits : s.run.cli.Waits a p
  addr : 0 ≤ a.1 ∧ a.1 ≤ 255
  hears : a.2.hasOnResponse = true ∧ a.2.hasOnError = true
  started : s.started.length = s.ended.length + 1
  last : s.started[s.ended.length]? = some a

/-- Its request is under way. -/
structure Requesting (s : RtuBus π κ σ) (a : ℤ × EmbClientTransaction π) (p : π) : Prop
    extends Pending s a p where
  carried : Carried ssrv s a
  delivered : ∀ k, Delivered ssrv s s.ended.length k

/-- The stations have been told of the request. -/
structure Heard (s : RtuBus π κ σ) (a : ℤ × EmbClientTransaction π) (p : π) : Prop
    extends Pending s a p where
  delivered : ∀ k, Delivered ssrv s s.started.length k

/-- The answer of this station is under way. -/
structure Responding (s : RtuBus π κ σ) (a : ℤ × EmbClientTransaction π) (p : π) (k : κ)
    (sv : Served σ) (answer : EmbPdu) : Prop extends Heard ssrv s a p where
  only : ∀ j, (ssrv j).Knows a.1 → j = k
  served : servedFor ssrv s k s.ended.length = some sv
  sent : (sv.reaction (ssrv k)).sent = [(a.1, answer)]
  nonempty : 1 ≤ answer.dataSize.toNat
  fits : answer.dataSize.toNat ≤ (s.pdus p).maxSize.toNat

/-- The bytes of a packet for this address. -/
def packet (addr : ℤ) (pdu : EmbPdu) : List Byte :=
  rtuBytes (BitVec.ofInt 8 addr) pdu.function pdu.bytes

/-- Who sends what. -/
inductive Phase (s : RtuBus π κ σ) : Option κ → List Byte → Prop
  | idle {who} (h : Idle ssrv s) : Phase s who []
  | requesting {a p} (h : Requesting ssrv s a p) : Phase s none (packet a.1 a.2.reqPdu)
  | responding {a p k sv answer} (h : Responding ssrv s a p k sv answer) :
      Phase s (some k) (packet a.1 answer)
  | unanswered {a p who} (h : Heard ssrv s a p) (hmute : ∀ k, (ssrv k).Mute a.1) :
      Phase s who []

section Alike

variable {ssrv} {s s' s₀ : RtuBus π κ σ} {a : ℤ × EmbClientTransaction π} {p : π}

theorem servedFor_congr (hs : Alike s s') (k : κ) (i : ℕ) :
    servedFor ssrv s' k i = servedFor ssrv s k i := by
  unfold servedFor
  rw [hs.server, hs.started]

theorem Sound.congr (h : Sound ssrv s₀ s) (hs : Alike s s') : Sound ssrv s₀ s' where
  stores := by
    rw [hs.server]
    exact h.stores
  fulfils i e he := by
    rw [hs.ended] at he
    obtain ⟨a, ha, htransact, houtcome⟩ := h.fulfils i e he
    rw [hs.started]
    refine ⟨a, ha, htransact, ?_⟩
    simp only [servedFor_congr hs]
    exact houtcome

theorem Pending.congr (h : s.Pending a p) (hs : Kept s s') : s'.Pending a p where
  waits := by
    rw [hs.cli]
    exact h.waits
  addr := h.addr
  hears := h.hears
  started := by
    rw [hs.started, hs.ended]
    exact h.started
  last := by
    rw [hs.started, hs.ended]
    exact h.last

theorem Heard.congr (h : Heard ssrv s a p) (hs : Alike s s') : Heard ssrv s' a p where
  toPending := h.toPending.congr hs.toKept
  delivered k := by
    rw [hs.started]
    exact (h.delivered k).congr hs

theorem Phase.congr {who : Option κ} {bytes : List Byte} (h : Phase ssrv s who bytes)
    (hs : Alike s s') : Phase ssrv s' who bytes := by
  cases h with
  | idle h =>
    refine .idle ⟨?_, ?_, ?_, fun k => ?_⟩
    · rw [hs.cli]
      exact h.rxPdu
    · rw [hs.cli]
      exact h.currTransaction
    · rw [hs.started, hs.ended]
      exact h.started
    · rw [hs.started]
      exact (h.delivered k).congr hs
  | requesting h =>
    refine .requesting ⟨h.toPending.congr hs.toKept, h.carried.congr hs, fun k => ?_⟩
    rw [hs.ended]
    exact (h.delivered k).congr hs
  | responding h =>
    refine .responding ⟨h.toHeard.congr hs, h.only, ?_, h.sent, h.nonempty, ?_⟩
    · rw [servedFor_congr hs, hs.ended]
      exact h.served
    · rw [hs.pdus]
      exact h.fits
  | unanswered h hmute => exact .unanswered (h.congr hs) hmute

end Alike

/-! ## A turn of the client -/

section Turn

variable {ssrv} {user : ClientUser π} {s₀ s : RtuBus π κ σ} {i : ClientInput π} {r : ClientRun π}
  {ends : List (EmbClientTransaction π × ClientEnd)} {xs : List (ℤ × EmbClientTransaction π)}

theorem take_append_started {n : ℕ} (hn : n ≤ s.started.length) :
    (s.started ++ xs).take n = s.started.take n := by
  rw [List.take_append_of_le_length hn]

/-- A transaction that has ended is told so, after those before it. -/
theorem Sound.turn {s' : RtuBus π κ σ} (h : Sound ssrv s₀ s) (hserver : s'.server = s.server)
    (hstarted : s'.started = s.started ++ xs) {told : List (Ended π)}
    (hended : s'.ended = s.ended ++ told)
    (htold : ∀ (k : ℕ) (e : Ended π), told[k]? = some e →
      ∃ a, s.started[s.ended.length + k]? = some a ∧ Fulfils ssrv s (s.ended.length + k) e a) :
    Sound ssrv s₀ s' where
  stores := by
    rw [hserver]
    exact h.stores
  fulfils i e he := by
    obtain ⟨a, ha, hful⟩ : ∃ a, s.started[i]? = some a ∧ Fulfils ssrv s i e a := by
      rw [hended] at he
      rcases Nat.lt_or_ge i s.ended.length with hi | hi
      · rw [List.getElem?_append_left hi] at he
        exact h.fulfils i e he
      · rw [List.getElem?_append_right hi] at he
        have hlast := htold _ e he
        rw [Nat.add_sub_cancel' hi] at hlast
        exact hlast
    have hi := (List.getElem?_eq_some_iff.1 ha).1
    have hfor (k : κ) : servedFor ssrv s' k i = servedFor ssrv s k i := by
      unfold servedFor
      rw [hserver, hstarted, take_append_started hi.le]
    refine ⟨a, ?_, hful.transact, ?_⟩
    · rw [hstarted, List.getElem?_append_left hi]
      exact ha
    · simp only [hfor]
      exact hful.outcome

theorem Delivered.append {s' : RtuBus π κ σ} {n : ℕ} {k : κ} (h : Delivered ssrv s n k)
    (hserver : s'.server = s.server) (hstarted : s'.started = s.started ++ xs)
    (hn : n ≤ s.started.length) : Delivered ssrv s' n k := by
  unfold Delivered
  rw [hserver, hstarted, take_append_started hn]
  exact h

variable [DecidableEq κ]

/-- What an event of the client comes to. -/
theorem clientEvent_eq (t : Taker Byte) (h : r.Goes (Emodbus.clientEvent user s.run i) ends xs)
    (hacts : r.acts = s.run.acts) :
    let sends := rtuSendAll t (s.station none).mbt (xs.map fun a => (a.1, a.2.reqPdu))
    s.clientEvent t user i = { s.write none sends.1 (RtuOut.takenBy t sends.2) with
      run := Emodbus.clientEvent user s.run i
      started := s.started ++ xs
      ended := s.ended ++ ends.map fun e => ⟨e.1, e.2, e.1.respPdu.map s.pdus⟩ } := by
  obtain ⟨news, hnews, hends, hstarted, hsent⟩ := h.acts
  have hdrop : s.newActs user i = news := by
    unfold newActs
    rw [hnews, hacts, List.drop_left]
  unfold RtuBus.clientEvent
  rw [hdrop]
  dsimp only
  rw [hends, hstarted, hsent]

/-- With nothing under way, user code starts nothing, or one request is under way then. -/
theorem turn {t : Taker Byte} (hsound : Sound ssrv s₀ s)
    (h : r.Goes (Emodbus.clientEvent user s.run i) ends xs)
    (hacts : r.acts = s.run.acts) (hrx : r.cli.rxPdu = none) (hcurr : r.cli.currTransaction = none)
    (htx : (s.station none).mbt.Sends [])
    (hstarted : s.started.length = s.ended.length + ends.length)
    (hdelivered : ∀ k, Delivered ssrv s s.started.length k)
    (htold : ∀ (k : ℕ) (e : Ended π),
      (ends.map fun e => (⟨e.1, e.2, e.1.respPdu.map s.pdus⟩ : Ended π))[k]? = some e →
        ∃ a, s.started[s.ended.length + k]? = some a ∧ Fulfils ssrv s (s.ended.length + k) e a)
    (hcarried : ∀ a ∈ xs, Carried ssrv (s.clientEvent t user i) a) :
    Sound ssrv s₀ (s.clientEvent t user i)
      ∧ ∃ mbt gone left, Phase ssrv (s.clientEvent t user i) none (gone ++ left)
        ∧ (s.clientEvent t user i).station = (s.write none mbt gone).station
        ∧ RtuSameRx mbt (s.station none).mbt ∧ mbt.Sends left
        ∧ ∀ j, j ≠ none → (gone ++ left).length ≤ (s.station j).mbt.rxBufSize.toNat := by
  have hcli := h.cli
  have honce := h.once
  have heq := clientEvent_eq t h hacts
  obtain ⟨hkeep, -, htxSize⟩ := sendAll_keeps t (xs.map fun a => (a.1, a.2.reqPdu))
    (s.station none).mbt
  dsimp only at heq hkeep htxSize
  have hsound' : Sound ssrv s₀ (s.clientEvent t user i) := by
    rw [heq]
    exact hsound.turn rfl rfl rfl htold
  refine ⟨hsound', ?_⟩
  have hlen := Nat.le_one_iff_eq_zero_or_eq_one.1 (honce fun a ha => (hcarried a ha).respPdu)
  rw [List.length_eq_zero_iff, List.length_eq_one_iff] at hlen
  rcases hlen with rfl | ⟨a, rfl⟩
  · refine ⟨(s.station none).mbt, [], [], ?_, ?_, ⟨rfl, rfl, rfl⟩, htx,
      fun _ _ => Nat.zero_le _⟩
    · rw [heq]
      refine .idle ⟨?_, ?_, ?_, fun k => ?_⟩
      · dsimp only
        rw [hcli]
        exact hrx
      · dsimp only
        rw [hcli]
        exact hcurr
      · simp [hstarted]
      · dsimp only
        rw [List.append_nil]
        exact (hdelivered k).append rfl (List.append_nil s.started).symm le_rfl
    · rw [heq]
      rfl
  · have ha := hcarried a List.mem_cons_self
    obtain ⟨p, hp⟩ := Option.ne_none_iff_exists'.1 ha.respPdu
    have hroom : a.2.reqPdu.dataSize.toNat + 4 ≤ (s.station none).mbt.txBufSize.toNat := by
      have htxRoom := ha.txRoom
      rw [heq] at htxRoom
      dsimp only at htxRoom
      rw [station_write, if_pos rfl] at htxRoom
      dsimp only at htxRoom
      rwa [htxSize] at htxRoom
    obtain ⟨hleft, htaken⟩ := sendAll_packet a.1 hroom t
    set bytes := packet a.1 a.2.reqPdu with hbytes
    change (rtuSendAll t (s.station none).mbt [(a.1, a.2.reqPdu)]).1.Sends
      (bytes.drop (t.count bytes)) at hleft
    change RtuOut.takenBy t (rtuSendAll t (s.station none).mbt [(a.1, a.2.reqPdu)]).2
      = t.take bytes at htaken
    refine ⟨_, t.take bytes, _, ?_, ?_, hkeep, hleft, fun j hj => ?_⟩
    · rw [Taker.take, List.take_append_drop, hbytes]
      refine .requesting (p := p) ⟨⟨?_, ha.addr, ha.hears, ?_, ?_⟩, ha, fun k => ?_⟩
      · rw [heq]
        dsimp only
        rw [hcli]
        exact ⟨rfl, rfl, hp, hp⟩
      · rw [heq]
        simp [hstarted]
      · rw [heq]
        dsimp only
        rw [List.length_append, List.length_map, ← hstarted, List.getElem?_concat_length]
      · rw [heq]
        dsimp only
        rw [List.length_append, List.length_map, ← hstarted]
        exact (hdelivered k).append rfl (rfl : _ = s.started ++ [a]) le_rfl
    · rw [heq]
      dsimp only
      rw [List.map_singleton, htaken]
    · obtain ⟨k, rfl⟩ := Option.ne_none_iff_exists'.1 hj
      have hrxRoom := ha.rxRoom k
      rw [heq] at hrxRoom
      dsimp only at hrxRoom
      rw [station_write, if_neg hj] at hrxRoom
      rw [Taker.take, List.take_append_drop, hbytes, packet, length_rtuBytes, EmbPdu.length_bytes]
      exact hrxRoom

end Turn

/-! ## Between two silences -/

section Steps

variable {ssrv} {user : ClientUser π} {s₀ s : RtuBus π κ σ} {who : Option κ}

theorem alike_write [DecidableEq κ] {j : Option κ} {mbt : EmbRtu}
    (hrx : mbt.rxBufSize = (s.station j).mbt.rxBufSize)
    (htx : mbt.txBufSize = (s.station j).mbt.txBufSize)
    (hpdu : ∀ k, j = some k → mbt.transport.rxPdu.map EmbPdu.maxSize
      = (s.station (some k)).mbt.transport.rxPdu.map EmbPdu.maxSize) (bytes : List Byte) :
    Alike s (s.write j mbt bytes) := by
  refine ⟨⟨rfl, rfl, rfl, rfl, fun i => ?_, fun i => ?_, fun k => ?_⟩, rfl⟩
  · rw [station_write]
    split_ifs with hij
    · exact hrx.trans (by rw [hij])
    · rfl
  · rw [station_write]
    split_ifs with hij
    · exact htx.trans (by rw [hij])
    · rfl
  · rw [station_write]
    split_ifs with hkj
    · exact hpdu k hkj.symm
    · rfl

/-- The client has nothing to do, or it is waiting. -/
theorem Phase.cli_cases {bytes : List Byte} (h : Phase ssrv s who bytes) :
    Idle ssrv s ∧ bytes = [] ∨ s.run.cli.rxPdu ≠ none := by
  cases h with
  | idle h => exact .inl ⟨h, rfl⟩
  | requesting h => exact .inr (by simp [h.waits.rxPdu])
  | responding h => exact .inr (by simp [h.waits.rxPdu])
  | unanswered h => exact .inr (by simp [h.waits.rxPdu])

theorem packet_ne_nil (addr : ℤ) (pdu : EmbPdu) : packet addr pdu ≠ [] := by
  intro h
  have hlen := congrArg List.length h
  rw [packet, length_rtuBytes] at hlen
  exact absurd hlen (by simp)

/-- With nothing pending a timeout changes nothing. -/
theorem waitTimeout_idle (user : ClientUser π) {r : ClientRun π} (hrx : r.cli.rxPdu = none)
    (hcurr : r.cli.currTransaction = none) : Emodbus.clientEvent user r .waitTimeout = r := by
  obtain ⟨⟨rx, addr, curr, hresp, herr⟩, acts⟩ := r
  dsimp only at hrx hcurr
  subst hrx hcurr
  rfl

variable [DecidableEq κ]

theorem alike_read (s : RtuBus π κ σ) (j : Option κ) (atMost : ℕ) : Alike s (s.read j atMost) := by
  have hkeep := dataReceived_keeps (s.station j).mbt
    (.upTo ((s.station j).unread.take (atMost + 1)))
  unfold RtuBus.read
  refine ⟨⟨rfl, rfl, rfl, rfl, fun i => ?_, fun i => ?_, fun k => ?_⟩, rfl⟩
  · rcases eq_or_ne i j with rfl | hij
    · simp [hkeep.1]
    · simp [Function.update_of_ne hij]
  · rcases eq_or_ne i j with rfl | hij
    · simp [hkeep.2.1]
    · simp [Function.update_of_ne hij]
  · rcases eq_or_ne (some k) j with rfl | hij
    · simp [hkeep.2.2]
    · simp [Function.update_of_ne hij]

theorem alike_txBufEmpty (t : Taker Byte) (s : RtuBus π κ σ) (j : Option κ) :
    Alike s (s.txBufEmpty t j) := by
  obtain ⟨hrx, htransport, htx⟩ := txBufEmpty_keeps (s.station j).mbt (PortResult.took t).rtu
  refine alike_write hrx.size htx (fun k hk => ?_) _
  rw [htransport, hk]

variable (ssrv) in
structure Inv (s₀ s : RtuBus π κ σ) : Prop where
  sound : Sound ssrv s₀ s
  phase : ∃ who bytes, Phase ssrv s who bytes ∧ OnLine s.station who bytes

theorem doTransaction_inv (h : Inv ssrv s₀ s) (t : Taker Byte) (addr : ℤ)
    (tr : EmbClientTransaction π)
    (hcarried : ∀ a ∈ (s.clientEvent t user (.doTransaction addr tr)).started.drop s.started.length,
      Carried ssrv (s.clientEvent t user (.doTransaction addr tr)) a) :
    Inv ssrv s₀ (s.clientEvent t user (.doTransaction addr tr)) := by
  obtain ⟨who, bytes, hphase, hwire⟩ := h.phase
  have hgoes := ClientRun.Goes.doTransaction s.run addr tr
  change s.run.Goes (Emodbus.clientEvent user s.run (.doTransaction addr tr)) [] _ at hgoes
  have heq := clientEvent_eq t hgoes rfl
  have hxs : (s.clientEvent t user (.doTransaction addr tr)).started.drop s.started.length
      = if s.run.cli.rxPdu.isSome then [] else [(addr, tr)] := by
    rw [heq]
    exact List.drop_left
  rw [hxs] at hcarried
  rcases hphase.cli_cases with ⟨hidle, rfl⟩ | hbusy
  · obtain ⟨hsound, mbt, gone, left, hphase', hstation, hkeep, hleft, hfits⟩ :=
      turn h.sound hgoes rfl hidle.rxPdu hidle.currTransaction (hwire.sends_nothing none)
        hidle.started hidle.delivered (fun k e he => by simp at he) hcarried
    refine ⟨hsound, none, gone ++ left, hphase', ?_⟩
    rw [hstation]
    exact hwire.send hkeep hleft hfits
  -- it is refused
  · rw [if_pos (Option.isSome_iff_ne_none.2 hbusy)] at hgoes heq
    have hcli := hgoes.cli
    have hsame : s.clientEvent t user (.doTransaction addr tr)
        = { s.write none (s.station none).mbt [] with
          run := Emodbus.clientEvent user s.run (.doTransaction addr tr) } := by
      rw [heq]
      simp only [List.map_nil, List.append_nil]
      rfl
    have halike : Alike s (s.clientEvent t user (.doTransaction addr tr)) := by
      have hwrite : Alike s (s.write none (s.station none).mbt []) :=
        alike_write rfl rfl (fun k hk => absurd hk.symm (by simp)) []
      rw [hsame]
      exact ⟨⟨hcli, rfl, rfl, rfl, hwrite.rx, hwrite.tx, hwrite.pdu⟩, rfl⟩
    refine ⟨h.sound.congr halike, who, bytes, hphase.congr halike, hwire.congr fun j => ?_⟩
    rw [hsame]
    dsimp only
    rw [station_write]
    split_ifs with hj
    · rw [hj]
      exact ⟨rfl, ⟨rfl, rfl, rfl⟩, fun _ hrest => hrest⟩
    · exact ⟨List.append_nil _, ⟨rfl, rfl, rfl⟩, fun _ hrest => hrest⟩

/-- When all has been read and told, no packet is under way. -/
theorem Inv.quiet (h : Inv ssrv s₀ s) (hsilent : s.Silent)
    (hheld : ∀ j, (s.station j).mbt.rxBufCounter = 0) :
    OnLine s.station none []
      ∧ (Idle ssrv s ∨ ∃ a p, Heard ssrv s a p ∧ ∀ k, (ssrv k).Mute a.1) := by
  obtain ⟨who, bytes, hphase, hwire⟩ := h.phase
  refine ⟨hwire.quiet hsilent hheld none, ?_⟩
  cases hphase with
  | idle h => exact .inl h
  | requesting h =>
    rcases isEmpty_or_nonempty κ with hempty | ⟨⟨k⟩⟩
    · exact .inr ⟨_, _, ⟨h.toPending, fun k => hempty.elim k⟩, fun k => hempty.elim k⟩
    · exact absurd (hwire.eq_nil hsilent (Option.some_ne_none k) (hheld _)) (packet_ne_nil _ _)
  | responding h =>
    exact absurd (hwire.eq_nil hsilent (Option.some_ne_none _).symm (hheld _)) (packet_ne_nil _ _)
  | unanswered h hmute => exact .inr ⟨_, _, h, hmute⟩

theorem waitTimeout_inv (h : Inv ssrv s₀ s) (t : Taker Byte) (hsilent : s.Silent)
    (hheld : ∀ j, (s.station j).mbt.rxBufCounter = 0)
    (hcarried : ∀ a ∈ (s.clientEvent t user .waitTimeout).started.drop s.started.length,
      Carried ssrv (s.clientEvent t user .waitTimeout) a) :
    Inv ssrv s₀ (s.clientEvent t user .waitTimeout) := by
  obtain ⟨hwire, hidle | ⟨a, p, hheard, hmute⟩⟩ := h.quiet hsilent hheld
  · have hgoes := ClientRun.Goes.refl s.run
    nth_rewrite 2 [← waitTimeout_idle user hidle.rxPdu hidle.currTransaction] at hgoes
    obtain ⟨hsound, mbt, gone, left, hphase', hstation, hkeep, hleft, hfits⟩ :=
      turn (t := t) h.sound hgoes rfl hidle.rxPdu hidle.currTransaction (hwire.sends_nothing none)
        hidle.started hidle.delivered (fun k e he => by simp at he)
        (fun a ha => absurd ha List.not_mem_nil)
    refine ⟨hsound, none, gone ++ left, hphase', ?_⟩
    rw [hstation]
    exact hwire.send hkeep hleft hfits
  · obtain ⟨xs, hgoes⟩ := ClientRun.Goes.event_ends user a.2 hheard.waits.currTransaction
      (rfl : ClientInput.waitTimeout.endOf s.run.cli a.2 = some (.error (-modbusRespTimeout)))
    have htold : a.2.told (.error (-modbusRespTimeout)) = [(a.2, .error (-modbusRespTimeout))] :=
      if_pos hheard.hears.2
    rw [htold] at hgoes
    have hxs : (s.clientEvent t user .waitTimeout).started.drop s.started.length = xs := by
      rw [clientEvent_eq t hgoes rfl]
      exact List.drop_left
    rw [hxs] at hcarried
    obtain ⟨hsound, mbt, gone, left, hphase', hstation, hkeep, hleft, hfits⟩ :=
      turn (t := t) h.sound hgoes rfl rfl rfl (hwire.sends_nothing none) hheard.started
        hheard.delivered (fun k e he => by
          rw [List.map_singleton, List.getElem?_singleton] at he
          split_ifs at he with hk
          subst hk
          cases he
          exact ⟨a, hheard.last, rfl, .inl ⟨hmute, rfl⟩⟩) hcarried
    refine ⟨hsound, none, gone ++ left, hphase', ?_⟩
    rw [hstation]
    exact hwire.send hkeep hleft hfits

end Steps

end RtuBus

end Emodbus
