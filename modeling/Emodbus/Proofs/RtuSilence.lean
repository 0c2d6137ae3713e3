import Emodbus.Proofs.RtuBus
import Mathlib.Data.List.Forall2

/-!
# A silence on the line

The stations are told one after the other.  A station that holds nothing, or a packet for an address
it does not know, is left as it was (`serverTimeout_ignored`); one that holds a request for it
serves it (`serverTimeout_served`).  The client that holds an answer ends its transaction
(`clientTimeout_answer`).
-/

namespace Emodbus

open Octets Mealy

variable {π κ σ : Type}

namespace RtuBus

variable [DecidableEq κ] {ssrv : κ → EmbSuperServer σ} {s : RtuBus π κ σ} {t : Taker Byte}
  {old : Option κ → List Byte} {who : Option κ} {heard rest : List Byte}

/-! ## One station -/

/-- What a station has for the address in its packet. -/
theorem packet_address {buf : Mem Byte} {addr : ℤ} {pdu : EmbPdu} (haddr : 0 ≤ addr ∧ addr ≤ 255)
    (h : Mem.slice buf 0 (packet addr pdu).length = packet addr pdu) :
    ((buf 0).toNat : ℤ) = addr := by
  rw [packet, length_rtuBytes] at h
  rw [(packet_parts h).1, BitVec.toNat_ofInt]
  omega

/-- The packet of an address that the station does not know, or nothing. -/
def Foreign (ssrv : EmbSuperServer σ) (bytes : List Byte) : Prop :=
  bytes = [] ∨ ∃ addr pdu, bytes = packet addr pdu ∧ (0 ≤ addr ∧ addr ≤ 255) ∧ ¬ ssrv.Knows addr

/-- Nothing changes and nothing goes out. -/
theorem write_self (s : RtuBus π κ σ) (j : Option κ) : s.write j (s.station j).mbt [] = s := by
  have hstation : (s.write j (s.station j).mbt []).station = s.station := by
    funext i
    rw [station_write]
    split_ifs with hij
    · rw [hij]
    · rw [List.append_nil]
  unfold write at hstation ⊢
  dsimp only at hstation
  rw [hstation]

/-- The last state of a station is the one that counts. -/
theorem write_write (s : RtuBus π κ σ) (j : Option κ) (mbt mbt' : EmbRtu) (bytes : List Byte) :
    (s.write j mbt []).write j mbt' bytes = s.write j mbt' bytes := by
  have hstation : ((s.write j mbt []).write j mbt' bytes).station
      = (s.write j mbt' bytes).station := by
    funext i
    simp only [station_write]
    split_ifs with hij
    · rfl
    · rw [List.append_nil]
  unfold write at hstation ⊢
  dsimp only at hstation
  rw [hstation]

/-- A request for an address that the station does not know. -/
theorem serve_unknown {k : κ} {addr : ℤ} (hknows : ¬ (ssrv k).Knows addr) {pdu : EmbPdu}
    (hrx : (s.station (some k)).mbt.transport.rxPdu = some pdu) :
    serve ssrv t k s (.recvPacket addr pdu) = s := by
  obtain ⟨hrun, hsent⟩ := onReceiveReq_unknown hknows
    ⟨pdu, (s.server k).txPdu, (s.server k).store, []⟩
  have hmbt : { (s.station (some k)).mbt with transport.rxPdu := some pdu }
      = (s.station (some k)).mbt := by rw [← hrx]
  unfold serve
  dsimp only
  rw [hrun, hsent, if_neg hknows, hmbt]
  have hwrite : s.write (some k) (rtuSendAll t (s.station (some k)).mbt []).1
      (RtuOut.takenBy t (rtuSendAll t (s.station (some k)).mbt []).2) = s := write_self s (some k)
  rw [hwrite, Function.update_eq_self]

/-- The station is told and has nothing to say. -/
theorem serverTimeout_ignored {k : κ} {held unread : List Byte}
    (hhas : (s.station (some k)).Has held unread) (hold : Foreign (ssrv k) held) :
    ∃ rx, s.serverTimeout ssrv t k = s.write (some k)
        { (s.station (some k)).mbt with rxBufCounter := 0, transport.rxPdu := rx } []
      ∧ rx.map EmbPdu.maxSize = (s.station (some k)).mbt.transport.rxPdu.map EmbPdu.maxSize := by
  unfold serverTimeout
  rcases hold with rfl | ⟨addr, pdu, rfl, haddr, hknows⟩
  · refine ⟨(s.station (some k)).mbt.transport.rxPdu, ?_, rfl⟩
    rw [onCharTimeout_nothing hhas.counter]
    rfl
  · obtain ⟨rx, hstate, hmax, hups⟩ := onCharTimeout_cases (s.station (some k)).mbt
    refine ⟨rx, ?_, hmax⟩
    dsimp only at hups ⊢
    rw [hstate]
    rcases hups with hups | ⟨errno, hups⟩ | ⟨q, rfl, hups⟩
    · rw [hups]
      rfl
    · rw [hups]
      rfl
    · rw [hups, packet_address haddr hhas.buffer, List.foldl_cons, List.foldl_nil]
      refine serve_unknown hknows ?_
      rw [station_write, if_pos rfl]

/-- What a station that is told nothing for it leaves. -/
theorem ignored_keeps {k : κ} {held unread : List Byte}
    (hhas : (s.station (some k)).Has held unread) (hold : Foreign (ssrv k) held) :
    let s' := s.serverTimeout ssrv t k
    Alike s s' ∧ (s'.station (some k)).Has [] unread
      ∧ ∀ j, j ≠ some k → s'.station j = s.station j := by
  obtain ⟨rx, heq, hmax⟩ := serverTimeout_ignored (t := t) hhas hold
  dsimp only
  rw [heq]
  refine ⟨alike_write ?_ ?_ (fun i hi => ?_) [], ?_, fun j hj => ?_⟩
  · rfl
  · rfl
  · cases hi
    exact hmax
  · rw [station_write, if_pos rfl]
    exact ⟨rfl, rfl, hhas.unread⟩
  · rw [station_write, if_neg hj, List.append_nil]

theorem hush_ignored (h : Hush s.station old who heard rest) (k : κ)
    (hold : Foreign (ssrv k) (old (some k))) :
    Hush (s.serverTimeout ssrv t k).station (Function.update old (some k) []) who heard rest := by
  obtain ⟨rx, heq, -⟩ := serverTimeout_ignored (t := t) (h.has (some k)) hold
  rw [heq]
  exact h.told _ rfl fun left hleft => hleft.congr rfl rfl rfl

/-- Stations with nothing for them are told one after the other. -/
theorem ignored_all (ks : List κ)
    (h : ∀ k, ∃ held unread, (s.station (some k)).Has held unread ∧ Foreign (ssrv k) held) :
    Alike s (ks.foldl (serverTimeout ssrv t) s) := by
  induction ks generalizing s with
  | nil => exact .refl s
  | cons k ks ih =>
    obtain ⟨held, unread, hhas, hold⟩ := h k
    obtain ⟨halike, hnext, hothers⟩ := ignored_keeps (t := t) hhas hold
    refine halike.trans (ih fun i => ?_)
    rcases eq_or_ne i k with rfl | hik
    · exact ⟨[], unread, hnext, .inl rfl⟩
    · rw [hothers _ (by simpa using hik)]
      exact h i

theorem hush_ignored_all (ks : List κ) (h : Hush s.station old who heard rest)
    (hold : ∀ k, Foreign (ssrv k) (old (some k))) :
    ∃ old', Hush (ks.foldl (serverTimeout ssrv t) s).station old' who heard rest
      ∧ ∀ j, old' j = if j ∈ ks.map some then [] else old j := by
  induction ks generalizing s old with
  | nil => exact ⟨old, h, fun j => by simp⟩
  | cons k ks ih =>
    obtain ⟨old', hhush, hold'⟩ := ih (hush_ignored (t := t) h k (hold k)) fun i => by
      rcases eq_or_ne i k with rfl | hik
      · rw [Function.update_self]
        exact .inl rfl
      · rw [Function.update_of_ne (by simpa using hik)]
        exact hold i
    refine ⟨old', hhush, fun j => ?_⟩
    rw [hold' j]
    rcases eq_or_ne j (some k) with rfl | hjk
    · simp
    · simp [hjk]

/-- The client is told and holds nothing. -/
theorem clientTimeout_nothing [DecidableEq π] (user : ClientUser π)
    (h : Hush s.station old who heard rest) (hold : old none = []) :
    let s' := s.clientTimeout t user
    Alike s s' ∧ Hush s'.station (Function.update old none []) who heard rest := by
  have hhas := h.has none
  rw [hold] at hhas
  have hview : s.view.rxBufCounter.toNat = 0 := hhas.counter
  have hpdus : (s.afterRead { s.view with rxBufCounter := 0 }).pdus = s.pdus := by
    unfold afterRead view
    dsimp only
    cases s.run.cli.rxPdu with
    | none => rfl
    | some p => exact Function.update_eq_self p s.pdus
  unfold clientTimeout
  rw [onCharTimeout_nothing hview]
  dsimp only [RtuOut.upcalls, List.foldl_nil]
  have hwrite : Alike s (s.write none { s.view with rxBufCounter := 0 } []) := by
    refine alike_write ?_ ?_ (fun k hk => absurd hk.symm (by simp)) []
    · rfl
    · rfl
  refine ⟨⟨⟨rfl, hpdus, rfl, rfl, hwrite.rx, hwrite.tx, hwrite.pdu⟩, rfl⟩, ?_⟩
  exact h.told _ rfl fun left hleft => hleft.congr rfl rfl rfl

/-- Whatever the client does, the other stations' transports stay as they are. -/
theorem clientTimeout_others [DecidableEq π] (user : ClientUser π) (s : RtuBus π κ σ) (k : κ) :
    ((s.clientTimeout t user).station (some k)).mbt = (s.station (some k)).mbt := by
  have hevents (us : List Upcall) (s : RtuBus π κ σ) :
      ((us.foldl (fun s u => s.clientEvent t user (ClientNode.ofUpcall u)) s).station
        (some k)).mbt = (s.station (some k)).mbt := by
    induction us generalizing s with
    | nil => rfl
    | cons u us ih => exact ih _
  exact hevents _ _

/-! ## A request is served -/

/-- What a station that knows the address makes of the request. -/
theorem serverTimeout_served (h : Hush s.station old who heard rest) {k : κ}
    {a : ℤ × EmbClientTransaction π} (hold : old (some k) = packet a.1 a.2.reqPdu)
    (haddr : 0 ≤ a.1 ∧ a.1 ≤ 255) (hknows : (ssrv k).Knows a.1) {rx : EmbPdu}
    (hrx : (s.station (some k)).mbt.transport.rxPdu = some rx)
    (hroom : a.2.reqPdu.dataSize.toNat ≤ rx.maxSize.toNat) :
    let sv := s.servedWith k a rx
    let res := sv.reaction (ssrv k)
    let mbt := { (s.station (some k)).mbt with
      rxBufCounter := 0, transport.rxPdu := some res.run.rxPdu }
    let r := rtuSendAll t mbt res.sent
    s.serverTimeout ssrv t k
      = { s.write (some k) r.1 (RtuOut.takenBy t r.2) with
        server := Function.update s.server k
          ⟨res.run.txPdu, res.run.store, (s.server k).served ++ [sv]⟩ } := by
  have hhas := h.has (some k)
  rw [hold] at hhas
  obtain ⟨hstate, hups⟩ := onCharTimeout_packet hhas.counter hhas.buffer hrx hroom
  have hback : ((BitVec.ofInt 8 a.1).toNat : ℤ) = a.1 := by
    rw [BitVec.toNat_ofInt]
    omega
  dsimp only at hstate hups ⊢
  unfold serverTimeout
  dsimp only
  rw [hups, hstate, hback, List.foldl_cons, List.foldl_nil]
  unfold serve
  dsimp only
  rw [if_pos hknows, station_write, if_pos rfl, write_write]
  rfl

variable (ssrv) in
/-- Nobody who was told had an answer, or one station is sending it. -/
def Answering (b : RtuBus π κ σ) (a : ℤ × EmbClientTransaction π) (done : List (Option κ))
    (who : Option κ) (heard rest : List Byte) : Prop :=
  heard = [] ∧ rest = [] ∧ (∀ k, some k ∈ done → (ssrv k).Mute a.1)
    ∨ ∃ k rx, who = some k ∧ some k ∈ done ∧ AnsweredBy ssrv b a k
      ∧ (b.station (some k)).mbt.transport.rxPdu = some rx
      ∧ heard ++ rest = packet a.1 ((b.servedWith k a rx).reaction (ssrv k)).run.txPdu

/-- What a station still holds of the packet that everyone but `sender` has got. -/
def stillHeld (sender : Option κ) (bytes : List Byte) (done : List (Option κ)) (j : Option κ) :
    List Byte :=
  if j = sender ∨ j ∈ done then [] else bytes

theorem stillHeld_told (sender : Option κ) (bytes : List Byte) (done : List (Option κ))
    (j : Option κ) : Function.update (stillHeld sender bytes done) j []
      = stillHeld sender bytes (done ++ [j]) := by
  funext i
  unfold stillHeld
  rcases eq_or_ne i j with rfl | hij
  · simp
  · simp [hij]

variable (ssrv) in
/-- Those that have been told of the request have served it, and nothing else has happened. -/
structure Serving (b s : RtuBus π κ σ) (a : ℤ × EmbClientTransaction π) (done : List (Option κ)) :
    Prop where
  kept : Kept b s
  todo : ∀ k, some k ∉ done → s.server k = b.server k
    ∧ (s.station (some k)).mbt.transport = (b.station (some k)).mbt.transport
  unknown : ∀ k, ¬ (ssrv k).Knows a.1 → s.server k = b.server k
  served : ∀ k, some k ∈ done → (ssrv k).Knows a.1 →
    ∃ rx, (b.station (some k)).mbt.transport.rxPdu = some rx
      ∧ let sv := b.servedWith k a rx
        s.server k = ⟨(sv.reaction (ssrv k)).run.txPdu, (sv.reaction (ssrv k)).run.store,
          (b.server k).served ++ [sv]⟩
  hush : ∃ who heard rest,
    Hush s.station (stillHeld none (packet a.1 a.2.reqPdu) done) who heard rest
    ∧ Answering ssrv b a done who heard rest

section Serving

variable {b s' : RtuBus π κ σ} {a : ℤ × EmbClientTransaction π} {done : List (Option κ)}
  {j : Option κ}

omit [DecidableEq κ] in
/-- A station that has no answer has been told. -/
theorem Answering.told (h : Answering ssrv b a done who heard rest)
    (hj : ∀ k, j = some k → (ssrv k).Mute a.1) :
    Answering ssrv b a (done ++ [j]) who heard rest := by
  rcases h with ⟨hheard, hrest, hmute⟩ | ⟨k, rx, hwho, hk, hans⟩
  · refine .inl ⟨hheard, hrest, fun k hk => ?_⟩
    rcases List.mem_append.1 hk with hk | hk
    · exact hmute k hk
    · exact hj k (List.mem_singleton.1 hk).symm
  · exact .inr ⟨k, rx, hwho, List.mem_append_left _ hk, hans⟩

omit [DecidableEq κ] in
theorem not_mem_told {i : Option κ} (h : i ∉ done ++ [j]) : i ∉ done ∧ i ≠ j := by
  simpa using h

/-- A station that is left as it was. -/
theorem Serving.ignored (h : Serving ssrv b s a done) (hs : Alike s s')
    (hmbt : ∀ i, i ≠ j → (s'.station i).mbt = (s.station i).mbt)
    (hj : ∀ k, j = some k → ¬ (ssrv k).Knows a.1)
    (hhush : ∀ {who heard rest}, Hush s.station (stillHeld none (packet a.1 a.2.reqPdu) done) who
      heard rest → Hush s'.station (Function.update
        (stillHeld none (packet a.1 a.2.reqPdu) done) j []) who heard rest) :
    Serving ssrv b s' a (done ++ [j]) where
  kept := h.kept.trans hs.toKept
  todo k hk := by
    obtain ⟨hdone, hne⟩ := not_mem_told hk
    rw [hs.server, hmbt _ hne]
    exact h.todo k hdone
  unknown k hk := by
    rw [hs.server]
    exact h.unknown k hk
  served k hk hknows := by
    rw [hs.server]
    rcases List.mem_append.1 hk with hk | hk
    · exact h.served k hk hknows
    · exact absurd hknows (hj k (List.mem_singleton.1 hk).symm)
  hush := by
    obtain ⟨who, heard, rest, hh, hans⟩ := h.hush
    have hnext := hhush hh
    rw [stillHeld_told] at hnext
    refine ⟨who, heard, rest, hnext, hans.told fun k hk srv hfind => ?_⟩
    exact absurd (by rw [EmbSuperServer.Knows, hfind]; rfl) (hj k hk)

/-- A station that knows the address serves the request. -/
theorem Serving.serves (h : Serving ssrv b s a done) (hcarried : Carried ssrv b a) {k : κ}
    (hk : some k ∉ done) (hknows : (ssrv k).Knows a.1) :
    Serving ssrv b (s.serverTimeout ssrv t k) a (done ++ [some k]) := by
  obtain ⟨who, heard, rest, hhush, hans⟩ := h.hush
  obtain ⟨rx, hrx, hroom⟩ := hcarried.pduRoom k hknows
  obtain ⟨hserver, htransport⟩ := h.todo k hk
  have hold : stillHeld none (packet a.1 a.2.reqPdu) done (some k) = packet a.1 a.2.reqPdu := by
    unfold stillHeld
    rw [if_neg (by simpa using hk)]
  have heq := serverTimeout_served (t := t) hhush hold hcarried.addr hknows
    (by rw [htransport]; exact hrx) hroom
  have hsv : s.servedWith k a rx = b.servedWith k a rx := by
    unfold servedWith
    rw [hserver]
  dsimp only at heq
  rw [hsv] at heq
  set sv := b.servedWith k a rx with hsv_def
  set res := sv.reaction (ssrv k) with hres
  set mbt : EmbRtu := { (s.station (some k)).mbt with
    rxBufCounter := 0, transport.rxPdu := some res.run.rxPdu } with hmbt
  obtain ⟨hkeep, hsame, hsize⟩ := sendAll_keeps t res.sent mbt
  have hmax := (onReceiveReq_sameMax (ssrv k) a.1 sv.run).rx
  have hkept : Kept s (s.serverTimeout ssrv t k) := by
    have hwrite : Alike s (s.write (some k) (rtuSendAll t mbt res.sent).1 _) :=
      alike_write hkeep.size hsize (fun i hi => by
        cases hi
        rw [hsame, htransport, hrx]
        exact congrArg some hmax) (RtuOut.takenBy t (rtuSendAll t mbt res.sent).2)
    rw [heq]
    exact ⟨rfl, rfl, rfl, rfl, hwrite.rx, hwrite.tx, hwrite.pdu⟩
  refine ⟨h.kept.trans hkept, fun i hi => ?_, fun i hi => ?_, fun i hi hi' => ?_, ?_⟩
  · obtain ⟨hdone, hne⟩ := not_mem_told hi
    have hik : i ≠ k := fun he => hne (congrArg some he)
    rw [heq]
    dsimp only
    rw [Function.update_of_ne hik, station_write, if_neg hne]
    exact h.todo i hdone
  · have hik : i ≠ k := fun he => hi (he ▸ hknows)
    rw [heq]
    dsimp only
    rw [Function.update_of_ne hik]
    exact h.unknown i hi
  · rw [heq]
    dsimp only
    rcases eq_or_ne i k with rfl | hik
    · rw [Function.update_self, hserver]
      exact ⟨rx, hrx, rfl⟩
    · rw [Function.update_of_ne hik]
      refine h.served i ?_ hi'
      rcases List.mem_append.1 hi with hi | hi
      · exact hi
      · exact absurd (Option.some.inj (List.mem_singleton.1 hi)) hik
  · have hforget : Hush (s.write (some k) mbt []).station
        (stillHeld none (packet a.1 a.2.reqPdu) (done ++ [some k])) who heard rest := by
      rw [← stillHeld_told]
      exact hhush.told _ rfl fun left hleft => hleft.congr rfl rfl rfl
    have hstation : (s.serverTimeout ssrv t k).station
        = ((s.write (some k) mbt []).write (some k) (rtuSendAll t mbt res.sent).1
          (RtuOut.takenBy t (rtuSendAll t mbt res.sent).2)).station := by
      rw [heq, write_write]
    rw [hstation]
    obtain ⟨srv, hfind⟩ := Option.isSome_iff_exists.1 hknows
    have hsent : res.sent = if srv.isBroadcast then [] else [(a.1, res.run.txPdu)] :=
      onReceiveReq_found hfind sv.run
    by_cases hbroadcast : srv.isBroadcast = true
    -- it has no answer
    · rw [if_pos hbroadcast] at hsent
      refine ⟨who, heard, rest, ?_, hans.told fun i hi srv' hsrv' => ?_⟩
      · have hnone : ((s.write (some k) mbt []).write (some k) (rtuSendAll t mbt []).1
            (RtuOut.takenBy t (rtuSendAll t mbt []).2)).station
            = (s.write (some k) mbt []).station := by
          rw [write_write]
          rfl
        rw [hsent, hnone]
        exact hforget
      · cases hi
        rw [hfind] at hsrv'
        cases hsrv'
        exact hbroadcast
    -- it answers, so it is the one that does
    · rw [if_neg hbroadcast] at hsent
      have hanswered : AnsweredBy ssrv b a k := by
        rcases hcarried.outcome with hmute | ⟨i, hi⟩
        · exact absurd (hmute k srv hfind) hbroadcast
        · exact hi.only k hknows ▸ hi
      rcases hans with ⟨rfl, rfl, -⟩ | ⟨i, -, -, hi, hansi, -⟩
      · obtain ⟨p, hp⟩ := Option.ne_none_iff_exists'.1 hcarried.respPdu
        obtain ⟨-, htx, -, -⟩ := hanswered.fits rx rx p hrx rfl hp
        have hfit : res.run.txPdu.dataSize.toNat + 4 ≤ mbt.txBufSize.toNat := by
          have hmbtTx : mbt.txBufSize = (b.station (some k)).mbt.txBufSize := h.kept.tx (some k)
          rw [hmbtTx]
          exact htx
        obtain ⟨hleft, htaken⟩ := sendAll_packet a.1 hfit t
        rw [hsent, htaken]
        rw [hsent] at hkeep
        set bytes := packet a.1 res.run.txPdu with hbytes
        refine ⟨some k, t.take bytes, bytes.drop (t.count bytes), ?_,
          .inr ⟨k, rx, rfl, by simp, hanswered, hrx, ?_⟩⟩
        · refine hforget.send ?_ hleft
          rw [station_write, if_pos rfl]
          exact hkeep
        · rw [Taker.take, List.take_append_drop]
      · exact absurd (hansi.only k hknows ▸ hi) hk

variable {s₀ : RtuBus π κ σ} {p : π}

/-- What a station has served when all have been told. -/
theorem Serving.server_cases (h : Serving ssrv b s a done) (hall : ∀ j, j ∈ done) (k : κ) :
    ¬ (ssrv k).Knows a.1 ∧ s.server k = b.server k ∨
      (ssrv k).Knows a.1 ∧ ∃ rx, (b.station (some k)).mbt.transport.rxPdu = some rx
        ∧ let sv := b.servedWith k a rx
          s.server k = ⟨(sv.reaction (ssrv k)).run.txPdu, (sv.reaction (ssrv k)).run.store,
            (b.server k).served ++ [sv]⟩ := by
  by_cases hknows : (ssrv k).Knows a.1
  · exact .inr ⟨hknows, h.served k (hall _) hknows⟩
  · exact .inl ⟨hknows, h.unknown k hknows⟩

theorem Serving.sound (h : Serving ssrv b s a done) (hall : ∀ j, j ∈ done)
    (hb : Sound ssrv s₀ b) : Sound ssrv s₀ s where
  stores k := by
    rcases h.server_cases hall k with ⟨-, hk⟩ | ⟨-, rx, -, hk⟩
    · rw [hk]
      exact hb.stores k
    · rw [hk]
      exact Served.replays_append _ (hb.stores k) rfl
  fulfils i e he := by
    rw [h.kept.ended] at he
    obtain ⟨a', ha', htransact, houtcome⟩ := hb.fulfils i e he
    refine ⟨a', by rw [h.kept.started]; exact ha', htransact, ?_⟩
    rcases houtcome with hmute | ⟨k, sv, answer, hsv, hrest⟩
    · exact .inl hmute
    · refine .inr ⟨k, sv, answer, ?_, hrest⟩
      unfold servedFor at hsv ⊢
      rw [h.kept.started]
      rcases h.server_cases hall k with ⟨-, hk⟩ | ⟨-, rx, -, hk⟩
      · rw [hk]
        exact hsv
      · rw [hk]
        dsimp only
        rw [List.getElem?_append_left (List.getElem?_eq_some_iff.1 hsv).1]
        exact hsv

/-- All the stations that know the address have served the request. -/
theorem Serving.delivered (h : Serving ssrv b s a done) (hall : ∀ j, j ∈ done)
    (hb : Requesting ssrv b a p) (k : κ) : Delivered ssrv s s.started.length k := by
  have htake : s.started.take s.started.length = b.started.take b.ended.length ++ [a] := by
    rw [h.kept.started, hb.started, List.take_add_one, hb.last]
    rfl
  have hold := hb.delivered k
  unfold Delivered at hold ⊢
  rw [htake, List.filter_append]
  rcases h.server_cases hall k with ⟨hknows, hk⟩ | ⟨hknows, rx, -, hk⟩
  · rw [hk, List.filter_singleton]
    simpa [hknows] using hold
  · rw [hk, List.filter_singleton]
    have hlast : List.Forall₂ Served.IsOf [b.servedWith k a rx] [a] :=
      .cons ⟨rfl, EmbPdu.receive_same _ _⟩ .nil
    simpa [hknows] using List.rel_append hold hlast

/-- When all have been told, nobody answers or one station does. -/
theorem Serving.phase (h : Serving ssrv b s a done) (hall : ∀ j, j ∈ done)
    (hb : Requesting ssrv b a p) :
    ∃ who bytes, Phase ssrv s who bytes ∧ OnLine s.station who bytes := by
  obtain ⟨who, heard, rest, hhush, hans⟩ := h.hush
  have hold : ∀ j, stillHeld none (packet a.1 a.2.reqPdu) done j = [] := fun j =>
    if_pos (.inr (hall j))
  have hheard : Heard ssrv s a p :=
    ⟨hb.toPending.congr h.kept, h.delivered hall hb⟩
  rcases hans with ⟨rfl, rfl, hmute⟩ | ⟨k, rx, rfl, -, hansk, hrx, hbytes⟩
  · exact ⟨who, [], .unanswered hheard fun k => hmute k (hall _),
      hhush.wire hold fun _ _ => Nat.zero_le _⟩
  · obtain ⟨srv, hfind, hunicast⟩ := hansk.unicast
    obtain ⟨hne, -, hroom, hfits⟩ := hansk.fits rx rx p hrx rfl hb.waits.respPdu
    have hknows : (ssrv k).Knows a.1 := by
      rw [EmbSuperServer.Knows, hfind]
      rfl
    rcases h.server_cases hall k with ⟨hnot, -⟩ | ⟨-, rx', hrx', hk⟩
    · exact absurd hknows hnot
    obtain rfl : rx = rx' := Option.some.inj (hrx.symm.trans hrx')
    have hsent := onReceiveReq_found hfind (b.servedWith k a rx).run
    dsimp only at hsent
    rw [hunicast] at hsent
    refine ⟨some k, heard ++ rest, ?_, hhush.wire hold fun j hj => ?_⟩
    · rw [hbytes]
      refine .responding ⟨hheard, hansk.only, ?_, hsent, hne, ?_⟩
      · unfold servedFor
        rw [hk, h.kept.started, h.kept.ended, ← (hb.delivered k).length_eq,
          List.getElem?_concat_length]
      · rw [h.kept.pdus]
        exact hfits
    · rw [hbytes, packet, length_rtuBytes, EmbPdu.length_bytes, h.kept.rx]
      exact hroom j hj

variable [DecidableEq π] (user : ClientUser π)

/-- One more station is told of the request. -/
theorem Serving.timeout (h : Serving ssrv b s a done) (hcarried : Carried ssrv b a)
    (hj : j ∉ done) : Serving ssrv b (s.timeout ssrv t user j) a (done ++ [j]) := by
  obtain ⟨who, heard, rest, hhush, -⟩ := h.hush
  cases j with
  | none =>
    have hnone : stillHeld none (packet a.1 a.2.reqPdu) done none = [] := if_pos (.inl rfl)
    refine h.ignored (clientTimeout_nothing user hhush hnone).1 (fun i hi => ?_)
      (fun k hk => absurd hk.symm (by simp)) fun hh => (clientTimeout_nothing user hh hnone).2
    obtain ⟨k, rfl⟩ := Option.ne_none_iff_exists'.1 hi
    exact clientTimeout_others user s k
  | some k =>
    by_cases hknows : (ssrv k).Knows a.1
    · exact h.serves hcarried hj hknows
    · have hforeign : Foreign (ssrv k) (stillHeld none (packet a.1 a.2.reqPdu) done (some k)) := by
        unfold stillHeld
        rw [if_neg (by simpa using hj)]
        exact .inr ⟨a.1, a.2.reqPdu, rfl, hcarried.addr, hknows⟩
      obtain ⟨halike, -, hothers⟩ := ignored_keeps (t := t) (hhush.has (some k)) hforeign
      refine h.ignored halike (fun i hi => congrArg (·.mbt) (hothers i hi)) (fun i hi => ?_)
        fun hh => hush_ignored hh k hforeign
      cases hi
      exact hknows

theorem Serving.all (hcarried : Carried ssrv b a) (order : List (Option κ))
    (h : Serving ssrv b s a done) (hnodup : (done ++ order).Nodup) :
    Serving ssrv b (order.foldl (RtuBus.timeout ssrv t user) s) a (done ++ order) := by
  induction order generalizing s done with
  | nil =>
    rw [List.append_nil]
    exact h
  | cons j order ih =>
    have hj : j ∉ done := by
      intro hmem
      exact (List.nodup_append.1 hnodup).2.2 j hmem j List.mem_cons_self rfl
    have happ : done ++ j :: order = done ++ [j] ++ order := by simp
    rw [happ] at hnodup ⊢
    exact ih (h.timeout user hcarried hj) hnodup

end Serving

/-! ## An answer reaches the client -/

section Answer

variable [DecidableEq π] {user : ClientUser π} {s₀ : RtuBus π κ σ}
  {a : ℤ × EmbClientTransaction π} {p : π} {k : κ} {sv : Served σ} {answer : EmbPdu}

omit [DecidableEq κ] [DecidableEq π] in
/-- The end that the client makes of the answer. -/
theorem packetEnd_receive {cli : EmbClient π} (haddr : cli.currAddr = a.1)
    (hne : 1 ≤ answer.dataSize.toNat) (dst : EmbPdu) :
    packetEnd cli a.2 a.1 (dst.receive answer) = answerEnd a.2.reqPdu answer := by
  unfold packetEnd answerEnd
  rw [if_neg (not_not.2 haddr), check_receive dst hne]
  rfl

/-- The client ends its transaction, and user code may start the next one. -/
theorem clientTimeout_answer {w : Option κ} (hsound : Sound ssrv s₀ s)
    (h : Responding ssrv s a p k sv answer) (hhush : Hush s.station old w [] [])
    (hold : old none = packet a.1 answer)
    (hcarried : ∀ a' ∈ (s.clientTimeout t user).started.drop s.started.length,
      Carried ssrv (s.clientTimeout t user) a') :
    let s' := s.clientTimeout t user
    Sound ssrv s₀ s' ∧ ∃ gone left, Phase ssrv s' none (gone ++ left)
      ∧ Hush s'.station (Function.update old none []) none gone left
      ∧ ∀ j, j ≠ none → (gone ++ left).length ≤ (s'.station j).mbt.rxBufSize.toNat := by
  have hhas := hhush.has none
  rw [hold] at hhas
  have hp : s.view.transport.rxPdu = some (s.pdus p) := by
    unfold view
    dsimp only
    rw [h.waits.rxPdu]
    rfl
  have hback : ((BitVec.ofInt 8 a.1).toNat : ℤ) = a.1 := by
    have haddr := h.addr
    rw [BitVec.toNat_ofInt]
    omega
  have hview : s.view.rxBufCounter.toNat = (packet a.1 answer).length := hhas.counter
  obtain ⟨hstate, hups⟩ := onCharTimeout_packet hview hhas.buffer hp h.fits
  dsimp only at hstate hups
  rw [hback] at hups
  set mid := s.afterRead (embRtuOnCharTimeout s.view).1 with hmid
  have hstep : s.clientTimeout t user
      = mid.clientEvent t user (.recvPacket a.1 ((s.pdus p).receive answer)) := by
    unfold clientTimeout
    dsimp only
    rw [hups]
    rfl
  have hpdu : mid.pdus p = (s.pdus p).receive answer := by
    rw [hmid, hstate]
    unfold afterRead
    dsimp only
    rw [h.waits.rxPdu]
    exact Function.update_self ..
  obtain ⟨xs, hgoes⟩ := ClientRun.Goes.receivePkt user a.2 h.waits.currTransaction a.1
    ((s.pdus p).receive answer)
  rw [packetEnd_receive h.waits.currAddr h.nonempty] at hgoes
  have htold (fin : ClientEnd) : a.2.told fin = [(a.2, fin)] := by
    refine if_pos ?_
    cases fin with
    | response => exact h.hears.1
    | error errno => exact h.hears.2
  rw [htold] at hgoes
  have hturn : s.run.clear.Goes (Emodbus.clientEvent user mid.run
      (.recvPacket a.1 ((s.pdus p).receive answer))) [(a.2, answerEnd a.2.reqPdu answer)] xs :=
    hgoes
  have hforget : Hush mid.station (Function.update old none []) w [] [] := by
    have hsends : ∀ left, (s.station none).mbt.Sends left →
        (embRtuOnCharTimeout s.view).1.Sends left := fun left hleft => by
      rw [hstate]
      exact hleft.congr rfl rfl rfl
    exact hhush.told none rfl hsends
  have htx : (mid.station none).mbt.Sends [] := by
    have hsends := hforget.sends none
    rw [ite_self] at hsends
    exact hsends
  have hxs : (s.clientTimeout t user).started.drop s.started.length = xs := by
    rw [hstep, clientEvent_eq t hturn rfl]
    exact List.drop_left
  rw [hxs, hstep] at hcarried
  have hmidsound : Sound ssrv s₀ mid := hsound.turn rfl (List.append_nil _).symm
    (List.append_nil _).symm fun i e he => by simp at he
  obtain ⟨hsound', mbt, gone, left, hphase, hstation, hkeep, hleft, hfits⟩ :=
    turn (t := t) hmidsound hturn rfl rfl rfl htx h.started h.delivered (fun i e he => by
      rw [List.map_singleton, List.getElem?_singleton] at he
      split_ifs at he with hi
      subst hi
      cases he
      refine ⟨a, h.last, rfl, .inr ⟨k, sv, answer, h.served, h.sent, rfl, _, ?_,
        EmbPdu.receive_same (s.pdus p) answer⟩⟩
      dsimp only
      rw [h.waits.respPdu, Option.map_some, hpdu]) hcarried
  rw [hstep]
  refine ⟨hsound', gone, left, hphase, ?_, fun j hj => ?_⟩
  · rw [hstation]
    exact hforget.send hkeep hleft
  · rw [hstation, station_write, if_neg hj]
    exact hfits j hj

end Answer

/-! ## The whole silence -/

section Silence

variable [DecidableEq π] {user : ClientUser π} {s₀ : RtuBus π κ σ}

omit [DecidableEq κ] in
theorem exists_map_some : ∀ {js : List (Option κ)}, none ∉ js → ∃ ks : List κ, js = ks.map some
  | [], _ => ⟨[], rfl⟩
  | none :: _, h => absurd List.mem_cons_self h
  | some k :: js, h => by
    obtain ⟨ks, rfl⟩ := exists_map_some fun hmem => h (List.mem_cons_of_mem _ hmem)
    exact ⟨k :: ks, rfl⟩

omit [DecidableEq κ] in
/-- Some servers, the client, and the other servers. -/
theorem order_split {order : List (Option κ)} (hnodup : order.Nodup) (hall : ∀ j, j ∈ order) :
    ∃ before after : List κ, order = before.map some ++ none :: after.map some := by
  obtain ⟨xs, ys, rfl⟩ := List.append_of_mem (hall none)
  obtain ⟨-, hnone, hdisjoint⟩ := List.nodup_append.1 hnodup
  obtain ⟨ks, rfl⟩ := exists_map_some fun hmem => hdisjoint none hmem none List.mem_cons_self rfl
  obtain ⟨ks', rfl⟩ := exists_map_some (List.nodup_cons.1 hnone).1
  exact ⟨ks, ks', rfl⟩

theorem foldl_timeout (before after : List κ) (s : RtuBus π κ σ) :
    (before.map some ++ none :: after.map some).foldl (timeout ssrv t user) s
      = after.foldl (serverTimeout ssrv t)
        ((before.foldl (serverTimeout ssrv t) s).clientTimeout t user) := by
  rw [List.foldl_append, List.foldl_cons, List.foldl_map, List.foldl_map]
  rfl

variable {order : List (Option κ)}

variable (t user) in
/-- Nothing is under way, and nothing comes of the silence. -/
theorem OnLine.still {w : Option κ} (h : OnLine s.station w []) (hsilent : s.Silent)
    (hnodup : order.Nodup) (hall : ∀ j, j ∈ order) :
    let s' := order.foldl (timeout ssrv t user) s
    Alike s s' ∧ OnLine s'.station w [] := by
  obtain ⟨before, after, rfl⟩ := order_split hnodup hall
  have hhush := h.hush hsilent w
  simp only [ite_self] at hhush
  have hforeign : ∀ k, Foreign (ssrv k) ((fun _ : Option κ => ([] : List Byte)) (some k)) :=
    fun k => .inl rfl
  obtain ⟨old₁, hhush₁, hold₁⟩ := hush_ignored_all (t := t) before hhush hforeign
  have halike₁ := ignored_all (t := t) before fun k => ⟨_, _, hhush.has (some k), hforeign k⟩
  have hnil₁ (j : Option κ) : old₁ j = [] := by
    rw [hold₁ j, ite_self]
  obtain ⟨halike₂, hhush₂⟩ := clientTimeout_nothing (t := t) user hhush₁ (hnil₁ none)
  have hnil₂ (j : Option κ) : Function.update old₁ none [] j = [] := by
    rcases eq_or_ne j none with rfl | hj
    · exact Function.update_self ..
    · rw [Function.update_of_ne hj]
      exact hnil₁ j
  have hforeign₂ (k : κ) : Foreign (ssrv k) (Function.update old₁ none [] (some k)) :=
    .inl (hnil₂ (some k))
  obtain ⟨old₃, hhush₃, hold₃⟩ := hush_ignored_all (t := t) after hhush₂ hforeign₂
  have halike₃ := ignored_all (t := t) after fun k => ⟨_, _, hhush₂.has (some k), hforeign₂ k⟩
  rw [foldl_timeout]
  refine ⟨(halike₁.trans halike₂).trans halike₃, hhush₃.wire (fun j => ?_) fun _ _ => Nat.zero_le _⟩
  rw [hold₃ j, hnil₂ j, ite_self]

/-- The silence behind an answer. -/
theorem Responding.silence {a : ℤ × EmbClientTransaction π} {p : π} {k : κ} {sv : Served σ}
    {answer : EmbPdu} (hsound : Sound ssrv s₀ s) (h : Responding ssrv s a p k sv answer)
    (hwire : OnLine s.station (some k) (packet a.1 answer)) (hsilent : s.Silent)
    (hnodup : order.Nodup) (hall : ∀ j, j ∈ order)
    (hcarried : ∀ a' ∈ (order.foldl (timeout ssrv t user) s).started.drop s.started.length,
      Carried ssrv (order.foldl (timeout ssrv t user) s) a') :
    Inv ssrv s₀ (order.foldl (timeout ssrv t user) s) := by
  obtain ⟨before, after, rfl⟩ := order_split hnodup hall
  have hhush := hwire.hush hsilent none
  have hforeign (i : κ) : Foreign (ssrv i) (if some i = some k then [] else packet a.1 answer) := by
    rcases eq_or_ne i k with rfl | hik
    · rw [if_pos rfl]
      exact .inl rfl
    · rw [if_neg (by simpa using hik)]
      exact .inr ⟨a.1, answer, rfl, h.addr, fun hknows => hik (h.only i hknows)⟩
  obtain ⟨old₁, hhush₁, hold₁⟩ := hush_ignored_all (t := t) before hhush hforeign
  have halike₁ := ignored_all (t := t) before fun i => ⟨_, _, hhush.has (some i), hforeign i⟩
  rw [foldl_timeout] at hcarried ⊢
  set s₁ := before.foldl (serverTimeout ssrv t) s with hs₁
  set s₂ := s₁.clientTimeout t user with hs₂
  have hnone : old₁ none = packet a.1 answer := by
    rw [hold₁ none, if_neg (by simp), if_neg (by simp)]
  have hforeign₁ (i : κ) : Foreign (ssrv i) (old₁ (some i)) := by
    rw [hold₁]
    split_ifs
    · exact .inl rfl
    · exact .inl rfl
    · have hi := hforeign i
      rename_i hik
      rwa [if_neg hik] at hi
  have hhas₂ (i : κ) : ∃ unread, (s₂.station (some i)).Has (old₁ (some i)) unread := by
    have hi := hhush₁.has (some i)
    have hmbt : (s₂.station (some i)).mbt = (s₁.station (some i)).mbt :=
      clientTimeout_others user s₁ i
    exact ⟨(s₂.station (some i)).unread, by rw [hmbt]; exact hi.counter,
      by rw [hmbt]; exact hi.buffer, rfl⟩
  have halike₃ : Alike s₂ (after.foldl (serverTimeout ssrv t) s₂) := ignored_all after fun i => by
    obtain ⟨unread, hi⟩ := hhas₂ i
    exact ⟨_, unread, hi, hforeign₁ i⟩
  have hresp₁ : Responding ssrv s₁ a p k sv answer := by
    refine ⟨h.toHeard.congr halike₁, h.only, ?_, h.sent, h.nonempty, ?_⟩
    · rw [servedFor_congr halike₁, halike₁.ended]
      exact h.served
    · rw [halike₁.pdus]
      exact h.fits
  have hcarried₂ : ∀ a' ∈ s₂.started.drop s₁.started.length, Carried ssrv s₂ a' := by
    intro a' ha'
    rw [halike₁.started, ← halike₃.started] at ha'
    exact (hcarried a' ha').congr halike₃.symm
  obtain ⟨hsound₂, gone, left, hphase₂, hhush₂, hfits⟩ :=
    clientTimeout_answer (hsound.congr halike₁) hresp₁ hhush₁ hnone hcarried₂
  have hold₂ (i : κ) : Function.update old₁ none [] (some i) = old₁ (some i) := by simp
  obtain ⟨old₃, hhush₃, hold₃⟩ := hush_ignored_all (t := t) after hhush₂ fun i => by
    rw [hold₂]
    exact hforeign₁ i
  refine ⟨hsound₂.congr halike₃, none, gone ++ left, hphase₂.congr halike₃,
    hhush₃.wire (fun j => ?_) fun j hj => ?_⟩
  · rw [hold₃ j]
    split_ifs with hafter
    · rfl
    · rcases eq_or_ne j none with rfl | hj
      · exact Function.update_self ..
      · have hbefore : j ∈ before.map some := by
          have hmem := hall j
          simp only [List.mem_append, List.mem_cons, hj, false_or] at hmem
          exact hmem.resolve_right hafter
        rw [Function.update_of_ne hj, hold₁ j, if_pos hbefore]
  · rw [halike₃.rx]
    exact hfits j hj

theorem silence_inv (h : Inv ssrv s₀ s) (hsilent : s.Silent) (hnodup : order.Nodup)
    (hall : ∀ j, j ∈ order)
    (hcarried : ∀ a ∈ (order.foldl (timeout ssrv t user) s).started.drop s.started.length,
      Carried ssrv (order.foldl (timeout ssrv t user) s) a) :
    Inv ssrv s₀ (order.foldl (timeout ssrv t user) s) := by
  obtain ⟨who, bytes, hphase, hwire⟩ := h.phase
  cases hphase with
  | idle hidle =>
    obtain ⟨halike, hwire'⟩ := OnLine.still t user hwire hsilent hnodup hall
    exact ⟨h.sound.congr halike, who, [], (Phase.idle hidle).congr halike, hwire'⟩
  | unanswered hheard hmute =>
    obtain ⟨halike, hwire'⟩ := OnLine.still t user hwire hsilent hnodup hall
    exact ⟨h.sound.congr halike, who, [], (Phase.unanswered hheard hmute).congr halike, hwire'⟩
  | responding hresp => exact hresp.silence h.sound hwire hsilent hnodup hall hcarried
  | @requesting a p hreq =>
    have hstart : Serving ssrv s s a [] := by
      refine ⟨.refl s, fun k _ => ⟨rfl, rfl⟩, fun k _ => rfl,
        fun k hk => absurd hk List.not_mem_nil, none, [], [], ?_,
        .inl ⟨rfl, rfl, fun k hk => absurd hk List.not_mem_nil⟩⟩
      have hhush := hwire.hush hsilent none
      have hheld : (fun j : Option κ => if j = none then [] else packet a.1 a.2.reqPdu)
          = stillHeld none (packet a.1 a.2.reqPdu) [] := by
        funext j
        simp [stillHeld]
      rwa [hheld] at hhush
    have hend := hstart.all user hreq.carried (t := t) order hnodup
    exact ⟨hend.sound hall h.sound, hend.phase hall hreq⟩

/-- Every orderly step keeps the invariant. -/
theorem step_inv (s : RtuBus π κ σ) (i : BusInput π κ) (h : Inv ssrv s₀ s)
    (hadmits : Admits ssrv user s i) : Inv ssrv s₀ (s.step ssrv user i).1 := by
  obtain ⟨horderly, hcarried⟩ := hadmits
  cases i with
  | doTransaction t addr tr => exact doTransaction_inv h t addr tr hcarried
  | waitTimeout t => exact waitTimeout_inv h t horderly.1 horderly.2 hcarried
  | dataReceived j atMost =>
    obtain ⟨who, bytes, hphase, hwire⟩ := h.phase
    have halike := alike_read s j atMost
    exact ⟨h.sound.congr halike, who, bytes, hphase.congr halike, hwire.read j atMost horderly⟩
  | txBufEmpty t j =>
    obtain ⟨who, bytes, hphase, hwire⟩ := h.phase
    have halike := alike_txBufEmpty t s j
    exact ⟨h.sound.congr halike, who, bytes, hphase.congr halike, hwire.txBufEmpty t j⟩
  | silence t order =>
    exact silence_inv h horderly.1 horderly.2.1 horderly.2.2 hcarried

/-! ## Runs -/

omit [DecidableEq π] in
theorem Inv.inOrder (h : Inv ssrv s₀ s) : InOrder ssrv s₀ s := by
  obtain ⟨who, bytes, hphase, -⟩ := h.phase
  have hpending : s.ended.length ≤ s.started.length ∧ s.started.length ≤ s.ended.length + 1
      ∧ ∃ n, s.ended.length ≤ n ∧ n ≤ s.started.length ∧ ∀ k, Delivered ssrv s n k := by
    cases hphase with
    | idle h =>
      have hlen := h.started
      exact ⟨hlen.ge, by omega, _, hlen.ge, le_rfl, h.delivered⟩
    | requesting h =>
      have hlen := h.started
      exact ⟨by omega, hlen.le, _, le_rfl, by omega, h.delivered⟩
    | responding h =>
      have hlen := h.started
      exact ⟨by omega, hlen.le, _, by omega, le_rfl, h.delivered⟩
    | unanswered h _ =>
      have hlen := h.started
      exact ⟨by omega, hlen.le, _, by omega, le_rfl, h.delivered⟩
  exact ⟨⟨hpending.1, hpending.2.1⟩, hpending.2.2, h.sound.stores, h.sound.fulfils⟩

omit [DecidableEq π] in
theorem Fresh.inv (h : s₀.Fresh) : Inv ssrv s₀ s₀ := by
  obtain ⟨cli, hrun, hrx⟩ := h.run
  refine ⟨⟨fun k => ?_, fun i e he => ?_⟩, none, [], .idle ⟨?_, ?_, ?_, fun k => ?_⟩,
    ⟨[], [], rfl, fun j => ?_, fun j => ?_⟩, fun _ _ => Nat.zero_le _⟩
  · rw [h.served k]
    rfl
  · rw [h.ended] at he
    simp at he
  · rw [hrun]
    exact hrx
  · rw [hrun]
    rfl
  · rw [h.started, h.ended]
    rfl
  · unfold Delivered
    rw [h.served k, h.started]
    exact .nil
  · obtain ⟨mbt, hj⟩ := h.station j
    rw [hj]
    exact ⟨[], [], ⟨rfl, rfl, rfl⟩, (ite_self _).symm⟩
  · obtain ⟨mbt, hj⟩ := h.station j
    rw [hj, ite_self]
    exact initialize_sends mbt

end Silence

end RtuBus

open RtuBus in
/-- However the bytes are cut, in whatever order the stations are told of a silence and whatever the
callbacks start: as long as the transactions can be carried, each ends once and in order, with the
answer of the one station that has one or with a timeout if none has, and every station has served
the requests that it knows once each, in order.  When the line is quiet every transaction has ended,
or the last one is for addresses that no station answers at. -/
theorem bus_completes [DecidableEq κ] [DecidableEq π] (ssrv : κ → EmbSuperServer σ)
    (user : ClientUser π) (s₀ : RtuBus π κ σ) (h₀ : s₀.Fresh) (is : List (BusInput π κ)) :
    let s := (run (step ssrv user) s₀ is).1
    Along (step ssrv user) (Admits ssrv user) s₀ is →
      InOrder ssrv s₀ s
        ∧ (s.Silent → (∀ j, (s.station j).mbt.rxBufCounter = 0) →
          s.ended.length = s.started.length
            ∨ ∃ a, s.started[s.ended.length]? = some a ∧ ∀ k, (ssrv k).Mute a.1) := by
  intro s hadmits
  have hinv : Inv ssrv s₀ s := run_inv (fun s i h hq => step_inv s i h hq) is s₀ h₀.inv hadmits
  refine ⟨hinv.inOrder, fun hsilent hheld => ?_⟩
  obtain ⟨-, hidle | ⟨a, p, hheard, hmute⟩⟩ := hinv.quiet hsilent hheld
  · exact .inl hidle.started.symm
  · exact .inr ⟨a, hheard.last, hmute⟩

/-- A super server with one server, which knows every function and answers with one byte. -/
def EmbSuperServer.single (address : Byte) : EmbSuperServer Unit where
  getServer := some fun addr => if addr = address then EmbSuperServer.oneByte.find 0 else none

namespace TwoStations

def transact : EmbClientTransaction Unit := EmbSuperServer.OneByte.transact

def pdu : EmbPdu := EmbSuperServer.OneByte.pdu

def mbt : EmbRtu := ⟨fun _ => 0, fun _ => 0, 256, 256, 0, 0, 0, ⟨some pdu, true⟩⟩

/-- The two stations have the addresses one and two. -/
def ssrv : Bool → EmbSuperServer Unit
  | false => .single 1
  | true => .single 2

def start : RtuBus Unit Bool Unit where
  station _ := ⟨embRtuInitialize mbt, []⟩
  server _ := ⟨pdu, (), []⟩
  run := ⟨embClientInit ⟨none, 0, none, true, true⟩, []⟩
  pdus _ := pdu
  started := []
  ended := []

/-- The request is taken by the port in two parts. -/
def events : List (BusInput Unit Bool) :=
  [.doTransaction (.upTo 3) 1 transact, .dataReceived (some true) 1, .txBufEmpty (.upTo 300) none,
    .dataReceived (some false) 300, .dataReceived (some true) 300,
    .silence (.upTo 300) [some true, none, some false], .dataReceived none 300,
    .dataReceived (some true) 300, .silence (.upTo 300) [some false, none, some true]]

theorem fresh : start.Fresh where
  station _ := ⟨mbt, rfl⟩
  run := ⟨_, rfl, rfl⟩
  started := rfl
  ended := rfl
  served _ := rfl

theorem carried : RtuBus.Carried ssrv (start.clientEvent (.upTo 3) (fun _ => [])
    (.doTransaction 1 transact)) (1, transact) where
  addr := by simp
  hears := by decide
  respPdu := by decide
  txRoom := by decide
  rxRoom k := by cases k <;> decide
  pduRoom k _ := ⟨pdu, rfl, by decide⟩
  outcome := by
    refine .inr ⟨false, fun j hj => ?_, ⟨_, rfl, rfl⟩, fun rx rx' p hrx hmax hp => ?_⟩
    · cases j with
      | false => rfl
      | true => exact absurd hj (by decide)
    · have hfits : 1 + 4 ≤ 256 ∧ 1 ≤ 253 := by simp
      refine ⟨le_rfl, hfits.1, fun j hj => ?_, hfits.2⟩
      rcases j with - | - | -
      · exact hfits.1
      · exact hfits.1
      · exact hfits.1

theorem orderly_read {s : RtuBus Unit Bool Unit} {who : Option Bool} {atMost : ℕ}
    (h : (s.station who).unread ≠ []) : s.Orderly (.dataReceived who atMost) := h

theorem forall_mem_of_length {α : Type} {P : α → Prop} {xs : List α} (h : xs.length = 0) :
    ∀ a ∈ xs, P a := by
  rw [List.length_eq_zero_iff.1 h]
  exact fun a ha => absurd ha List.not_mem_nil

end TwoStations

open RtuBus TwoStations in
theorem bus_completes_two :
    let s := (run (step ssrv fun _ => []) TwoStations.start events).1
    InOrder ssrv TwoStations.start s ∧ s.ended.length = 1 := by
  have hadmits : Along (step ssrv fun _ => []) (Admits ssrv fun _ => []) TwoStations.start
      events := by
    refine ⟨⟨trivial, ?_⟩, ⟨?_, ?_⟩, ⟨trivial, ?_⟩, ⟨?_, ?_⟩, ⟨?_, ?_⟩, ⟨⟨?_, ?_, ?_⟩, ?_⟩,
      ⟨?_, ?_⟩, ⟨?_, ?_⟩, ⟨⟨?_, ?_, ?_⟩, ?_⟩, trivial⟩
    · intro a ha
      rw [List.mem_singleton.1 (show a ∈ [(1, transact)] from ha)]
      exact carried
    · exact orderly_read (by decide +kernel)
    · exact forall_mem_of_length (by decide +kernel)
    · exact forall_mem_of_length (by decide +kernel)
    · exact orderly_read (by decide +kernel)
    · exact forall_mem_of_length (by decide +kernel)
    · exact orderly_read (by decide +kernel)
    · exact forall_mem_of_length (by decide +kernel)
    · rintro (- | - | -) <;> decide +kernel
    · decide
    · rintro (- | - | -) <;> decide
    · exact forall_mem_of_length (by decide +kernel)
    · exact orderly_read (by decide +kernel)
    · exact forall_mem_of_length (by decide +kernel)
    · exact orderly_read (by decide +kernel)
    · exact forall_mem_of_length (by decide +kernel)
    · rintro (- | - | -) <;> decide +kernel
    · decide
    · rintro (- | - | -) <;> decide
    · exact forall_mem_of_length (by decide +kernel)
  have h := bus_completes ssrv (fun _ => []) TwoStations.start fresh events hadmits
  exact ⟨h.1, by decide +kernel⟩

end Emodbus
