import Emodbus.Client

/-!
# Every transaction ends once

The invariant of the client holds wherever user code can look.  Between the moment a transaction
is taken from the client and the call of its own callback the transaction is owed an end; a
transaction that a callback starts in between comes behind it.
-/

namespace Emodbus

open Octets

variable {π : Type}

section Lists

theorem accepted_append (as bs : List (ClientAct π)) :
    ClientAct.accepted (as ++ bs) = ClientAct.accepted as ++ ClientAct.accepted bs := by
  induction as with
  | nil => rfl
  | cons a as ih =>
    cases a with
    | call c cli => exact ih
    | doTransaction d =>
      simp only [List.cons_append, ClientAct.accepted, ih]
      split_ifs <;> rfl

theorem procsCalls_append (as bs : List (ClientAct π)) :
    ClientAct.procsCalls (as ++ bs) = ClientAct.procsCalls as ++ ClientAct.procsCalls bs := by
  induction as with
  | nil => rfl
  | cons a as ih =>
    cases a with
    | doTransaction d => exact ih
    | call c cli => cases c <;> simp [ClientAct.procsCalls, ih]

end Lists

/-! ## emb_client_do_transaction -/

section Attempt

variable {cli : EmbClient π}

theorem doTransaction_idle (h : cli.Owns) (hnone : cli.currTransaction = none) (addr : ℤ)
    (t : EmbClientTransaction π) :
    embClientDoTransaction cli addr t = ⟨addr, t, cli,
      { cli with currAddr := addr, currTransaction := some t, rxPdu := t.respPdu }, 0,
      [(addr, t.reqPdu)]⟩ := by
  unfold embClientDoTransaction
  rw [if_neg (by rw [h.none_iff.1 hnone]; exact Bool.false_ne_true)]

theorem doTransaction_busy (h : cli.Owns) (hsome : cli.currTransaction ≠ none) (addr : ℤ)
    (t : EmbClientTransaction π) :
    embClientDoTransaction cli addr t = ⟨addr, t, cli, cli, -ebusy, []⟩ := by
  unfold embClientDoTransaction
  rw [if_pos (Option.isSome_iff_ne_none.2 fun hrx => hsome (h.none_iff.2 hrx))]

theorem doTransaction_guarded (h : cli.Owns) (addr : ℤ) (t : EmbClientTransaction π) :
    (embClientDoTransaction cli addr t).Guarded := by
  rcases eq_or_ne cli.currTransaction none with hc | hc
  · rw [doTransaction_idle h hc]
    exact ⟨⟨fun hb => absurd hb.1 (by simp [ebusy]), fun hb => absurd hc hb⟩, fun _ => hc,
      fun _ => rfl⟩
  · rw [doTransaction_busy h hc]
    exact ⟨⟨fun _ => hc, fun _ => ⟨rfl, rfl, rfl⟩⟩, fun h0 => absurd h0 (by simp [ebusy]),
      fun h0 => absurd h0 hc⟩

theorem doTransaction_owns (h : cli.Owns) {t : EmbClientTransaction π} (ht : t.respPdu ≠ none)
    (addr : ℤ) : (embClientDoTransaction cli addr t).after.Owns := by
  rcases eq_or_ne cli.currTransaction none with hc | hc
  · rw [doTransaction_idle h hc]
    refine ⟨⟨fun h0 => absurd h0 (by simp), fun h0 => absurd h0 ht⟩, fun req hreq => ?_⟩
    simp only [Option.mem_def, Option.some.injEq] at hreq
    rw [← hreq]
  · rw [doTransaction_busy h hc]
    exact h

end Attempt

/-! ## The invariant -/

/-- `owed` are the transactions taken from the client whose end is still to be told. -/
structure ClientRun.Inv (r : ClientRun π) (owed : List (EmbClientTransaction π))
    (ends : List (EmbClientTransaction π × ClientEnd)) : Prop where
  owns : r.cli.Owns
  calls : ∀ c cli, .call c cli ∈ r.acts → cli.Owns
  attempts : ∀ d, .doTransaction d ∈ r.acts → d.before.Owns ∧ d.after.Owns ∧ d.Guarded
  accepted : ClientAct.accepted r.acts
    = ends.map Prod.fst ++ owed ++ r.cli.currTransaction.toList
  heard : ClientAct.procsCalls r.acts = ends.filter fun e => e.1.hears e.2

section Steps

variable {r : ClientRun π} {owed : List (EmbClientTransaction π)}
  {ends : List (EmbClientTransaction π × ClientEnd)}

theorem ClientRun.Inv.doTransaction (h : r.Inv owed ends) {t : EmbClientTransaction π}
    (ht : t.respPdu ≠ none) (addr : ℤ) : (r.doTransaction addr t).Inv owed ends := by
  have hbefore : (embClientDoTransaction r.cli addr t).before = r.cli := by
    unfold embClientDoTransaction
    split_ifs <;> rfl
  refine ⟨doTransaction_owns h.owns ht addr, fun c cli hc => ?_, fun d hd => ?_, ?_, ?_⟩
  · rcases List.mem_append.1 hc with hc | hc
    · exact h.calls c cli hc
    · simp at hc
  · rcases List.mem_append.1 hd with hd | hd
    · exact h.attempts d hd
    · simp only [List.mem_singleton, ClientAct.doTransaction.injEq] at hd
      subst hd
      refine ⟨?_, doTransaction_owns h.owns ht addr, doTransaction_guarded h.owns addr t⟩
      rw [hbefore]
      exact h.owns
  · change ClientAct.accepted (r.acts ++ [.doTransaction (embClientDoTransaction r.cli addr t)])
      = _ ++ Option.toList (embClientDoTransaction r.cli addr t).after.currTransaction
    rw [accepted_append, h.accepted]
    rcases eq_or_ne r.cli.currTransaction none with hc | hc
    · rw [doTransaction_idle h.owns hc, hc]
      simp [ClientAct.accepted]
    · rw [doTransaction_busy h.owns hc]
      simp [ClientAct.accepted, ebusy]
  · change ClientAct.procsCalls (r.acts ++ _) = _
    rw [procsCalls_append, h.heard]
    exact List.append_nil _

/-- User code that tries some transactions. -/
theorem ClientRun.Inv.attempts_all (ts : List (ℤ × EmbClientTransaction π)) {r : ClientRun π}
    (h : r.Inv owed ends) (hts : ∀ t ∈ ts, t.2.respPdu ≠ none) :
    (ts.foldl (fun r t => r.doTransaction t.1 t.2) r).Inv owed ends := by
  induction ts generalizing r with
  | nil => exact h
  | cons t ts ih =>
    exact ih (h.doTransaction (hts t List.mem_cons_self) t.1)
      fun t' ht' => hts t' (List.mem_cons_of_mem _ ht')

/-- User code is called. -/
theorem ClientRun.Inv.call (h : r.Inv owed ends) {user : ClientUser π}
    (huser : ∀ acts, ∀ t ∈ user acts, t.2.respPdu ≠ none) (c : ClientCall π)
    {owed' : List (EmbClientTransaction π)} {ends' : List (EmbClientTransaction π × ClientEnd)}
    (hmap : ends'.map Prod.fst ++ owed' = ends.map Prod.fst ++ owed)
    (hends : ends'.filter (fun e => e.1.hears e.2)
      = ends.filter (fun e => e.1.hears e.2) ++ ClientAct.procsCalls [.call c r.cli]) :
    (r.call user c).Inv owed' ends' := by
  refine ClientRun.Inv.attempts_all _ ⟨h.owns, fun c' cli hc => ?_, fun d hd => ?_, ?_, ?_⟩
    (huser _)
  · rcases List.mem_append.1 hc with hc | hc
    · exact h.calls c' cli hc
    · simp only [List.mem_singleton, ClientAct.call.injEq] at hc
      exact hc.2 ▸ h.owns
  · rcases List.mem_append.1 hd with hd | hd
    · exact h.attempts d hd
    · simp at hd
  · rw [accepted_append, h.accepted, hmap]
    exact List.append_nil _
  · rw [procsCalls_append, h.heard, hends]

variable {user : ClientUser π} (huser : ∀ acts, ∀ t ∈ user acts, t.2.respPdu ≠ none)

include huser

theorem ClientRun.Inv.cliOnError (h : r.Inv owed ends) (addr errno : ℤ) :
    (r.cliOnError user addr errno).Inv owed ends := by
  unfold ClientRun.cliOnError
  split_ifs
  · exact h.call huser _ rfl (List.append_nil _).symm
  · exact h

theorem ClientRun.Inv.cliOnResponse (h : r.Inv owed ends) (addr : ℤ) :
    (r.cliOnResponse user addr).Inv owed ends := by
  unfold ClientRun.cliOnResponse
  split_ifs
  · exact h.call huser _ rfl (List.append_nil _).symm
  · exact h

/-- The end of a transaction is told, to its callback if it has one for it. -/
theorem ClientRun.Inv.told {req : EmbClientTransaction π} (h : r.Inv [req] ends) (e : ClientEnd)
    (c : ClientCall π) (hc : ClientAct.procsCalls [.call c r.cli] = [(req, e)]) :
    (if req.hears e then r.call user c else r).Inv [] (ends ++ [(req, e)]) := by
  have hmap : (ends ++ [(req, e)]).map Prod.fst ++ [] = ends.map Prod.fst ++ [req] := by simp
  split_ifs with he
  · refine h.call huser c hmap ?_
    rw [List.filter_append, hc]
    simp [he]
  · refine ⟨h.owns, h.calls, h.attempts, ?_, ?_⟩
    · rw [h.accepted, hmap]
    · rw [h.heard, List.filter_append]
      simp [he]

theorem ClientRun.Inv.clientReqOnError {req : EmbClientTransaction π} (h : r.Inv [req] ends)
    (addr errno : ℤ) :
    (clientReqOnError user req addr errno r).Inv [] (ends ++ [(req, .error errno)]) :=
  h.told huser (.error errno) (.procsOnError req addr errno) rfl

theorem ClientRun.Inv.clientReqOnResponse {req : EmbClientTransaction π} (h : r.Inv [req] ends)
    (addr : ℤ) : (clientReqOnResponse user req addr r).Inv [] (ends ++ [(req, .response)]) :=
  h.told huser .response (.procsOnResponse req addr) rfl

omit huser in
/-- The transaction is taken from the client. -/
theorem ClientRun.Inv.clear (h : r.Inv [] ends) :
    r.clear.Inv r.cli.currTransaction.toList ends := by
  refine ⟨⟨⟨fun _ => rfl, fun _ => rfl⟩, fun req hreq => absurd hreq (by simp [ClientRun.clear])⟩,
    h.calls, h.attempts, ?_, h.heard⟩
  change ClientAct.accepted r.acts = _
  rw [h.accepted]
  simp [ClientRun.clear]

theorem ClientRun.Inv.failWith {req : EmbClientTransaction π} (h : r.Inv [req] ends)
    (addr errno : ℤ) :
    (failWith user req addr errno r).Inv [] (ends ++ [(req, .error errno)]) :=
  (h.cliOnError huser addr errno).clientReqOnError huser addr errno

theorem ClientRun.Inv.onReceivePkt (h : r.Inv [] ends) (addr : ℤ) (pkt : EmbPdu) :
    ∃ ends', (embClientOnReceivePkt user addr pkt r).Inv [] ends' := by
  have hclear := h.clear
  unfold embClientOnReceivePkt
  cases hreq : r.cli.currTransaction with
  | none =>
    rw [hreq] at hclear
    exact ⟨ends, hclear⟩
  | some req =>
    rw [hreq] at hclear
    dsimp only
    split_ifs with haddr hexc hfun
    · exact ⟨_, hclear.failWith huser addr _⟩
    · exact ⟨_, hclear.failWith huser addr _⟩
    · exact ⟨_, hclear.failWith huser addr _⟩
    · exact ⟨_, (hclear.clientReqOnResponse huser addr).cliOnResponse huser addr⟩

theorem ClientRun.Inv.onError (h : r.Inv [] ends) (errno : ℤ) :
    ∃ ends', (embClientOnError user errno r).Inv [] ends' := by
  have hclear := h.clear
  unfold embClientOnError
  cases hreq : r.cli.currTransaction with
  | none => exact ⟨ends, h⟩
  | some req =>
    rw [hreq] at hclear
    exact ⟨_, (hclear.cliOnError huser _ errno).clientReqOnError huser _ errno⟩

theorem ClientRun.Inv.waitTimeout (h : r.Inv [] ends) :
    ∃ ends', (embClientWaitTimeout user r).Inv [] ends' := by
  have hclear := h.clear
  unfold embClientWaitTimeout
  cases hreq : r.cli.currTransaction with
  | none =>
    have hsame : r.clear = { r with cli := { r.cli with rxPdu := none } } := by
      unfold ClientRun.clear
      rw [← hreq]
    rw [hreq, hsame] at hclear
    exact ⟨ends, hclear⟩
  | some req =>
    rw [hreq] at hclear
    exact ⟨_, hclear.clientReqOnError huser _ _⟩

/-- One event ends what it takes from the client. -/
theorem ClientRun.Inv.event (h : r.Inv [] ends) (i : ClientInput π)
    (hi : ∀ addr t, i = .doTransaction addr t → t.respPdu ≠ none) :
    ∃ ends', (clientEvent user r i).Inv [] ends' := by
  cases i with
  | doTransaction addr t => exact ⟨ends, h.doTransaction (hi addr t rfl) addr⟩
  | recvPacket addr pkt => exact h.onReceivePkt huser addr pkt
  | error errno => exact h.onError huser errno
  | waitTimeout => exact h.waitTimeout huser

theorem ClientRun.Inv.run (ins : List (ClientInput π)) {r : ClientRun π}
    {ends : List (EmbClientTransaction π × ClientEnd)} (h : r.Inv [] ends)
    (hins : ∀ addr t, .doTransaction addr t ∈ ins → t.respPdu ≠ none) :
    ∃ ends', (ins.foldl (clientEvent user) r).Inv [] ends' := by
  induction ins generalizing r ends with
  | nil => exact ⟨ends, h⟩
  | cons i ins ih =>
    obtain ⟨ends', h'⟩ := h.event huser i fun addr t hi => hins addr t (hi ▸ List.mem_cons_self)
    exact ih h' fun addr t ht => hins addr t (List.mem_cons_of_mem _ ht)

end Steps

/-- Whatever the events and whatever the callbacks start: the client owns the response PDU of its
transaction whenever user code can look, refuses a transaction exactly when one is pending, and of
the transactions it accepted has told the end of each but the pending one, once and in order. -/
theorem client_completes_once (user : ClientUser π) (cli : EmbClient π) (ins : List (ClientInput π))
    (hrx : cli.rxPdu = none)
    (hins : ∀ addr t, .doTransaction addr t ∈ ins → t.respPdu ≠ none)
    (huser : ∀ acts, ∀ t ∈ user acts, t.2.respPdu ≠ none) :
    let r := clientRun user (embClientInit cli) ins
    r.cli.Owns
    ∧ (∀ c cli, .call c cli ∈ r.acts → cli.Owns)
    ∧ (∀ d, .doTransaction d ∈ r.acts → d.before.Owns ∧ d.after.Owns ∧ d.Guarded)
    ∧ ∃ ends : List (EmbClientTransaction π × ClientEnd),
      ClientAct.accepted r.acts = ends.map Prod.fst ++ r.cli.currTransaction.toList
      ∧ ClientAct.procsCalls r.acts = ends.filter fun e => e.1.hears e.2 := by
  intro r
  have hinit : ClientRun.Inv ⟨embClientInit cli, []⟩ [] [] :=
    ⟨⟨⟨fun _ => hrx, fun _ => rfl⟩, fun _ hreq => by simp [embClientInit] at hreq⟩,
      fun _ _ hc => by simp at hc, fun _ hd => by simp at hd, rfl, rfl⟩
  obtain ⟨ends, h⟩ := hinit.run huser ins hins
  have haccepted := h.accepted
  rw [List.append_nil] at haccepted
  exact ⟨h.owns, h.calls, h.attempts, ends, haccepted, h.heard⟩

/-- A timeout whose callback starts the next transaction. -/
theorem client_completes_once_restart :
    let t : EmbClientTransaction ℕ := ⟨⟨3, 1, 253, fun _ => 0⟩, some 7, some ⟨true, true⟩⟩
    let r := clientRun (fun _ => [(1, t)]) (embClientInit ⟨none, 0, none, true, true⟩)
      [.doTransaction 1 t, .waitTimeout]
    ClientAct.procsCalls r.acts = [(t, .error (-modbusRespTimeout))] ∧ r.cli.rxPdu = some 7
    ∧ r.cli.Owns :=
  ⟨rfl, rfl, (client_completes_once _ _ _ rfl (by simp) (by simp)).1⟩

end Emodbus
