import Emodbus.Proofs.ClientRun
import Emodbus.TcpClient

/-!
# One turn of the client

What user code does within one event is a list of ends it is told and a list of transactions it
starts (`Goes`), in whatever callback it does so.  While a transaction with a response PDU is
pending none is started, so that of such transactions there is one at most.
-/

namespace Emodbus

open Octets

variable {π : Type}

section Lists

theorem started_append (as bs : List (ClientAct π)) :
    ClientAct.started (as ++ bs) = ClientAct.started as ++ ClientAct.started bs := by
  induction as with
  | nil => rfl
  | cons a as ih =>
    cases a with
    | call c cli => exact ih
    | doTransaction d =>
      simp only [List.cons_append, ClientAct.started, ih]
      split_ifs <;> rfl

theorem sent_append (as bs : List (ClientAct π)) :
    ClientAct.sent (as ++ bs) = ClientAct.sent as ++ ClientAct.sent bs := by
  induction as with
  | nil => rfl
  | cons a as ih =>
    cases a with
    | call c cli => exact ih
    | doTransaction d => simp only [List.cons_append, ClientAct.sent, ih, List.append_assoc]

end Lists

/-- The client once it has accepted the transaction. -/
def EmbClient.accept (cli : EmbClient π) (a : ℤ × EmbClientTransaction π) : EmbClient π :=
  { cli with currAddr := a.1, currTransaction := some a.2, rxPdu := a.2.respPdu }

/-- From `r` to `r'` these ends were told and these transactions were started. -/
structure ClientRun.Goes (r r' : ClientRun π) (ends : List (EmbClientTransaction π × ClientEnd))
    (started : List (ℤ × EmbClientTransaction π)) : Prop where
  acts : ∃ news, r'.acts = r.acts ++ news ∧ ClientAct.procsCalls news = ends
    ∧ ClientAct.started news = started
    ∧ ClientAct.sent news = started.map fun a => (a.1, a.2.reqPdu)
  cli : r'.cli = started.foldl EmbClient.accept r.cli
  free : started ≠ [] → r.cli.rxPdu = none
  once : (∀ a ∈ started, a.2.respPdu ≠ none) → started.length ≤ 1

namespace ClientRun.Goes

variable {r r' r'' : ClientRun π} {ends ends' : List (EmbClientTransaction π × ClientEnd)}
  {xs ys : List (ℤ × EmbClientTransaction π)}

theorem refl (r : ClientRun π) : Goes r r [] [] where
  acts := ⟨[], (List.append_nil _).symm, rfl, rfl, rfl⟩
  cli := rfl
  free h := absurd rfl h
  once _ := Nat.zero_le _

theorem trans (h : Goes r r' ends xs) (h' : Goes r' r'' ends' ys) :
    Goes r r'' (ends ++ ends') (xs ++ ys) where
  acts := by
    obtain ⟨news, hacts, hends, hstarted, hsent⟩ := h.acts
    obtain ⟨news', hacts', hends', hstarted', hsent'⟩ := h'.acts
    refine ⟨news ++ news', ?_, ?_, ?_, ?_⟩
    · rw [hacts', hacts, List.append_assoc]
    · rw [procsCalls_append, hends, hends']
    · rw [started_append, hstarted, hstarted']
    · rw [sent_append, hsent, hsent', List.map_append]
  cli := by rw [h'.cli, h.cli, List.foldl_append]
  free hne := by
    cases xs with
    | cons a xs => exact h.free (List.cons_ne_nil _ _)
    | nil =>
      have hfree := h'.free hne
      rw [h.cli] at hfree
      exact hfree
  once hresp := by
    have hx := h.once fun a ha => hresp a (List.mem_append_left _ ha)
    have hy := h'.once fun a ha => hresp a (List.mem_append_right _ ha)
    match xs, hx with
    | [], _ => exact hy
    | [a], _ =>
      -- the first one is pending, so there is no second one
      have hbusy : r'.cli.rxPdu ≠ none := by
        rw [h.cli]
        exact hresp a List.mem_cons_self
      cases ys with
      | nil => exact le_rfl
      | cons b ys => exact absurd (h'.free (List.cons_ne_nil _ _)) hbusy

theorem doTransaction (r : ClientRun π) (addr : ℤ) (t : EmbClientTransaction π) :
    Goes r (r.doTransaction addr t) [] (if r.cli.rxPdu.isSome then [] else [(addr, t)]) := by
  unfold ClientRun.doTransaction embClientDoTransaction
  dsimp only
  split_ifs with hbusy
  · exact ⟨⟨_, rfl, rfl, rfl, rfl⟩, rfl, fun h => absurd rfl h, fun _ => Nat.zero_le _⟩
  · refine ⟨⟨_, rfl, rfl, rfl, rfl⟩, rfl, fun _ => ?_, fun _ => le_rfl⟩
    exact Option.not_isSome_iff_eq_none.1 hbusy

theorem attempts (ts : List (ℤ × EmbClientTransaction π)) (r : ClientRun π) :
    ∃ xs, Goes r (ts.foldl (fun r t => r.doTransaction t.1 t.2) r) [] xs := by
  induction ts generalizing r with
  | nil => exact ⟨[], refl r⟩
  | cons t ts ih =>
    obtain ⟨xs, hxs⟩ := ih (r.doTransaction t.1 t.2)
    exact ⟨_, (doTransaction r t.1 t.2).trans hxs⟩

variable (user : ClientUser π)

theorem call (c : ClientCall π) (r : ClientRun π) :
    ∃ xs, Goes r (r.call user c) (ClientAct.procsCalls [.call c r.cli]) xs := by
  have hcall : Goes r ⟨r.cli, r.acts ++ [.call c r.cli]⟩ (ClientAct.procsCalls [.call c r.cli])
      [] :=
    ⟨⟨_, rfl, rfl, rfl, rfl⟩, rfl, fun h => absurd rfl h, fun _ => Nat.zero_le _⟩
  obtain ⟨xs, hxs⟩ := attempts (user (r.acts ++ [.call c r.cli]))
    ⟨r.cli, r.acts ++ [.call c r.cli]⟩
  have hall := hcall.trans hxs
  rw [List.append_nil] at hall
  exact ⟨_, hall⟩

theorem cliOnError (addr errno : ℤ) (r : ClientRun π) :
    ∃ xs, Goes r (r.cliOnError user addr errno) [] xs := by
  unfold ClientRun.cliOnError
  split_ifs
  · exact call user _ r
  · exact ⟨[], refl r⟩

theorem cliOnResponse (addr : ℤ) (r : ClientRun π) :
    ∃ xs, Goes r (r.cliOnResponse user addr) [] xs := by
  unfold ClientRun.cliOnResponse
  split_ifs
  · exact call user _ r
  · exact ⟨[], refl r⟩

variable (req : EmbClientTransaction π)

theorem clientReqOnError (addr errno : ℤ) (r : ClientRun π) :
    ∃ xs, Goes r (clientReqOnError user req addr errno r) (req.told (.error errno)) xs := by
  unfold Emodbus.clientReqOnError EmbClientTransaction.told EmbClientTransaction.hears
  dsimp only
  split_ifs
  · exact call user (.procsOnError req addr errno) r
  · exact ⟨[], refl r⟩

theorem clientReqOnResponse (addr : ℤ) (r : ClientRun π) :
    ∃ xs, Goes r (clientReqOnResponse user req addr r) (req.told .response) xs := by
  unfold Emodbus.clientReqOnResponse EmbClientTransaction.told EmbClientTransaction.hears
  dsimp only
  split_ifs
  · exact call user (.procsOnResponse req addr) r
  · exact ⟨[], refl r⟩

theorem failWith (addr errno : ℤ) (r : ClientRun π) :
    ∃ xs, Goes r (Emodbus.failWith user req addr errno r) (req.told (.error errno)) xs := by
  obtain ⟨xs, hxs⟩ := cliOnError user addr errno r
  obtain ⟨ys, hys⟩ := clientReqOnError user req addr errno (r.cliOnError user addr errno)
  exact ⟨_, hxs.trans hys⟩

/-- A packet from any address: the client ends the pending transaction as `packetEnd` says. -/
theorem receivePkt (hcurr : r.cli.currTransaction = some req) (addr : ℤ)
    (pkt : EmbPdu) :
    ∃ xs, Goes r.clear (embClientOnReceivePkt user addr pkt r)
      (req.told (packetEnd r.cli req addr pkt)) xs := by
  unfold embClientOnReceivePkt packetEnd
  rw [hcurr]
  dsimp only
  have haddr : r.clear.cli.currAddr = r.cli.currAddr := rfl
  rw [haddr]
  split_ifs with hother hexc hfun
  · exact failWith user req _ _ _
  · exact failWith user req _ _ _
  · exact failWith user req _ _ _
  · obtain ⟨xs, hxs⟩ := clientReqOnResponse user req addr r.clear
    obtain ⟨ys, hys⟩ := cliOnResponse user addr (Emodbus.clientReqOnResponse user req addr r.clear)
    have hall := hxs.trans hys
    rw [List.append_nil] at hall
    exact ⟨_, hall⟩

/-- An event that ends the transaction. -/
theorem event_ends (hcurr : r.cli.currTransaction = some req)
    {i : ClientInput π} {fin : ClientEnd} (hfin : i.endOf r.cli req = some fin) :
    ∃ xs, Goes r.clear (clientEvent user r i) (req.told fin) xs := by
  unfold ClientInput.endOf at hfin
  cases i with
  | doTransaction addr t => cases hfin
  | recvPacket addr pkt =>
    cases hfin
    exact receivePkt user req hcurr addr pkt
  | error errno =>
    cases hfin
    unfold clientEvent embClientOnError
    rw [hcurr]
    dsimp only
    obtain ⟨xs, hxs⟩ := cliOnError user r.clear.cli.currAddr errno r.clear
    obtain ⟨ys, hys⟩ := clientReqOnError user req
      (r.clear.cliOnError user r.clear.cli.currAddr errno).cli.currAddr errno
      (r.clear.cliOnError user r.clear.cli.currAddr errno)
    exact ⟨_, hxs.trans hys⟩
  | waitTimeout =>
    cases hfin
    unfold clientEvent embClientWaitTimeout
    rw [hcurr]
    exact clientReqOnError user req _ _ r.clear

/-- An event with no transaction to end. -/
theorem event_idle (hcurr : r.cli.currTransaction = none) {i : ClientInput π}
    (hi : ∀ addr t, i ≠ .doTransaction addr t) :
    (clientEvent user r i).acts = r.acts ∧ (clientEvent user r i).cli.currTransaction = none := by
  cases i with
  | doTransaction addr t => exact absurd rfl (hi addr t)
  | recvPacket addr pkt =>
    unfold clientEvent embClientOnReceivePkt
    rw [hcurr]
    exact ⟨rfl, rfl⟩
  | error errno =>
    unfold clientEvent embClientOnError
    rw [hcurr]
    exact ⟨rfl, hcurr⟩
  | waitTimeout =>
    unfold clientEvent embClientWaitTimeout
    rw [hcurr]
    exact ⟨rfl, hcurr⟩

end ClientRun.Goes

end Emodbus
