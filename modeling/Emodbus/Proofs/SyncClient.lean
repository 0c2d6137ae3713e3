import Emodbus.SyncClient
import Emodbus.Proofs.ClientTurn

/-!
# What a synchronous call returns

A transaction that ends leaves the event loop with a result to set and the mutex to unlock, in this
order, and the calling thread cannot return before (`Phase`).  So it returns what its own
transaction has come to, unless the timer expires in between: then it returns a timeout, and if it
had the mutex already the next call does not wait at all.  A transaction that ends before its call
has set `rx_pdu` leaves that set, and the next call is refused (`clean` tells the runs in which none
does).
-/

namespace Emodbus

open Mealy

variable {ρ π : Type} {fl : SyncResult ρ}

namespace SyncPc

/-- How many steps the calling thread has to go. -/
def togo : SyncPc π → ℕ
  | .ready => 0
  | .stop => 1
  | .hold => 2
  | .wait => 3
  | .start => 4
  | .sendPacket _ _ => 5
  | .rxPdu _ _ => 6
  | .currTransaction _ _ => 7
  | .currAddr _ _ => 8

/-- No transaction of the calling thread has become `curr_transaction`. -/
def idle : SyncPc π → Bool
  | .ready | .currAddr _ _ | .currTransaction _ _ => true
  | _ => false

/-- The calling thread has not called `event_add`. -/
def early : SyncPc π → Bool
  | .rxPdu _ _ | .sendPacket _ _ | .start => true
  | _ => false

/-- The calling thread is to go to sleep, or sleeps. -/
def sleeps : SyncPc π → Bool
  | .wait => true
  | pc => pc.early

theorem sleeps_cases {pc : SyncPc π} (h : pc.sleeps = true) : pc.early = true ∨ pc = .wait := by
  cases pc <;> simp_all [sleeps, early]

theorem not_idle_of_sleeps {pc : SyncPc π} (h : pc.sleeps = true) : pc.idle = false := by
  cases pc <;> simp_all [sleeps, early, idle]

end SyncPc

namespace LoopAct

/-- What is in the place of the result after these steps. -/
def settle (fl : SyncResult ρ) : ρ → List (LoopAct π) → ρ
  | r, [] => r
  | _, .done errno :: todo => settle fl (fl.done errno) todo
  | r, .timedOut :: todo => settle fl (fl.timedOut r) todo
  | r, _ :: todo => settle fl r todo

/-- The callback for this end, if the transaction has one. -/
def telling (req : EmbClientTransaction π) (fin : ClientEnd) : List (LoopAct π) :=
  if req.hears fin then [.tell req fin] else []

theorem ofActs_append (as bs : List (ClientAct π)) :
    ofActs (as ++ bs) = ofActs as ++ ofActs bs := by
  induction as with
  | nil => rfl
  | cons a as ih =>
    cases a with
    | call c cli => simp [ofActs, ih]
    | doTransaction d => exact ih

theorem tells_append (as bs : List (LoopAct π)) : tells (as ++ bs) = tells as ++ tells bs := by
  induction as with
  | nil => rfl
  | cons a as ih => cases a <;> simp [tells, ih]

theorem settle_append (r : ρ) (as bs : List (LoopAct π)) :
    settle fl r (as ++ bs) = settle fl (settle fl r as) bs := by
  induction as generalizing r with
  | nil => rfl
  | cons a as ih => cases a <;> exact ih _

@[simp] theorem settle_telling (r : ρ) (req : EmbClientTransaction π) (fin : ClientEnd) :
    settle fl r (telling req fin) = r := by
  unfold telling
  split_ifs <;> rfl

@[simp] theorem tells_telling (req : EmbClientTransaction π) (fin : ClientEnd) :
    tells (telling req fin) = [(req, fin)].filter fun e => e.1.hears e.2 := by
  unfold telling
  split_ifs with h <;> simp [tells, h]

theorem unlock_notMem_telling (req : EmbClientTransaction π) (fin : ClientEnd) :
    .unlock ∉ telling req fin := by
  unfold telling
  split_ifs <;> simp

theorem timedOut_notMem_telling (req : EmbClientTransaction π) (fin : ClientEnd) :
    .timedOut ∉ telling req fin := by
  unfold telling
  split_ifs <;> simp

end LoopAct

/-! ## The client's callbacks -/

namespace ClientRun

/-- A callback that starts nothing. -/
theorem call_nothing (c : ClientCall π) (r : ClientRun π) :
    r.call (fun _ => []) c = ⟨r.cli, r.acts ++ [.call c r.cli]⟩ := rfl

end ClientRun

namespace SyncClient

open LoopAct

/-- Both callbacks of the client are set. -/
def Hooked (cli : EmbClient π) : Prop := cli.onResponse = true ∧ cli.onError = true

/-- What the event loop has to do when a transaction has ended, unless it was by the timer. -/
def afterEnd (req : EmbClientTransaction π) : ClientEnd → List (LoopAct π)
  | .response => telling req .response ++ [.done 0, .unlock]
  | .error errno => [.done errno, .unlock] ++ telling req (.error errno)

variable {s : SyncClient ρ π} {req : EmbClientTransaction π}

theorem failWith_acts {r : ClientRun π} (hhook : Hooked r.cli) (req : EmbClientTransaction π)
    (addr errno : ℤ) :
    let r' := failWith (fun _ => []) req addr errno r
    r'.cli = r.cli ∧ ofActs r'.acts = ofActs r.acts ++ afterEnd req (.error errno) := by
  unfold failWith clientReqOnError ClientRun.cliOnError
  rw [if_pos hhook.2]
  simp only [ClientRun.call_nothing]
  unfold afterEnd telling EmbClientTransaction.hears
  split_ifs <;> simp [ofActs_append, ofActs, ofCall]

theorem receivePkt_acts {r : ClientRun π} (hhook : Hooked r.cli)
    (hcurr : r.cli.currTransaction = some req) (addr : ℤ) (pkt : EmbPdu) :
    let r' := embClientOnReceivePkt (fun _ => []) addr pkt r
    r'.cli = r.clear.cli
      ∧ ofActs r'.acts = ofActs r.acts ++ afterEnd req (packetEnd r.cli req addr pkt) := by
  have hhook' : Hooked r.clear.cli := hhook
  have haddr : r.clear.cli.currAddr = r.cli.currAddr := rfl
  unfold embClientOnReceivePkt packetEnd
  rw [hcurr]
  dsimp only
  rw [haddr]
  split_ifs with h1 h2 h3
  · exact failWith_acts hhook' req addr _
  · exact failWith_acts hhook' req addr _
  · exact failWith_acts hhook' req addr _
  · unfold clientReqOnResponse ClientRun.cliOnResponse
    simp only [ClientRun.call_nothing]
    unfold afterEnd telling EmbClientTransaction.hears
    have hclear : r.clear.acts = r.acts := rfl
    split_ifs with hon hcli hcli
    · simp [ofActs_append, ofActs, ofCall, hclear]
    · exact absurd hhook'.1 hcli
    · simp [ofActs_append, ofActs, ofCall, hclear]
    · exact absurd hhook'.1 hcli

theorem onError_acts {r : ClientRun π} (hhook : Hooked r.cli)
    (hcurr : r.cli.currTransaction = some req) (errno : ℤ) :
    let r' := embClientOnError (fun _ => []) errno r
    r'.cli = r.clear.cli ∧ ofActs r'.acts = ofActs r.acts ++ afterEnd req (.error errno) := by
  have hhook' : Hooked r.clear.cli := hhook
  unfold embClientOnError
  rw [hcurr]
  dsimp only
  unfold clientReqOnError ClientRun.cliOnError
  rw [if_pos hhook'.2]
  simp only [ClientRun.call_nothing]
  unfold afterEnd telling EmbClientTransaction.hears
  have hclear : r.clear.acts = r.acts := rfl
  split_ifs <;> simp [ofActs_append, ofActs, ofCall, hclear]

theorem waitTimeout_acts {r : ClientRun π} (hcurr : r.cli.currTransaction = some req) :
    let r' := embClientWaitTimeout (fun _ => []) r
    r'.cli = r.clear.cli
      ∧ ofActs r'.acts = ofActs r.acts ++ telling req (.error (-modbusRespTimeout)) := by
  unfold embClientWaitTimeout
  rw [hcurr]
  dsimp only
  unfold clientReqOnError
  simp only [ClientRun.call_nothing]
  unfold telling EmbClientTransaction.hears
  split_ifs <;> simp [ofActs_append, ofActs, ofCall, ClientRun.clear]

/-- The client has dropped its transaction, and the event loop has this to do. -/
structure Drops (s : SyncClient ρ π) (i : ClientInput π) (req : EmbClientTransaction π)
    (fin : ClientEnd) (todo : List (LoopAct π)) : Prop where
  currTransaction : (s.event i).cli.currTransaction = none
  rxPdu : (s.event i).cli.rxPdu = none
  hooked : Hooked (s.event i).cli
  todo : (s.event i).todo = todo
  ended : (s.event i).ended = s.ended ++ [(req, fin)]

theorem drops_of_acts {i : ClientInput π} {fin : ClientEnd} {todo : List (LoopAct π)}
    (hhook : Hooked s.cli) (hcurr : s.cli.currTransaction = some req)
    (hfin : i.endOf s.cli req = some fin)
    (hcli : (clientEvent (fun _ => []) ⟨s.cli, []⟩ i).cli = (⟨s.cli, []⟩ : ClientRun π).clear.cli)
    (hacts : ofActs (clientEvent (fun _ => []) ⟨s.cli, []⟩ i).acts = todo) :
    Drops s i req fin todo := by
  refine ⟨?_, ?_, ?_, hacts, ?_⟩ <;> unfold event <;> dsimp only
  · rw [hcli]
    rfl
  · rw [hcli]
    rfl
  · rw [hcli]
    exact hhook
  · unfold endsWith
    rw [hcurr]
    dsimp only
    rw [hfin]
    rfl

theorem receivePkt_drops (hhook : Hooked s.cli) (hcurr : s.cli.currTransaction = some req)
    (addr : ℤ) (pkt : EmbPdu) :
    Drops s (.recvPacket addr pkt) req (packetEnd s.cli req addr pkt)
      (afterEnd req (packetEnd s.cli req addr pkt)) :=
  have hacts := @receivePkt_acts _ _ ⟨s.cli, []⟩ hhook hcurr addr pkt
  drops_of_acts hhook hcurr rfl hacts.1 hacts.2

theorem onError_drops (hhook : Hooked s.cli) (hcurr : s.cli.currTransaction = some req)
    (errno : ℤ) : Drops s (.error errno) req (.error errno) (afterEnd req (.error errno)) :=
  have hacts := @onError_acts _ _ ⟨s.cli, []⟩ hhook hcurr errno
  drops_of_acts hhook hcurr rfl hacts.1 hacts.2

theorem waitTimeout_drops (hhook : Hooked s.cli) (hcurr : s.cli.currTransaction = some req) :
    Drops s .waitTimeout req (.error (-modbusRespTimeout))
      (telling req (.error (-modbusRespTimeout))) :=
  have hacts := @waitTimeout_acts _ _ ⟨s.cli, []⟩ hcurr
  drops_of_acts hhook hcurr rfl hacts.1 hacts.2

/-- Nothing comes of an event when no transaction is pending. -/
theorem event_idle (hcurr : s.cli.currTransaction = none) {i : ClientInput π}
    (hi : ∀ addr t, i ≠ .doTransaction addr t) :
    (s.event i).cli.currTransaction = none
      ∧ (s.cli.rxPdu = none → (s.event i).cli.rxPdu = none)
      ∧ (Hooked s.cli → Hooked (s.event i).cli) ∧ (s.event i).todo = []
      ∧ (s.event i).ended = s.ended := by
  have hended : s.endsWith i = [] := by
    unfold endsWith
    rw [hcurr]
  unfold event
  rw [hended]
  dsimp only
  rw [List.append_nil]
  cases i with
  | doTransaction addr t => exact absurd rfl (hi addr t)
  | recvPacket addr pkt =>
    simp [clientEvent, embClientOnReceivePkt, hcurr, ClientRun.clear, ofActs, Hooked]
  | error errno =>
    simp [clientEvent, embClientOnError, hcurr, ofActs]
  | waitTimeout =>
    simp [clientEvent, embClientWaitTimeout, hcurr, ofActs, Hooked]

/-! ## The phases of a call -/

/-- Only an error of the last transaction that has ended may still be told. -/
def Late (ended : List (EmbClientTransaction π × ClientEnd)) (todo : List (LoopAct π)) : Prop :=
  todo = [] ∨ ∃ req errno, ended.getLast? = some (req, .error errno)
    ∧ todo = [.tell req (.error errno)]

/-- The transaction has ended with this value, and its call has not returned. -/
structure Over (fl : SyncResult ρ) (clean : Prop) (s : SyncClient ρ π) (v : ℤ) : Prop where
  currTransaction : s.cli.currTransaction = none
  rxPdu : clean → s.cli.rxPdu = none ∧ ∀ addr t, s.pc ≠ .rxPdu addr t
  inOrder : s.ended.map Prod.fst = s.started.map Prod.snd
  last : ∃ before e, s.ended = before ++ [e] ∧ s.returned = before.map (fun e => fl.code e.2.errno)
    ∧ v = fl.code e.2.errno

inductive Phase (fl : SyncResult ρ) (clean : Prop) (s : SyncClient ρ π) : Prop
  | idle (hpc : s.pc.idle = true) (hcurr : s.cli.currTransaction = none)
      (hrx : clean → s.cli.rxPdu = none) (hlocked : s.locked = true) (htimer : s.timer = false)
      (hin : s.inTimeout = false) (hlate : Late s.ended s.todo)
      (horder : s.ended.map Prod.fst = s.started.map Prod.snd)
      (hreturned : s.returned = s.ended.map fun e => fl.code e.2.errno)
  | pending (req : EmbClientTransaction π) (addr : ℤ) (before : List (ℤ × EmbClientTransaction π))
      (hpc : s.pc.sleeps = true) (hcurr : s.cli.currTransaction = some req)
      (hlocked : s.locked = true) (hin : s.inTimeout = false)
      (htimer : s.pc.early = true → s.timer = false) (hlate : Late s.ended s.todo)
      (hstarted : s.started = before ++ [(addr, req)])
      (horder : s.ended.map Prod.fst = before.map Prod.snd)
      (hreturned : s.returned = s.ended.map fun e => fl.code e.2.errno)
  /-- The result is still to be set, or the mutex to be unlocked. -/
  | ending (v : ℤ) (pre post : List (LoopAct π)) (hover : Over fl clean s v)
      (hpc : s.pc.sleeps = true) (htimer : s.pc.early = true → s.timer = false)
      (hlocked : s.locked = true) (htodo : s.todo = pre ++ .unlock :: post) (hpre : .unlock ∉ pre)
      (hlate : Late s.ended post) (hin : s.inTimeout = true → post = [])
      (hresult : fl.read (settle fl s.result pre) = v)
      (hstart : s.pc.early = true →
        .timedOut ∉ pre ∧ fl.read (settle fl (fl.start s.result) pre) = v)
  | woken (v : ℤ) (hover : Over fl clean s v) (hpc : s.pc.sleeps = true)
      (htimer : s.pc.early = true → s.timer = false) (hlocked : s.locked = false)
      (hlate : Late s.ended s.todo) (hin : s.inTimeout = false) (hresult : fl.read s.result = v)
      (hstart : s.pc.early = true → fl.read (fl.start s.result) = v)
  | awake (v : ℤ) (hover : Over fl clean s v) (hpc : s.pc = .hold ∨ s.pc = .stop)
      (hlocked : s.locked = true) (hlate : Late s.ended s.todo) (hin : s.inTimeout = false)
      (hresult : fl.read s.result = v) (htimer : s.pc = .stop → s.timer = false)

/-- `clean` says that the client has not been told anything while a call was to set `rx_pdu`. -/
structure Inv (fl : SyncResult ρ) (clean : Prop) (s : SyncClient ρ π) : Prop where
  hooked : Hooked s.cli
  told : s.told ++ tells s.todo = s.ended.filter fun e => e.1.hears e.2
  refused : clean → s.refused = 0
  phase : Phase fl clean s

variable {clean : Prop}

theorem inv_create (r : ρ) : Inv fl clean (create r : SyncClient ρ π) :=
  ⟨⟨rfl, rfl⟩, rfl, fun _ => rfl,
    .idle rfl rfl (fun _ => rfl) rfl rfl rfl (.inl rfl) rfl rfl⟩

theorem Phase.of_ready (h : Phase fl clean s) (hready : s.pc = .ready) :
    s.cli.currTransaction = none ∧ (clean → s.cli.rxPdu = none) ∧ s.locked = true
      ∧ s.timer = false ∧ s.inTimeout = false ∧ Late s.ended s.todo
      ∧ s.ended.map Prod.fst = s.started.map Prod.snd
      ∧ s.returned = s.ended.map fun e => fl.code e.2.errno := by
  cases h with
  | idle _ hcurr hrx hlocked htimer hin hlate horder hreturned =>
    exact ⟨hcurr, hrx, hlocked, htimer, hin, hlate, horder, hreturned⟩
  | pending _ _ _ hpc => simp [hready, SyncPc.sleeps, SyncPc.early] at hpc
  | ending _ _ _ _ hpc => simp [hready, SyncPc.sleeps, SyncPc.early] at hpc
  | woken _ _ hpc => simp [hready, SyncPc.sleeps, SyncPc.early] at hpc
  | awake _ _ hpc => simp [hready] at hpc

/-! ## The calling thread -/

/-- The lines of `emb_client_do_transaction`, with nothing in between. -/
theorem call_alone (addr : ℤ) (t : EmbClientTransaction π) (hready : s.pc = .ready)
    (hrx : s.cli.rxPdu = none) :
    let s' := (run (step fl) s (.call addr t :: List.replicate 4 .caller)).1
    s'.cli = (embClientDoTransaction s.cli addr t).after
      ∧ s'.sent = s.sent ++ (embClientDoTransaction s.cli addr t).sent ∧ s'.pc = .start := by
  simp [step, SyncClient.call, SyncClient.caller, embClientDoTransaction, hready, hrx,
    List.replicate]

theorem Inv.call (h : Inv fl clean s) (addr : ℤ) (t : EmbClientTransaction π) :
    Inv fl clean (s.call addr t) := by
  have hphase := h.phase
  unfold SyncClient.call
  cases hpc : s.pc with
  | ready =>
    dsimp only
    obtain ⟨hcurr, hrx, hlocked, htimer, hin, hlate, horder, hreturned⟩ := hphase.of_ready hpc
    split_ifs with hbusy
    · refine ⟨h.hooked, h.told, fun hclean => ?_,
        .idle rfl hcurr hrx hlocked htimer hin hlate horder hreturned⟩
      rw [hrx hclean] at hbusy
      cases hbusy
    · exact ⟨h.hooked, h.told, h.refused,
        .idle rfl hcurr hrx hlocked htimer hin hlate horder hreturned⟩
  | _ => exact h

theorem Over.congr {s' : SyncClient ρ π} {v : ℤ} (h : Over fl clean s v)
    (hcurr : s'.cli.currTransaction = s.cli.currTransaction)
    (hrx : clean → s'.cli.rxPdu = s.cli.rxPdu)
    (hpc : ∀ addr t, s'.pc = .rxPdu addr t → s.pc = .rxPdu addr t)
    (hstarted : s'.started = s.started) (hended : s'.ended = s.ended)
    (hreturned : s'.returned = s.returned) : Over fl clean s' v := by
  obtain ⟨h1, h2, h3, h4⟩ := h
  refine ⟨?_, fun hclean => ⟨?_, fun addr t hrx' => ?_⟩, ?_, ?_⟩
  · rwa [hcurr]
  · rw [hrx hclean]
    exact (h2 hclean).1
  · exact (h2 hclean).2 addr t (hpc addr t hrx')
  · rwa [hended, hstarted]
  · rwa [hended, hreturned]

/-- A step of the calling thread that has not called `event_add`: a line behind the one that sets
`curr_transaction`, or `event_add` itself. -/
structure GoesOn (fl : SyncResult ρ) (s s' : SyncClient ρ π) : Prop where
  kept : s' = { s with
    cli := s'.cli, sent := s'.sent, result := s'.result, timer := s'.timer, pc := s'.pc }
  hooked : Hooked s.cli → Hooked s'.cli
  currTransaction : s'.cli.currTransaction = s.cli.currTransaction
  rxPdu : (∀ addr t, s.pc ≠ .rxPdu addr t) → s'.cli.rxPdu = s.cli.rxPdu
  sleeps : s'.pc.sleeps = true
  later : ∀ addr t, s'.pc ≠ .rxPdu addr t
  togo : s'.pc.togo = s.pc.togo - 1
  timer : s'.pc.early = true → s'.timer = s.timer
  result : s'.pc.early = true ∧ s'.result = s.result
    ∨ s'.pc = .wait ∧ s'.result = fl.start s.result

theorem caller_goesOn (hearly : s.pc.early = true) : GoesOn fl s (s.caller fl) := by
  unfold SyncClient.caller
  cases hpc : s.pc with
  | rxPdu addr t =>
    exact ⟨rfl, id, rfl, fun h => absurd hpc (h addr t), rfl, by simp, by rw [hpc]; rfl,
      fun _ => rfl, .inl ⟨rfl, rfl⟩⟩
  | sendPacket addr t =>
    exact ⟨rfl, id, rfl, fun _ => rfl, rfl, by simp, by rw [hpc]; rfl, fun _ => rfl,
      .inl ⟨rfl, rfl⟩⟩
  | start =>
    exact ⟨rfl, id, rfl, fun _ => rfl, rfl, by simp, by rw [hpc]; rfl, (fun h => by cases h),
      .inr ⟨rfl, rfl⟩⟩
  | _ => simp [hpc, SyncPc.early] at hearly

theorem Over.goesOn {s' : SyncClient ρ π} {v : ℤ} (h : Over fl clean s v) (hon : GoesOn fl s s') :
    Over fl clean s' v :=
  h.congr hon.currTransaction (fun hclean => hon.rxPdu (h.rxPdu hclean).2)
    (fun addr t hpc => absurd hpc (hon.later addr t)) (by rw [hon.kept]) (by rw [hon.kept])
    (by rw [hon.kept])

/-- What is read of the result is the same after `start`, and so it stays. -/
theorem GoesOn.reads {s' : SyncClient ρ π} (hon : GoesOn fl s s') {P : ρ → Prop}
    (h : P s.result) (hstart : P (fl.start s.result)) :
    P s'.result ∧ (s'.pc.early = true → P (fl.start s'.result)) := by
  rcases hon.result with ⟨-, hsame⟩ | ⟨hwait, hsame⟩
  · rw [hsame]
    exact ⟨h, fun _ => hstart⟩
  · rw [hsame, hwait]
    exact ⟨hstart, fun h => by cases h⟩

theorem Inv.caller_early (h : Inv fl clean s) (hearly : s.pc.early = true) :
    Inv fl clean (s.caller fl) := by
  have hhooked := h.hooked
  have htold := h.told
  have hrefused := h.refused
  have hon : GoesOn fl s (s.caller fl) := caller_goesOn hearly
  have hsleeps := hon.sleeps
  cases h.phase with
  | idle hpc => cases hs : s.pc <;> simp [hs, SyncPc.idle, SyncPc.early] at hpc hearly
  | pending req addr before hpc hcurr hlocked hin htimer hlate hstarted horder hreturned =>
    rw [hon.kept]
    exact ⟨hon.hooked hhooked, htold, hrefused, .pending req addr before hsleeps
      (hon.currTransaction.trans hcurr) hlocked hin (fun he => (hon.timer he).trans (htimer hearly))
      hlate hstarted horder hreturned⟩
  | ending v pre post hover hpc htimer hlocked htodo hpre hlate hin hresult hstart =>
    have hover' := hover.goesOn hon
    obtain ⟨hresult', hstart'⟩ := hon.reads (P := fun r => fl.read (settle fl r pre) = v) hresult
      (hstart hearly).2
    rw [hon.kept] at hover' ⊢
    exact ⟨hon.hooked hhooked, htold, hrefused, .ending v pre post hover' hsleeps
      (fun he => (hon.timer he).trans (htimer hearly)) hlocked htodo hpre hlate hin hresult'
      fun he => ⟨(hstart hearly).1, hstart' he⟩⟩
  | woken v hover hpc htimer hlocked hlate hin hresult hstart =>
    have hover' := hover.goesOn hon
    obtain ⟨hresult', hstart'⟩ := hon.reads (P := fun r => fl.read r = v) hresult (hstart hearly)
    rw [hon.kept] at hover' ⊢
    exact ⟨hon.hooked hhooked, htold, hrefused, .woken v hover' hsleeps
      (fun he => (hon.timer he).trans (htimer hearly)) hlocked hlate hin hresult' hstart'⟩
  | awake v hover hpc => rcases hpc with hpc | hpc <;> simp [hpc, SyncPc.early] at hearly

theorem Inv.caller (h : Inv fl clean s) : Inv fl clean (s.caller fl) := by
  have hhooked := h.hooked
  have htold := h.told
  have hrefused := h.refused
  by_cases hearly : s.pc.early = true
  · exact h.caller_early hearly
  unfold SyncClient.caller
  cases h.phase with
  | idle hpc hcurr hrx hlocked htimer hin hlate horder hreturned =>
    cases hs : s.pc with
    | ready => exact h
    | currAddr addr t =>
      exact ⟨hhooked, htold, hrefused,
        .idle rfl hcurr hrx hlocked htimer hin hlate horder hreturned⟩
    | currTransaction addr t =>
      exact ⟨hhooked, htold, hrefused, .pending t addr s.started rfl rfl hlocked hin
        (fun _ => htimer) hlate rfl horder hreturned⟩
    | _ => simp [hs, SyncPc.idle] at hpc
  | pending req addr before hpc hcurr hlocked =>
    rw [(SyncPc.sleeps_cases hpc).resolve_left hearly]
    dsimp only
    rw [if_pos hlocked]
    exact h
  | ending v pre post hover hpc htimer hlocked =>
    rw [(SyncPc.sleeps_cases hpc).resolve_left hearly]
    dsimp only
    rw [if_pos hlocked]
    exact h
  | woken v hover hpc htimer hlocked hlate hin hresult hstart =>
    rw [(SyncPc.sleeps_cases hpc).resolve_left hearly]
    dsimp only
    rw [if_neg (by simp [hlocked])]
    exact ⟨hhooked, htold, hrefused, .awake v
      (hover.congr rfl (fun _ => rfl) (by simp) rfl rfl rfl) (.inl rfl) rfl hlate hin hresult
      (fun h => by cases h)⟩
  | awake v hover hpc hlocked hlate hin hresult htimer =>
    rcases hpc with hpc | hpc
    · rw [hpc]
      dsimp only
      rw [if_neg (by simp [hin])]
      exact ⟨hhooked, htold, hrefused, .awake v
        (hover.congr rfl (fun _ => rfl) (by simp) rfl rfl rfl) (.inr rfl) hlocked hlate hin hresult
        (fun _ => rfl)⟩
    · rw [hpc]
      obtain ⟨before, e, hended, hreturned, rfl⟩ := hover.last
      refine ⟨hhooked, htold, hrefused, .idle rfl hover.currTransaction
        (fun hclean => (hover.rxPdu hclean).1) hlocked (htimer hpc) hin hlate hover.inOrder ?_⟩
      dsimp only
      rw [hreturned, hresult, hended, List.map_append]
      rfl

/-! ## The event loop -/

/-- The last callback of a transaction. -/
theorem loop_late (htodo : Late s.ended s.todo) (hin : s.inTimeout = false) :
    s.loop fl = s ∨ ∃ req fin, s.todo = [.tell req fin]
      ∧ s.loop fl = { s with todo := [], told := s.told ++ [(req, fin)] } := by
  unfold SyncClient.loop
  rcases htodo with hnil | ⟨req, errno, -, htell⟩
  · rw [hnil]
    exact .inl rfl
  · refine .inr ⟨req, .error errno, htell, ?_⟩
    rw [htell, hin]
    rfl

theorem Inv.loop_late (h : Inv fl clean s) (hlate : Late s.ended s.todo) (hin : s.inTimeout = false)
    (hphase : ∀ told, Phase fl clean { s with todo := [], told := told }) :
    Inv fl clean (s.loop fl) := by
  rcases SyncClient.loop_late hlate hin with heq | ⟨req, fin, htodo, heq⟩
  · rw [heq]
    exact h
  · have htold := h.told
    rw [htodo] at htold
    rw [heq]
    refine ⟨h.hooked, ?_, h.refused, hphase _⟩
    dsimp only
    rw [← htold]
    simp [tells]

/-- A step of the event loop changes nothing of this. -/
theorem Over.same {s' : SyncClient ρ π} {v : ℤ} (h : Over fl clean s v) (hcli : s'.cli = s.cli)
    (hpc : s'.pc = s.pc) (hstarted : s'.started = s.started) (hended : s'.ended = s.ended)
    (hreturned : s'.returned = s.returned) : Over fl clean s' v :=
  h.congr (by rw [hcli]) (fun _ => by rw [hcli]) (fun _ _ => by rw [hpc]; exact id) hstarted hended
    hreturned

theorem Inv.loop (h : Inv fl clean s) : Inv fl clean (s.loop fl) := by
  have hhooked := h.hooked
  have htold := h.told
  have hrefused := h.refused
  cases h.phase with
  | idle hpc hcurr hrx hlocked htimer hin hlate horder hreturned =>
    exact h.loop_late hlate hin fun told =>
      .idle hpc hcurr hrx hlocked htimer hin (.inl rfl) horder hreturned
  | pending req addr before hpc hcurr hlocked hin htimer hlate hstarted horder hreturned =>
    exact h.loop_late hlate hin fun told =>
      .pending req addr before hpc hcurr hlocked hin htimer (.inl rfl) hstarted horder hreturned
  | woken v hover hpc htimer hlocked hlate hin hresult hstart =>
    exact h.loop_late hlate hin fun told =>
      .woken v (hover.same rfl rfl rfl rfl rfl) hpc htimer hlocked (.inl rfl) hin hresult hstart
  | awake v hover hpc hlocked hlate hin hresult htimer =>
    exact h.loop_late hlate hin fun told =>
      .awake v (hover.same rfl rfl rfl rfl rfl) hpc hlocked (.inl rfl) hin hresult htimer
  | ending v pre post hover hpc htimer hlocked htodo hpre hlate hin hresult hstart =>
    unfold SyncClient.loop
    rw [htodo] at htold ⊢
    cases pre with
    | nil =>
      have hin' : (s.inTimeout && !post.isEmpty) = false := by
        cases hcase : s.inTimeout with
        | false => rfl
        | true => simp [hin hcase]
      exact ⟨hhooked, htold, hrefused, .woken v (hover.same rfl rfl rfl rfl rfl) hpc htimer rfl
        hlate hin' hresult fun hs => (hstart hs).2⟩
    | cons a pre =>
      have hpre' : .unlock ∉ pre := fun hmem => hpre (List.mem_cons_of_mem _ hmem)
      have hin' : (s.inTimeout && !(pre ++ .unlock :: post).isEmpty) = true → post = [] := by
        intro hcase
        rw [Bool.and_eq_true] at hcase
        exact hin hcase.1
      have hstart' : s.pc.early = true → .timedOut ∉ pre := fun hs hmem =>
        (hstart hs).1 (List.mem_cons_of_mem _ hmem)
      cases a with
      | done errno =>
        refine ⟨hhooked, htold, hrefused, .ending v pre post (hover.same rfl rfl rfl rfl rfl) hpc
          htimer hlocked rfl hpre' hlate hin' hresult fun hs => ⟨hstart' hs, ?_⟩⟩
        change fl.read (settle fl (fl.start (fl.done errno)) pre) = v
        rw [fl.start_done]
        exact hresult
      | timedOut =>
        refine ⟨hhooked, htold, hrefused, .ending v pre post (hover.same rfl rfl rfl rfl rfl) hpc
          htimer hlocked rfl hpre' hlate hin' hresult fun hs => ?_⟩
        exact absurd List.mem_cons_self (hstart hs).1
      | unlock => exact absurd List.mem_cons_self hpre
      | tell req fin =>
        refine ⟨hhooked, ?_, hrefused, .ending v pre post (hover.same rfl rfl rfl rfl rfl) hpc
          htimer hlocked rfl hpre' hlate hin' hresult fun hs => ⟨hstart' hs, (hstart hs).2⟩⟩
        change (s.told ++ [(req, fin)]) ++ tells (pre ++ .unlock :: post)
          = s.ended.filter fun e => e.1.hears e.2
        rw [← htold]
        simp [tells]

/-! ## What the event loop calls -/

theorem Inv.event_idle (h : Inv fl clean s) (hcurr : s.cli.currTransaction = none)
    (htodo : s.todo = []) {i : ClientInput π} (hi : ∀ addr t, i ≠ .doTransaction addr t) :
    Inv fl clean (s.event i) := by
  obtain ⟨hcurr', hrx', hhooked', htodo', hended'⟩ := SyncClient.event_idle hcurr hi
  have htold := h.told
  have hover {v : ℤ} (hover : Over fl clean s v) : Over fl clean (s.event i) v := by
    obtain ⟨-, hrx, horder, hlast⟩ := hover
    refine ⟨hcurr', fun hclean => ⟨hrx' (hrx hclean).1, (hrx hclean).2⟩, ?_, ?_⟩
    · rw [hended']
      exact horder
    · rw [hended']
      exact hlast
  refine ⟨hhooked' h.hooked, ?_, h.refused, ?_⟩
  · rw [htodo', hended', ← htold, htodo]
    rfl
  cases h.phase with
  | idle hpc _ hrx hlocked htimer hin hlate horder hreturned =>
    refine .idle hpc hcurr' (fun hclean => hrx' (hrx hclean)) hlocked htimer hin (.inl htodo') ?_ ?_
    · rw [hended']
      exact horder
    · rw [hended']
      exact hreturned
  | pending req addr before hpc hsome =>
    rw [hcurr] at hsome
    cases hsome
  | ending v pre post _ hpc htimer hlocked hsplit =>
    rw [htodo] at hsplit
    simp at hsplit
  | woken v hv hpc htimer hlocked hlate hin hresult hstart =>
    exact .woken v (hover hv) hpc htimer hlocked (.inl htodo') hin hresult hstart
  | awake v hv hpc hlocked hlate hin hresult htimer =>
    exact .awake v (hover hv) hpc hlocked (.inl htodo') hin hresult htimer

/-- Where the calling thread is when a transaction is pending. -/
theorem Inv.of_pending (h : Inv fl clean s) {req : EmbClientTransaction π}
    (hcurr : s.cli.currTransaction = some req) :
    ∃ addr before, s.pc.sleeps = true ∧ s.locked = true
      ∧ (s.pc.early = true → s.timer = false) ∧ s.started = before ++ [(addr, req)]
      ∧ s.ended.map Prod.fst = before.map Prod.snd
      ∧ s.returned = s.ended.map fun e => fl.code e.2.errno := by
  cases h.phase with
  | pending req' addr before hpc hcurr' hlocked _ htimer _ hstarted horder hreturned =>
    rw [hcurr, Option.some.injEq] at hcurr'
    subst hcurr'
    exact ⟨addr, before, hpc, hlocked, htimer, hstarted, horder, hreturned⟩
  | idle _ hnone => simp [hcurr] at hnone
  | ending v pre post hover => simp [hover.currTransaction] at hcurr
  | woken v hover => simp [hover.currTransaction] at hcurr
  | awake v hover => simp [hover.currTransaction] at hcurr

/-- The pending transaction is dropped, and the event loop is to set its result and to unlock the
mutex. -/
theorem Inv.drops (h : Inv fl clean s) {i : ClientInput π} {req : EmbClientTransaction π}
    (hcurr : s.cli.currTransaction = some req) (htodo : s.todo = [])
    (hunraced : clean → ∀ addr t, s.pc ≠ .rxPdu addr t) {fin : ClientEnd}
    {todo : List (LoopAct π)} (hdrops : Drops s i req fin todo) {timer inTimeout : Bool}
    {pre post : List (LoopAct π)} (hpre : .unlock ∉ pre)
    (hlate : Late (s.ended ++ [(req, fin)]) post) (hin : inTimeout = true → post = [])
    (htells : tells (pre ++ .unlock :: post) = tells (telling req fin))
    (hresult : ∀ r, fl.read (settle fl r pre) = fl.code fin.errno)
    (hstart : s.pc.early = true → timer = s.timer ∧ .timedOut ∉ pre) :
    Inv fl clean { s.event i with
      todo := pre ++ .unlock :: post, timer := timer, inTimeout := inTimeout } := by
  have htold := h.told
  obtain ⟨hcurr', hrx', hhooked', -, hended'⟩ := hdrops
  obtain ⟨addr, before, hpc, hlocked, htimer, hstarted, horder, hreturned⟩ := h.of_pending hcurr
  refine ⟨hhooked', ?_, h.refused, .ending (fl.code fin.errno) pre post
    ⟨hcurr', fun hclean => ⟨hrx', hunraced hclean⟩, ?_, ?_⟩ hpc
    (fun hs => (hstart hs).1.trans (htimer hs)) hlocked rfl hpre ?_ hin (hresult _)
    fun hs => ⟨(hstart hs).2, hresult _⟩⟩
  · rw [htodo] at htold
    dsimp only
    rw [hended', List.filter_append, htells, tells_telling, ← htold]
    simp [SyncClient.event, tells]
  · change (s.event i).ended.map Prod.fst = s.started.map Prod.snd
    rw [hended', hstarted, List.map_append, List.map_append, horder]
    rfl
  · exact ⟨s.ended, (req, fin), hended', hreturned, rfl⟩
  · dsimp only
    rw [hended']
    exact hlate

/-- An end that the client tells itself. -/
theorem Inv.afterEnd (h : Inv fl clean s) {i : ClientInput π} {req : EmbClientTransaction π}
    (hcurr : s.cli.currTransaction = some req) (htodo : s.todo = [])
    (hunraced : clean → ∀ addr t, s.pc ≠ .rxPdu addr t) {fin : ClientEnd}
    (hdrops : Drops s i req fin (afterEnd req fin)) (hin : s.inTimeout = false) :
    Inv fl clean (s.event i) := by
  have heta : s.event i = { s.event i with
      todo := SyncClient.afterEnd req fin, timer := s.timer, inTimeout := s.inTimeout } := by
    rw [← hdrops.todo]
    rfl
  rw [heta]
  cases fin with
  | response =>
    have hsplit : SyncClient.afterEnd req .response
        = (telling req .response ++ [.done 0]) ++ .unlock :: [] := by
      simp [SyncClient.afterEnd]
    rw [hsplit]
    refine h.drops hcurr htodo hunraced hdrops ?_ (.inl rfl) (fun _ => rfl) ?_ (fun r => ?_)
      fun _ => ⟨rfl, ?_⟩
    · simp [unlock_notMem_telling]
    · simp [tells_append, tells]
    · rw [settle_append, settle_telling]
      exact fl.read_done 0
    · simp [timedOut_notMem_telling]
  | error errno =>
    have hsplit : SyncClient.afterEnd req (.error errno)
        = [.done errno] ++ .unlock :: telling req (.error errno) := rfl
    rw [hsplit]
    refine h.drops hcurr htodo hunraced hdrops (by simp) ?_ (fun h => ?_) ?_ (fun r => ?_)
      fun _ => ⟨rfl, by simp⟩
    · unfold telling
      split_ifs
      · exact .inr ⟨req, errno, by simp, rfl⟩
      · exact .inl rfl
    · rw [hin] at h
      cases h
    · simp [tells]
    · exact fl.read_done errno

theorem Inv.inTimeout (h : Inv fl clean s) (htodo : s.todo = []) : s.inTimeout = false := by
  cases h.phase with
  | idle _ _ _ _ _ hin => exact hin
  | pending _ _ _ _ _ _ hin => exact hin
  | ending v pre post _ _ _ _ hsplit =>
    rw [htodo] at hsplit
    simp at hsplit
  | woken _ _ _ _ _ _ hin => exact hin
  | awake _ _ _ _ _ hin => exact hin

theorem Inv.timeoutCb (h : Inv fl clean s) (htimer : s.timer = true) (htodo : s.todo = [])
    {req : EmbClientTransaction π} (hcurr : s.cli.currTransaction = some req) :
    Inv fl clean (s.timeoutCb fl) := by
  have hdrops := waitTimeout_drops h.hooked hcurr
  have hstart : s.pc.early ≠ true := by
    intro hearly
    obtain ⟨-, -, -, -, hnot, -⟩ := h.of_pending hcurr
    rw [hnot hearly] at htimer
    cases htimer
  have hunraced : clean → ∀ addr t, s.pc ≠ .rxPdu addr t := fun _ addr t hpc =>
    hstart (by rw [hpc]; rfl)
  unfold SyncClient.timeoutCb
  dsimp only
  rw [hdrops.todo]
  have hfirst (as : List (LoopAct π)) :
      .timedOut :: (as ++ [.unlock]) = (.timedOut :: as) ++ .unlock :: [] := rfl
  have hlast (as : List (LoopAct π)) :
      as ++ [.timedOut, .unlock] = (as ++ [.timedOut]) ++ .unlock :: [] := by simp
  split_ifs
  · rw [hfirst]
    refine h.drops hcurr htodo hunraced hdrops ?_ (.inl rfl) (fun _ => rfl) ?_ (fun r => ?_)
      fun hs => absurd hs hstart
    · simp [unlock_notMem_telling]
    · simp [tells_append, tells]
    · simp only [settle, settle_telling]
      exact fl.read_timedOut r
  · rw [hlast]
    refine h.drops hcurr htodo hunraced hdrops ?_ (.inl rfl) (fun _ => rfl) ?_ (fun r => ?_)
      fun hs => absurd hs hstart
    · simp [unlock_notMem_telling]
    · simp [tells_append, tells]
    · rw [settle_append, settle_telling]
      exact fl.read_timedOut r

theorem step_inv (h : Inv fl clean s) (i : SyncInput π) (htimely : s.Timely i)
    (hunraced : clean → s.Unraced i) : Inv fl clean (s.step fl i).1 := by
  cases i with
  | call addr t => exact h.call addr t
  | caller => exact h.caller
  | loop => exact h.loop
  | recvPacket addr pkt =>
    unfold step
    dsimp only
    split_ifs with htodo
    · cases hcurr : s.cli.currTransaction with
      | none => exact h.event_idle hcurr htodo fun _ _ => by simp
      | some req =>
        exact h.afterEnd hcurr htodo (fun hclean => hunraced hclean htodo)
          (receivePkt_drops h.hooked hcurr addr pkt) (h.inTimeout htodo)
    · exact h
  | error errno =>
    unfold step
    dsimp only
    split_ifs with htodo
    · cases hcurr : s.cli.currTransaction with
      | none => exact h.event_idle hcurr htodo fun _ _ => by simp
      | some req =>
        exact h.afterEnd hcurr htodo (fun hclean => hunraced hclean htodo)
          (onError_drops h.hooked hcurr errno) (h.inTimeout htodo)
    · exact h
  | timer =>
    unfold step
    dsimp only
    split_ifs with hfires
    · obtain ⟨req, hcurr⟩ := Option.ne_none_iff_exists'.1 (htimely hfires.1 hfires.2)
      exact h.timeoutCb hfires.2 hfires.1 hcurr
    · exact h

theorem run_timely {is : List (SyncInput π)} {r : ρ}
    (htimely : Along (step fl) Timely (create r) is) :
    Inv fl False (run (step fl) (create r) is).1 :=
  run_inv (Q := Timely) (fun _ i h hq => step_inv h i hq False.elim) is (create r) (inv_create r)
    htimely

theorem run_unraced {is : List (SyncInput π)} {r : ρ}
    (htimely : Along (step fl) Timely (create r) is)
    (hunraced : Along (step fl) Unraced (create r) is) :
    Inv fl True (run (step fl) (create r) is).1 :=
  run_inv (P := Inv fl True) (Q := fun s i => s.Timely i ∧ s.Unraced i)
    (fun _ i h hq => step_inv h i hq.1 fun _ => hq.2) is (create r) (inv_create r)
    (htimely.and hunraced)

/-! ## What is sent -/

/-- The requests of the accepted calls have been sent, the last one perhaps not yet. -/
def Sends (s : SyncClient ρ π) : Prop :=
  match s.pc with
  | .rxPdu addr t | .sendPacket addr t =>
    ∃ before, s.started = before ++ [(addr, t)] ∧ s.sent = before.map request
  | _ => s.sent = s.started.map request

theorem Sends.congr {s' : SyncClient ρ π} (h : Sends s) (hpc : s'.pc = s.pc)
    (hstarted : s'.started = s.started) (hsent : s'.sent = s.sent) : Sends s' := by
  unfold Sends
  rw [hpc, hstarted, hsent]
  exact h

theorem Sends.caller (h : Sends s) : Sends (s.caller fl) := by
  unfold Sends at h
  unfold SyncClient.caller
  cases hpc : s.pc with
  | ready =>
    rw [hpc] at h
    unfold Sends
    rw [hpc]
    exact h
  | currTransaction addr t =>
    rw [hpc] at h
    exact ⟨s.started, rfl, h⟩
  | sendPacket addr t =>
    rw [hpc] at h
    obtain ⟨before, hstarted, hsent⟩ := h
    show s.sent ++ [(addr, t.reqPdu)] = s.started.map request
    rw [hstarted, hsent, List.map_append]
    rfl
  | wait | hold =>
    rw [hpc] at h
    dsimp only
    split_ifs
    · unfold Sends
      rw [hpc]
      exact h
    · exact h
  | _ =>
    rw [hpc] at h
    exact h

theorem Sends.step (h : Sends s) (i : SyncInput π) : Sends (s.step fl i).1 := by
  cases i with
  | call addr t =>
    change Sends (s.call addr t)
    unfold SyncClient.call
    cases hpc : s.pc with
    | ready =>
      have hsent : s.sent = s.started.map request := by
        unfold Sends at h
        rwa [hpc] at h
      dsimp only
      split_ifs <;> exact hsent
    | _ => exact h
  | caller => exact h.caller
  | loop =>
    change Sends (s.loop fl)
    unfold SyncClient.loop
    cases s.todo with
    | nil => exact h
    | cons a rest => cases a <;> exact h.congr rfl rfl rfl
  | recvPacket | error | timer =>
    unfold SyncClient.step
    dsimp only
    split_ifs
    · exact h.congr rfl rfl rfl
    · exact h

theorem run_sends (is : List (SyncInput π)) (r : ρ) :
    Sends (run (SyncClient.step fl) (create r) is).1 :=
  run_inv (Q := fun _ _ => True) (fun _ i h _ => h.step i) is (create r) rfl
    (along_of_forall fun _ _ => trivial)

theorem Sends.told (h : Sends s) :
    s.sent <+: s.started.map request ∧ (s.pc = .ready → s.sent = s.started.map request) := by
  unfold Sends at h
  split at h
  · rename_i addr t hpc
    obtain ⟨before, hstarted, hsent⟩ := h
    rw [hstarted, hsent, List.map_append]
    exact ⟨List.prefix_append _ _, fun hready => by simp [hready] at hpc⟩
  · rename_i addr t hpc
    obtain ⟨before, hstarted, hsent⟩ := h
    rw [hstarted, hsent, List.map_append]
    exact ⟨List.prefix_append _ _, fun hready => by simp [hready] at hpc⟩
  · rw [h]
    exact ⟨List.prefix_rfl, fun _ => rfl⟩

/-! ## Calls that return -/

/-- The transactions of the calls are the same, and have ended like this. -/
structure SameCalls (s s' : SyncClient ρ π) : Prop where
  started : s'.started = s.started
  ended : s'.ended = s.ended

theorem loop_same (s : SyncClient ρ π) :
    SameCalls s (s.loop fl) ∧ (s.loop fl).todo = s.todo.drop 1 ∧ (s.loop fl).pc = s.pc
      ∧ (s.loop fl).returned = s.returned := by
  unfold SyncClient.loop
  cases htodo : s.todo with
  | nil => exact ⟨⟨rfl, rfl⟩, htodo, rfl, rfl⟩
  | cons a rest => cases a <;> exact ⟨⟨rfl, rfl⟩, rfl, rfl, rfl⟩

theorem loop_cli (s : SyncClient ρ π) : (s.loop fl).cli = s.cli := by
  unfold SyncClient.loop
  cases s.todo with
  | nil => rfl
  | cons a rest => cases a <;> rfl

theorem run_loops (n : ℕ) (h : Inv fl clean s) :
    let s' := (run (step fl) s (List.replicate n .loop)).1
    Inv fl clean s' ∧ SameCalls s s' ∧ s'.todo = s.todo.drop n ∧ s'.pc = s.pc
      ∧ s'.returned = s.returned := by
  induction n generalizing s with
  | zero => exact ⟨h, ⟨rfl, rfl⟩, rfl, rfl, rfl⟩
  | succ n ih =>
    obtain ⟨hsame, htodo, hpc, hreturned⟩ := @loop_same _ _ fl s
    obtain ⟨hinv, hsame', htodo', hpc', hreturned'⟩ := ih h.loop
    refine ⟨hinv, ⟨hsame'.started.trans hsame.started, hsame'.ended.trans hsame.ended⟩, ?_,
      hpc'.trans hpc, hreturned'.trans hreturned⟩
    rw [htodo, List.drop_drop, Nat.add_comm] at htodo'
    exact htodo'

/-- A call whose transaction has ended. -/
theorem caller_goes (h : Inv fl clean s) (htodo : s.todo = [])
    (hover : s.ended.length = s.started.length) (hidle : s.pc.idle = true → s.pc = .ready) :
    SameCalls s (s.caller fl) ∧ (s.caller fl).todo = [] ∧ (s.caller fl).pc.togo = s.pc.togo - 1
      ∧ ((s.caller fl).pc.idle = true → (s.caller fl).pc = .ready) := by
  by_cases hearly : s.pc.early = true
  · have hon : GoesOn fl s (s.caller fl) := caller_goesOn hearly
    refine ⟨⟨by rw [hon.kept], by rw [hon.kept]⟩, by rw [hon.kept]; exact htodo, hon.togo, ?_⟩
    simp [SyncPc.not_idle_of_sleeps hon.sleeps]
  unfold SyncClient.caller
  cases h.phase with
  | idle hpc =>
    have hready := hidle hpc
    rw [hready]
    exact ⟨⟨rfl, rfl⟩, htodo, by rw [hready]; rfl, fun _ => hready⟩
  | pending req addr before _ _ _ _ _ _ hstarted horder =>
    have hlen := congrArg List.length horder
    rw [List.length_map, List.length_map] at hlen
    rw [hstarted, List.length_append, List.length_singleton] at hover
    omega
  | ending v pre post _ _ _ _ hsplit =>
    rw [htodo] at hsplit
    simp at hsplit
  | woken v _ hpc _ hlocked =>
    rw [(SyncPc.sleeps_cases hpc).resolve_left hearly]
    dsimp only
    rw [if_neg (by simp [hlocked])]
    exact ⟨⟨rfl, rfl⟩, htodo, rfl, fun h => by cases h⟩
  | awake v _ hpc _ _ hin =>
    rcases hpc with hpc | hpc
    · rw [hpc]
      dsimp only
      rw [if_neg (by simp [hin])]
      exact ⟨⟨rfl, rfl⟩, htodo, rfl, fun h => by cases h⟩
    · rw [hpc]
      exact ⟨⟨rfl, rfl⟩, htodo, rfl, fun _ => rfl⟩

theorem run_callers (n : ℕ) (h : Inv fl clean s) (htodo : s.todo = [])
    (hover : s.ended.length = s.started.length) (hidle : s.pc.idle = true → s.pc = .ready) :
    let s' := (run (step fl) s (List.replicate n .caller)).1
    Inv fl clean s' ∧ SameCalls s s' ∧ s'.pc.togo = s.pc.togo - n := by
  induction n generalizing s with
  | zero => exact ⟨h, ⟨rfl, rfl⟩, rfl⟩
  | succ n ih =>
    obtain ⟨hsame, htodo', hgoes, hidle'⟩ := caller_goes h htodo hover hidle
    have hover' : (s.caller fl).ended.length = (s.caller fl).started.length := by
      rw [hsame.ended, hsame.started]
      exact hover
    obtain ⟨hinv, hsame', hgoes'⟩ := ih h.caller htodo' hover' hidle'
    refine ⟨hinv, ⟨hsame'.started.trans hsame.started, hsame'.ended.trans hsame.ended⟩, ?_⟩
    rw [hgoes, Nat.sub_sub, Nat.add_comm] at hgoes'
    exact hgoes'

/-- A call that has not been accepted yet has not returned. -/
theorem callers_asking (h : Inv fl clean s) (hidle : s.pc.idle = true)
    (hready : s.pc ≠ .ready) :
    (run (step fl) s (List.replicate 6 .caller)).1.returned = s.returned := by
  cases h.phase with
  | idle _ _ _ hlocked =>
    cases hpc : s.pc with
    | ready => exact absurd hpc hready
    | currAddr addr t => simp [step, SyncClient.caller, hpc, hlocked, List.replicate]
    | currTransaction addr t => simp [step, SyncClient.caller, hpc, hlocked, List.replicate]
    | _ => simp [hpc, SyncPc.idle] at hidle
  | pending _ _ _ hpc => simp [SyncPc.not_idle_of_sleeps hpc] at hidle
  | ending _ _ _ _ hpc => simp [SyncPc.not_idle_of_sleeps hpc] at hidle
  | woken _ _ hpc => simp [SyncPc.not_idle_of_sleeps hpc] at hidle
  | awake _ _ hpc => rcases hpc with hpc | hpc <;> simp [hpc, SyncPc.idle] at hidle

theorem togo_le {pc : SyncPc π} (h : pc.idle = true → pc = .ready) : pc.togo ≤ 6 := by
  cases pc <;> simp_all [SyncPc.togo, SyncPc.idle]

/-- An idle client has returned from all its calls. -/
theorem Inv.returned_idle (h : Inv fl clean s) (hidle : s.pc.idle = true) :
    s.returned.length = s.started.length := by
  cases h.phase with
  | idle _ _ _ _ _ _ _ horder hreturned =>
    have hlen := congrArg List.length horder
    rw [List.length_map, List.length_map] at hlen
    rw [hreturned, List.length_map, hlen]
  | pending _ _ _ hpc => simp [SyncPc.not_idle_of_sleeps hpc] at hidle
  | ending _ _ _ _ hpc => simp [SyncPc.not_idle_of_sleeps hpc] at hidle
  | woken _ _ hpc => simp [SyncPc.not_idle_of_sleeps hpc] at hidle
  | awake _ _ hpc => rcases hpc with hpc | hpc <;> simp [hpc, SyncPc.idle] at hidle

theorem Inv.returns (h : Inv fl clean s) (hover : s.ended.length = s.started.length) :
    (run (step fl) s
      (List.replicate s.todo.length .loop ++ List.replicate 6 .caller)).1.returned.length
      = s.started.length := by
  obtain ⟨hinv, hsame, htodo, hpc, hreturned⟩ := run_loops s.todo.length h
  rw [List.drop_length] at htodo
  set s₁ := (run (step fl) s (List.replicate s.todo.length .loop)).1 with hs₁
  rw [run_append, ← hs₁]
  dsimp only
  by_cases hasking : s.pc.idle = true ∧ s.pc ≠ .ready
  · rw [callers_asking hinv (by rw [hpc]; exact hasking.1) (by rw [hpc]; exact hasking.2),
      hreturned]
    exact h.returned_idle hasking.1
  · have hidle : s₁.pc.idle = true → s₁.pc = .ready := by
      rw [hpc]
      exact fun hidle => by_contra fun hne => hasking ⟨hidle, hne⟩
    have hover' : s₁.ended.length = s₁.started.length := by
      rw [hsame.ended, hsame.started]
      exact hover
    obtain ⟨hinv', hsame', htogo⟩ := run_callers 6 hinv htodo hover' hidle
    set s₂ := (run (step fl) s₁ (List.replicate 6 .caller)).1 with hs₂
    have hready : s₂.pc.idle = true := by
      have hle := togo_le hidle
      have hzero : s₂.pc.togo = 0 := by omega
      cases hpc : s₂.pc <;> simp [hpc, SyncPc.togo] at hzero ⊢
      rfl
    have hstarted : s₂.started = s.started := hsame'.started.trans hsame.started
    rw [hinv'.returned_idle hready, hstarted]

theorem Over.counts {v : ℤ} (h : Over fl clean s v) :
    s.returned = (s.ended.take s.returned.length).map (fun e => fl.code e.2.errno)
      ∧ s.ended.length = s.returned.length + 1 ∧ s.started.length = s.ended.length := by
  obtain ⟨before, e, hended, hreturned, -⟩ := h.last
  have hlen : s.returned.length = before.length := by rw [hreturned, List.length_map]
  have horder := congrArg List.length h.inOrder
  rw [List.length_map, List.length_map] at horder
  refine ⟨?_, ?_, horder.symm⟩
  · rw [hlen, hended, List.take_left']
    · exact hreturned
    · rfl
  · rw [hended, hlen, List.length_append, List.length_singleton]

theorem Inv.ownEnds (h : Inv fl clean s) (hsends : Sends s) : OwnEnds fl s := by
  have hover {v : ℤ} (hover : Over fl clean s v) (hpc : s.pc ≠ .ready) : OwnEnds fl s := by
    obtain ⟨hreturned, hended, hstarted⟩ := hover.counts
    refine ⟨?_, hreturned, by omega, hsends.told, fun hready => absurd hready hpc, h.told,
      fun hready => absurd hready hpc, h.returns⟩
    rw [hover.inOrder, List.take_of_length_le]
    rw [List.length_map, hstarted]
  have hsleeps (hpc : s.pc.sleeps = true) : s.pc ≠ .ready := by
    intro hready
    simp [hready, SyncPc.sleeps, SyncPc.early] at hpc
  cases h.phase with
  | idle hpc hcurr hrx hlocked htimer hin hlate horder hreturned =>
    have hlen := congrArg List.length horder
    have hlen' := congrArg List.length hreturned
    rw [List.length_map] at hlen hlen'
    rw [List.length_map] at hlen
    refine ⟨?_, ?_, by omega, hsends.told, fun _ => ⟨by omega, hlocked, htimer⟩, h.told,
      fun _ => hlate, h.returns⟩
    · rw [horder, List.take_of_length_le]
      rw [List.length_map, hlen]
    · rw [List.take_of_length_le (by omega)]
      exact hreturned
  | pending req addr before hpc hcurr hlocked hin htimer hlate hstarted horder hreturned =>
    have hlen := congrArg List.length horder
    have hlen' := congrArg List.length hreturned
    have hlen'' := congrArg List.length hstarted
    rw [List.length_map] at hlen hlen'
    rw [List.length_map] at hlen
    rw [List.length_append, List.length_singleton] at hlen''
    refine ⟨?_, ?_, by omega, hsends.told, fun hready => absurd hready (hsleeps hpc), h.told,
      fun hready => absurd hready (hsleeps hpc), h.returns⟩
    · rw [horder, hstarted, hlen, List.map_append, List.take_left']
      rw [List.length_map]
    · rw [List.take_of_length_le (by omega)]
      exact hreturned
  | ending v pre post hv hpc => exact hover hv (hsleeps hpc)
  | woken v hv hpc => exact hover hv (hsleeps hpc)
  | awake v hv hpc => exact hover hv (by rcases hpc with hpc | hpc <;> rw [hpc] <;> simp)

theorem Inv.accepts (h : Inv fl True s) : Accepts s :=
  ⟨h.refused trivial, fun hready => (h.phase.of_ready hready).2.1 trivial⟩

/-! ## A timer that expires too late -/

/-- The timer has expired in `s₀`, when the transaction had ended, and this is where its call has
got to. -/
inductive Misled (fl : SyncResult ρ) (s₀ s : SyncClient ρ π) : Prop
  | firing (hpc : s.pc = .wait ∧ s₀.pc ≠ .hold ∨ s.pc = .hold) (hin : s.inTimeout = true)
      (htodo : s.todo = [.timedOut, .unlock]
        ∨ s.todo = [.unlock] ∧ fl.read s.result = fl.code (-modbusRespTimeout))
      (hreturned : s.returned = s₀.returned)
  | fired (hpc : s.pc = .wait ∧ s₀.pc ≠ .hold ∨ s.pc = .hold ∨ s.pc = .stop)
      (hin : s.inTimeout = false) (htodo : s.todo = [])
      (hresult : fl.read s.result = fl.code (-modbusRespTimeout))
      (hlocked : s₀.pc = .hold → s.locked = false) (hreturned : s.returned = s₀.returned)
  | returned (hpc : s.pc = .ready) (hin : s.inTimeout = false) (htodo : s.todo = [])
      (hlocked : s₀.pc = .hold → s.locked = false)
      (hreturned : s.returned = s₀.returned ++ [fl.code (-modbusRespTimeout)])

variable {s₀ : SyncClient ρ π}

theorem Misled.caller (h : Misled fl s₀ s) : Misled fl s₀ (s.caller fl) := by
  unfold SyncClient.caller
  cases h with
  | firing hpc hin htodo hreturned =>
    rcases hpc with ⟨hpc, hne⟩ | hpc
    · rw [hpc]
      dsimp only
      split_ifs
      · exact .firing (.inl ⟨hpc, hne⟩) hin htodo hreturned
      · exact .firing (.inr rfl) hin htodo hreturned
    · rw [hpc]
      dsimp only
      rw [if_pos hin]
      exact .firing (.inr hpc) hin htodo hreturned
  | fired hpc hin htodo hresult hlocked hreturned =>
    rcases hpc with ⟨hpc, hne⟩ | hpc | hpc
    · rw [hpc]
      dsimp only
      split_ifs
      · exact .fired (.inl ⟨hpc, hne⟩) hin htodo hresult hlocked hreturned
      · exact .fired (.inr (.inl rfl)) hin htodo hresult (fun h => absurd h hne) hreturned
    · rw [hpc]
      dsimp only
      rw [if_neg (by simp [hin])]
      exact .fired (.inr (.inr rfl)) hin htodo hresult hlocked hreturned
    · rw [hpc]
      dsimp only
      refine .returned rfl hin htodo hlocked ?_
      dsimp only
      rw [hreturned, hresult]
  | returned hpc hin htodo hlocked hreturned =>
    rw [hpc]
    exact .returned hpc hin htodo hlocked hreturned

theorem Misled.loop (h : Misled fl s₀ s) : Misled fl s₀ (s.loop fl) := by
  unfold SyncClient.loop
  cases h with
  | firing hpc hin htodo hreturned =>
    rcases htodo with htodo | ⟨htodo, hresult⟩
    · rw [htodo]
      refine .firing hpc ?_ (.inr ⟨rfl, fl.read_timedOut _⟩) hreturned
      simp [hin]
    · rw [htodo]
      refine .fired ?_ (by simp) rfl hresult (fun _ => rfl) hreturned
      rcases hpc with hpc | hpc
      · exact .inl hpc
      · exact .inr (.inl hpc)
  | fired hpc hin htodo hresult hlocked hreturned =>
    rw [htodo]
    exact .fired hpc hin htodo hresult hlocked hreturned
  | returned hpc hin htodo hlocked hreturned =>
    rw [htodo]
    exact .returned hpc hin htodo hlocked hreturned

theorem waitTimeout_rxPdu (hcurr : s.cli.currTransaction = none) :
    (s.event .waitTimeout).cli.rxPdu = none := by
  simp [event, clientEvent, embClientWaitTimeout, hcurr]

/-- The transaction has ended when the timer expires. -/
theorem Inv.misled (h : Inv fl clean s) (htodo : s.todo = []) (htimer : s.timer = true)
    (hcurr : s.cli.currTransaction = none) :
    Misled fl s (s.timeoutCb fl) ∧ (s.timeoutCb fl).cli.rxPdu = none
      ∧ (s.pc = .wait ∨ s.pc = .hold) ∧ (s.timeoutCb fl).todo = [.timedOut, .unlock] := by
  have hi (addr : ℤ) (t : EmbClientTransaction π) :
      ClientInput.waitTimeout ≠ .doTransaction addr t := by simp
  obtain ⟨-, -, -, htodo', -⟩ := SyncClient.event_idle hcurr hi
  have hleft : (s.timeoutCb fl).todo = [.timedOut, .unlock] := by
    unfold SyncClient.timeoutCb
    dsimp only
    rw [htodo']
    split_ifs <;> rfl
  have hat : s.pc = .wait ∨ s.pc = .hold := by
    cases h.phase with
    | idle _ _ _ _ hnot =>
      rw [hnot] at htimer
      cases htimer
    | pending req _ _ _ hsome =>
      rw [hcurr] at hsome
      cases hsome
    | ending v pre post _ _ _ _ hsplit =>
      rw [htodo] at hsplit
      simp at hsplit
    | woken v hover hpc hnot =>
      have hearly : s.pc.early ≠ true := fun hearly => by
        rw [hnot hearly] at htimer
        cases htimer
      exact .inl ((SyncPc.sleeps_cases hpc).resolve_left hearly)
    | awake v hover hpc _ _ _ _ hnot =>
      rcases hpc with hpc | hpc
      · exact .inr hpc
      · rw [hnot hpc] at htimer
        cases htimer
  refine ⟨.firing ?_ rfl (.inl hleft) rfl, waitTimeout_rxPdu hcurr, hat, hleft⟩
  rcases hat with hpc | hpc
  · exact .inl ⟨hpc, by rw [hpc]; simp⟩
  · exact .inr hpc

/-- A call that has been misled does nothing more to the client. -/
theorem Misled.caller_cli (h : Misled fl s₀ s) : (s.caller fl).cli = s.cli := by
  have hpc : s.pc = .wait ∨ s.pc = .hold ∨ s.pc = .stop ∨ s.pc = .ready := by
    cases h with
    | firing hpc => rcases hpc with ⟨hpc, -⟩ | hpc <;> simp [hpc]
    | fired hpc => rcases hpc with ⟨hpc, -⟩ | hpc | hpc <;> simp [hpc]
    | returned hpc => simp [hpc]
  unfold SyncClient.caller
  rcases hpc with hpc | hpc | hpc | hpc <;> rw [hpc]
  · dsimp only
    split_ifs <;> rfl
  · dsimp only
    split_ifs <;> rfl

theorem Misled.run (js : List (SyncInput π)) (hjs : ∀ j ∈ js, j = .caller ∨ j = .loop)
    (h : Misled fl s₀ s) :
    let s' := (run (step fl) s js).1
    Misled fl s₀ s' ∧ s'.cli = s.cli := by
  induction js generalizing s with
  | nil => exact ⟨h, rfl⟩
  | cons j js ih =>
    have hjs' : ∀ j ∈ js, j = .caller ∨ j = .loop := fun j hj => hjs j (List.mem_cons_of_mem _ hj)
    rcases hjs j List.mem_cons_self with rfl | rfl
    · obtain ⟨hmisled, hcli⟩ := ih hjs' h.caller
      exact ⟨hmisled, hcli.trans h.caller_cli⟩
    · obtain ⟨hmisled, hcli⟩ := ih hjs' h.loop
      exact ⟨hmisled, hcli.trans (loop_cli s)⟩

theorem misled_returns (hpc : s.pc = .wait ∨ s.pc = .hold) (htodo : s.todo = [.timedOut, .unlock]) :
    (run (step fl) s [.loop, .loop, .caller, .caller, .caller]).1.returned
      = s.returned ++ [fl.code (-modbusRespTimeout)] := by
  rcases hpc with hpc | hpc <;>
    simp [step, SyncClient.loop, SyncClient.caller, htodo, hpc, fl.read_timedOut]

/-- A call that finds the mutex unlocked returns at once. -/
theorem unlocked_call_returns (hpc : s.pc = .ready) (hlocked : s.locked = false)
    (hin : s.inTimeout = false) (hrx : s.cli.rxPdu = none) (addr : ℤ) (t : EmbClientTransaction π) :
    let s' := (run (step fl) s (.call addr t :: List.replicate 8 .caller)).1
    s'.returned.length = s.returned.length + 1 ∧ s'.cli.currTransaction = some t := by
  simp [step, SyncClient.call, SyncClient.caller, hpc, hlocked, hin, hrx, List.replicate]

/-! ## An error that comes too early -/

/-- The transaction has ended before its call has set `rx_pdu` to this, and this is where the call
has got to.  `rx_pdu` stays. -/
inductive Raced (p : Option π) (s : SyncClient ρ π) : Prop
  | before (addr : ℤ) (t : EmbClientTransaction π) (hpc : s.pc = .rxPdu addr t)
      (hresp : t.respPdu = p)
  | after (hrx : s.cli.rxPdu = p) (hpc : ∀ addr t, s.pc ≠ .rxPdu addr t)
      (hidle : s.pc.idle = true → s.pc = .ready)

theorem Raced.caller {p : Option π} (h : Raced p s) : Raced p (s.caller fl) := by
  unfold SyncClient.caller
  cases h with
  | before addr t hpc hresp =>
    rw [hpc]
    exact .after hresp (by simp) fun h => by cases h
  | after hrx hnot hidle =>
    cases hpc : s.pc with
    | ready => exact .after hrx hnot hidle
    | currAddr | currTransaction =>
      rw [hpc] at hidle
      cases hidle rfl
    | rxPdu addr t => exact absurd hpc (hnot addr t)
    | sendPacket | start => exact .after hrx (by simp) fun h => by cases h
    | wait | hold =>
      dsimp only
      split_ifs
      · exact .after hrx hnot hidle
      · exact .after hrx (by simp) fun h => by cases h
    | stop => exact .after hrx (by simp) fun _ => rfl

theorem Raced.loop {p : Option π} (h : Raced p s) : Raced p (s.loop fl) := by
  have hpc := (@loop_same _ _ fl s).2.2.1
  cases h with
  | before addr t hat hresp => exact .before addr t (hpc.trans hat) hresp
  | after hrx hnot hidle =>
    refine .after ?_ ?_ ?_
    · rw [loop_cli]
      exact hrx
    · rw [hpc]
      exact hnot
    · rw [hpc]
      exact hidle

theorem Raced.run {p : Option π} (js : List (SyncInput π)) (hjs : ∀ j ∈ js, j = .caller ∨ j = .loop)
    (h : Raced p s) : Raced p (run (step fl) s js).1 := by
  induction js generalizing s with
  | nil => exact h
  | cons j js ih =>
    have hjs' : ∀ j ∈ js, j = .caller ∨ j = .loop := fun j hj => hjs j (List.mem_cons_of_mem _ hj)
    rcases hjs j List.mem_cons_self with rfl | rfl
    · exact ih hjs' h.caller
    · exact ih hjs' h.loop

/-- What is told to the client between the lines that set `curr_transaction` and `rx_pdu` has the
next call refused, whatever the two threads do before. -/
theorem early_error_refuses (fl : SyncResult ρ) (s : SyncClient ρ π) (js : List (SyncInput π))
    {addr : ℤ} {t : EmbClientTransaction π} (hpc : s.pc = .rxPdu addr t) (hresp : t.respPdu ≠ none)
    (errno : ℤ) (hjs : ∀ j ∈ js, j = .caller ∨ j = .loop) :
    let s' := (run (step fl) (s.step fl (.error errno)).1 js).1
    s'.pc = .ready → ∀ addr' t', s'.call addr' t' = { s' with refused := s'.refused + 1 } := by
  intro s' hready addr' t'
  have hpc' : (s.step fl (.error errno)).1.pc = .rxPdu addr t := by
    unfold step
    dsimp only
    split_ifs <;> exact hpc
  have hraced : Raced t.respPdu s' := Raced.run js hjs (.before addr t hpc' rfl)
  cases hraced with
  | before addr t hat => simp [hready] at hat
  | after hrx =>
    unfold SyncClient.call
    rw [hready]
    dsimp only
    rw [if_pos (by rw [hrx]; exact Option.isSome_iff_ne_none.2 hresp)]

end SyncClient

open SyncClient in
/-- As long as the timer does not expire once its transaction has ended, every call of a synchronous
client that is accepted returns the end of its own transaction, whatever the two threads do in
between; none returns early, and none is left asleep.  None is refused as long as nothing is told to
the client between the lines that set `curr_transaction` and `rx_pdu`. -/
theorem sync_calls_return_own_ends (fl : SyncResult ρ) (r : ρ) (is : List (SyncInput π)) :
    let s := (run (step fl) (create r) is).1
    Along (step fl) Timely (create r) is →
      OwnEnds fl s ∧ (Along (step fl) Unraced (create r) is → Accepts s) := by
  intro s htimely
  exact ⟨(run_timely htimely).ownEnds (run_sends is r),
    fun hunraced => (run_unraced htimely hunraced).accepts⟩

namespace SyncClient

/-- A request of function 3 with one byte, and its answer. -/
def oneByte : EmbPdu := ⟨3, 1, 253, fun _ => 7⟩

def transact : EmbClientTransaction Unit := ⟨oneByte, some (), some ⟨true, true⟩⟩

/-- A call that is answered before it sleeps. -/
def answeredEarly : List (SyncInput Unit) :=
  [.call 1 transact, .caller, .caller, .caller, .caller, .recvPacket 1 oneByte, .caller, .loop,
    .caller, .loop, .loop, .caller, .caller, .caller]

/-- A call that is not answered. -/
def unanswered : List (SyncInput Unit) :=
  [.call 1 transact, .caller, .caller, .caller, .caller, .caller, .timer, .caller, .loop, .loop,
    .loop, .caller, .caller, .caller]

end SyncClient

open SyncClient in
theorem sync_calls_return_own_ends_two :
    OwnEnds transactResult (run (step transactResult) (create 0) answeredEarly).1
      ∧ Accepts (run (step transactResult) (create 0) answeredEarly).1
      ∧ OwnEnds timeoutResult (run (step timeoutResult) (create ⟨false, 0⟩) unanswered).1
      ∧ Accepts (run (step timeoutResult) (create ⟨false, 0⟩) unanswered).1 := by
  have htimely : Along (step transactResult) Timely (create 0) answeredEarly :=
    ⟨trivial, trivial, trivial, trivial, trivial, trivial, trivial, trivial, trivial, trivial,
      trivial, trivial, trivial, trivial, trivial⟩
  have hstart (addr : ℤ) (t : EmbClientTransaction Unit) : SyncPc.start ≠ .rxPdu addr t := by simp
  have hunraced : Along (step transactResult) Unraced (create 0) answeredEarly :=
    ⟨trivial, trivial, trivial, trivial, trivial, fun _ => hstart, trivial, trivial, trivial,
      trivial, trivial, trivial, trivial, trivial, trivial⟩
  have htimely' : Along (step timeoutResult) Timely (create ⟨false, 0⟩) unanswered :=
    ⟨trivial, trivial, trivial, trivial, trivial, trivial, fun _ _ => Option.some_ne_none _,
      trivial, trivial, trivial, trivial, trivial, trivial, trivial, trivial⟩
  have hunraced' : Along (step timeoutResult) Unraced (create ⟨false, 0⟩) unanswered :=
    ⟨trivial, trivial, trivial, trivial, trivial, trivial, trivial, trivial, trivial, trivial,
      trivial, trivial, trivial, trivial, trivial⟩
  obtain ⟨hends, haccepts⟩ := sync_calls_return_own_ends transactResult 0 _ htimely
  obtain ⟨hends', haccepts'⟩ := sync_calls_return_own_ends timeoutResult ⟨false, 0⟩ _ htimely'
  exact ⟨hends, haccepts hunraced, hends', haccepts' hunraced'⟩

open SyncClient in
example : (run (step timeoutResult) (create ⟨false, 0⟩) (answeredEarly ++ unanswered)).1.returned
    = [0, -modbusRespTimeout] := by decide

open SyncClient in
/-- If the timer expires when the transaction has ended and `event_del` has not been called, the
call returns a timeout, whatever the end was; and if it had the mutex already, the next call does
not wait for its transaction. -/
theorem late_timer_misleads (fl : SyncResult ρ) (r : ρ) (is js : List (SyncInput π)) :
    let s := (run (step fl) (create r) is).1
    let s₁ := (s.step fl .timer).1
    let s' := (run (step fl) s₁ js).1
    Along (step fl) Timely (create r) is → s.todo = [] → s.timer = true →
      s.cli.currTransaction = none → (∀ j ∈ js, j = .caller ∨ j = .loop) →
      (s'.returned = s.returned ∨ s'.returned = s.returned ++ [fl.code (-modbusRespTimeout)])
        ∧ (run (step fl) s₁ [.loop, .loop, .caller, .caller, .caller]).1.returned
          = s.returned ++ [fl.code (-modbusRespTimeout)]
        ∧ (s.pc = .hold → s'.pc = .ready → ∀ addr t,
          let s'' := (run (step fl) s' (.call addr t :: List.replicate 8 .caller)).1
          s''.returned.length = s'.returned.length + 1 ∧ s''.cli.currTransaction = some t) := by
  intro s s₁ s' htimely htodo htimer hcurr hjs
  have hinv := run_timely htimely
  obtain ⟨hmisled, hrx, hpc, htodo'⟩ := hinv.misled htodo htimer hcurr
  have hs₁ : s₁ = s.timeoutCb fl := if_pos ⟨htodo, htimer⟩
  rw [← hs₁] at hmisled hrx htodo'
  obtain ⟨hmisled', hcli⟩ := hmisled.run js hjs
  refine ⟨?_, ?_, fun hhold hready addr t => ?_⟩
  · cases hmisled' with
    | firing _ _ _ hreturned => exact .inl hreturned
    | fired _ _ _ _ _ hreturned => exact .inl hreturned
    | returned _ _ _ _ hreturned => exact .inr hreturned
  · have hpc' : s₁.pc = .wait ∨ s₁.pc = .hold := by
      rw [hs₁]
      exact hpc
    have hreturned : s₁.returned = s.returned := by
      rw [hs₁]
      rfl
    rw [misled_returns hpc' htodo', hreturned]
  · have hrx' : s'.cli.rxPdu = none := by
      rw [hcli]
      exact hrx
    cases hmisled' with
    | firing hpc =>
      rcases hpc with ⟨hpc, -⟩ | hpc <;> rw [hready] at hpc <;> cases hpc
    | fired hpc =>
      rcases hpc with ⟨hpc, -⟩ | hpc | hpc <;> rw [hready] at hpc <;> cases hpc
    | returned _ hin _ hlocked =>
      exact unlocked_call_returns hready (hlocked hhold) hin hrx' addr t

/-- The answer is there, and the caller holds the mutex. -/
def SyncClient.answered : List (SyncInput Unit) :=
  [.call 1 transact, .caller, .caller, .caller, .caller, .caller, .recvPacket 1 oneByte, .loop,
    .loop, .loop, .caller]

open SyncClient in
theorem late_timer_misleads_answered :
    let s := (run (step transactResult) (create 0) answered).1
    s.ended.map (fun e => e.2.errno) = [0]
      ∧ (run (step transactResult) (s.step transactResult .timer).1
          [.loop, .loop, .caller, .caller, .caller]).1.returned = [-modbusRespTimeout] := by
  refine ⟨by decide, ?_⟩
  have htimely : Along (step transactResult) Timely (create 0) answered := by
    simp [answered, Along, Timely]
  exact (late_timer_misleads transactResult 0 answered [] htimely (by decide) (by decide)
    (by decide) (by simp)).2.1

end Emodbus
