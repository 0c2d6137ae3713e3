import Mathlib.Data.List.Chain
import Emodbus.TcpConnection

/-!
# A connection and its timer

Told that the connection is gone, a user can lose it no more, so notifications nest no deeper than
two (`tell_eq`).  A use of the port then either keeps the connection or loses it and starts the
timer (`uses_up`).  If the user loses it while he is told that it is there, `do_connect` still
succeeds and its caller takes the timer away again: nothing will connect any more
(`Rests.gives_up`).
-/

namespace Emodbus

open Mealy

namespace TcpConnection

variable {user : User} {rearms : Bool} {s s' : TcpConnection}

/-! ## Notifications -/

theorem use_closed (notify : TcpConnection → TcpClientNotice → TcpConnection)
    (hflag : s.openedFlag = false) (u : PortUse) : s.use notify u = s := by
  unfold use
  rw [hflag]
  rfl

theorem uses_closed (notify : TcpConnection → TcpClientNotice → TcpConnection)
    (hflag : s.openedFlag = false) (us : List PortUse) : us.foldl (use notify) s = s := by
  induction us with
  | nil => rfl
  | cons u us ih =>
    rw [List.foldl_cons, use_closed notify hflag]
    exact ih

theorem notify_disconnected (user : User) (depth : ℕ) (s : TcpConnection) :
    notify user depth s .disconnected = s.noted .disconnected := by
  cases depth with
  | zero => rfl
  | succ depth => exact uses_closed _ rfl _

/-- The connection is gone, and the user knows. -/
def unconnected (s : TcpConnection) : TcpConnection :=
  if s.state ≠ .disconnected then { s.drop with state := .disconnected }.noted .disconnected
  else s.drop

theorem doUnconnect_eq (user : User) (depth : ℕ) (s : TcpConnection) :
    s.doUnconnect (notify user depth) = s.unconnected := by
  unfold doUnconnect unconnected
  dsimp only
  rw [notify_disconnected]
  rfl

theorem use_depth (user : User) (depth depth' : ℕ) :
    use (notify user depth) = use (notify user depth') := by
  funext s u
  unfold use
  rw [doUnconnect_eq, doUnconnect_eq]

/-- What the user does when he is told is what he does at any other time. -/
theorem tell_eq (user : User) (s : TcpConnection) (e : TcpClientNotice) :
    tell user s e = (user (s.notified ++ [e])).foldl (use (tell user)) (s.noted e) := by
  unfold tell
  rw [use_depth user 2 1]
  rfl

theorem tell_closed (hflag : s.openedFlag = false) {e : TcpClientNotice} (he : e ≠ .connected) :
    tell user s e = s.noted e := by
  rw [tell_eq]
  refine uses_closed _ ?_ _
  unfold noted
  cases e <;> first | exact hflag | rfl | exact absurd rfl he

/-! ## Uses of the port -/

/-- The client is connected. -/
structure Up (s : TcpConnection) : Prop where
  state : s.state = .connected
  read : s.sockEventRead = some true
  write : s.sockEventWrite.isSome = true
  openedFlag : s.openedFlag = true
  sockets : s.sockets = [s.sockFd]
  positive : 0 < s.sockFd

/-- It is not. -/
structure Down (s : TcpConnection) : Prop where
  state : s.state ≠ .connected
  read : s.sockEventRead = none
  write : s.sockEventWrite = none
  openedFlag : s.openedFlag = false
  sockets : s.sockets = []

/-- The connection has been kept. -/
structure Stays (s s' : TcpConnection) : Prop extends Up s' where
  timer : s'.timer = s.timer
  delay : s'.reconnectTimeout = s.reconnectTimeout
  reassigned : s'.reassigned = s.reassigned
  notified : s'.notified = s.notified
  strayed : s'.strayed = s.strayed

/-- The connection has been lost, and the timer is to try again. -/
structure Lost (s s' : TcpConnection) : Prop extends Down s' where
  disconnected : s'.state = .disconnected
  timer : s'.timer = some s.reconnectTimeout
  reassigned : s'.reassigned = (s.reassigned || s.timer.isSome)
  notified : s'.notified = s.notified ++ [.disconnected]
  strayed : s'.strayed = s.strayed

theorem Up.stays (h : Up s) : Stays s s := ⟨h, rfl, rfl, rfl, rfl, rfl⟩

/-- Its own socket is closed. -/
theorem Up.drop_sockets (h : Up s) : s.drop.sockets = [] ∧ s.drop.strayed = s.strayed := by
  unfold drop
  simp [h.sockets, h.positive]

theorem Up.lost (h : Up s) : Lost s s.unconnected.startReconnectTimer := by
  obtain ⟨hsockets, hstrayed⟩ := h.drop_sockets
  unfold unconnected
  rw [if_pos (by rw [h.state]; simp)]
  exact ⟨⟨by simp [startReconnectTimer, noted], rfl, rfl, rfl, hsockets⟩, rfl, rfl, rfl, rfl,
    hstrayed⟩

variable (user) in
theorem use_up (h : Up s) (u : PortUse) :
    ¬ u.Loses ∧ Stays s (s.use (tell user) u) ∨ u.Loses ∧ Lost s (s.use (tell user) u) := by
  unfold use tell
  rw [doUnconnect_eq]
  simp only [h.openedFlag, Bool.not_true, Bool.false_eq_true, if_false]
  cases u with
  | read recv =>
    dsimp only [PortUse.Loses]
    split_ifs with hrecv
    · exact .inr ⟨hrecv, h.lost⟩
    · exact .inl ⟨hrecv, h.stays⟩
  | write size send added =>
    dsimp only [PortUse.Loses]
    split_ifs with hsize hsend hpart
    · exact .inl ⟨fun hloses => hloses.1 hsize, h.stays⟩
    · exact .inr ⟨⟨hsize, hsend⟩, h.lost⟩
    · obtain ⟨hstate, hread, -, -, hsockets, hpositive⟩ := h
      exact .inl ⟨fun hloses => hsend hloses.2, ⟨hstate, hread, rfl, rfl, hsockets, hpositive⟩,
        rfl, rfl, rfl, rfl, rfl⟩
    · exact .inl ⟨fun hloses => hsend hloses.2, h.stays⟩

theorem Stays.trans {s'' : TcpConnection} (h : Stays s s') (h' : Stays s' s'') : Stays s s'' :=
  ⟨h'.toUp, h'.timer.trans h.timer, h'.delay.trans h.delay, h'.reassigned.trans h.reassigned,
    h'.notified.trans h.notified, h'.strayed.trans h.strayed⟩

theorem Stays.trans_lost {s'' : TcpConnection} (h : Stays s s') (h' : Lost s' s'') :
    Lost s s'' := by
  obtain ⟨hdown, hdisc, htimer, hre, hnotified, hstrayed⟩ := h'
  refine ⟨hdown, hdisc, ?_, ?_, ?_, hstrayed.trans h.strayed⟩
  · rw [htimer, h.delay]
  · rw [hre, h.reassigned, h.timer]
  · rw [hnotified, h.notified]

variable (user) in
/-- The uses of the port keep the connection, or one of them loses it. -/
theorem uses_up (us : List PortUse) (h : Up s) :
    let s' := us.foldl (use (tell user)) s
    (∀ u ∈ us, ¬ u.Loses) ∧ Stays s s' ∨ (∃ u ∈ us, u.Loses) ∧ Lost s s' := by
  induction us generalizing s with
  | nil => exact .inl ⟨by simp, h.stays⟩
  | cons u us ih =>
    rw [List.foldl_cons]
    rcases use_up user h u with ⟨hkeeps, hstays⟩ | ⟨hloses, hlost⟩
    · rcases ih hstays.toUp with ⟨hall, hrest⟩ | ⟨⟨v, hv, hloses⟩, hrest⟩
      · exact .inl ⟨List.forall_mem_cons.2 ⟨hkeeps, hall⟩, hstays.trans hrest⟩
      · exact .inr ⟨⟨v, List.mem_cons_of_mem _ hv, hloses⟩, hstays.trans_lost hrest⟩
    · refine .inr ⟨⟨u, List.mem_cons_self, hloses⟩, ?_⟩
      rw [uses_closed _ hlost.openedFlag]
      exact hlost

/-! ## Steps -/

theorem links_append (es fs : List TcpClientNotice) : links (es ++ fs) = links es ++ links fs := by
  induction es with
  | nil => rfl
  | cons e es ih => cases e <;> simp [links, ih]

/-- The user is told of connections and disconnections in turn, and this was the last of them. -/
structure InTurn (notified : List TcpClientNotice) (b : Bool) : Prop where
  chain : (false :: links notified).IsChain (· ≠ ·)
  last : (false :: links notified).getLast? = some b

theorem InTurn.append {notified : List TcpClientNotice} {b : Bool} (h : InTurn notified b)
    {e : TcpClientNotice} (he : links [e] = [!b]) : InTurn (notified ++ [e]) (!b) := by
  refine ⟨?_, ?_⟩ <;> rw [links_append, he, ← List.cons_append]
  · refine h.chain.append (List.isChain_singleton _) fun x hx y hy => ?_
    rw [h.last, Option.mem_some_iff] at hx
    rw [List.head?_cons, Option.mem_some_iff] at hy
    rw [← hx, ← hy]
    cases b <;> simp
  · rw [List.getLast?_append, List.getLast?_singleton]
    rfl

theorem InTurn.append_other {notified : List TcpClientNotice} {b : Bool} (h : InTurn notified b)
    {e : TcpClientNotice} (he : links [e] = []) : InTurn (notified ++ [e]) b := by
  refine ⟨?_, ?_⟩ <;> rw [links_append, he, List.append_nil]
  · exact h.chain
  · exact h.last

/-- What holds between the events. -/
inductive Rests (s : TcpConnection) : Prop
  | up (h : Up s) (htimer : s.timer = none) (hturn : InTurn s.notified true)
  | down (h : Down s) (hdisc : s.state = .disconnected) (hturn : InTurn s.notified false)
  | idle (h : Down s) (hdefault : s.state = .default) (htimer : s.timer = none)
      (hturn : InTurn s.notified false)

theorem rests_new (delay : ℕ) : Rests (new delay) :=
  .idle ⟨by simp [new], rfl, rfl, rfl, rfl⟩ rfl rfl ⟨List.isChain_singleton _, rfl⟩

theorem Rests.open_or_closed (h : Rests s) : Up s ∧ s.timer = none ∨ s.openedFlag = false := by
  cases h with
  | up hup htimer => exact .inl ⟨hup, htimer⟩
  | down hd => exact .inr hd.openedFlag
  | idle hd => exact .inr hd.openedFlag

/-- The timer is pending only between two tries. -/
theorem Rests.pending (h : Rests s) (htimer : s.timer.isSome = true) :
    Down s ∧ s.state = .disconnected ∧ InTurn s.notified false := by
  cases h with
  | up _ hnone =>
    rw [hnone] at htimer
    cases htimer
  | down hd hdisc hturn => exact ⟨hd, hdisc, hturn⟩
  | idle _ _ hnone =>
    rw [hnone] at htimer
    cases htimer

theorem Up.noted {e : TcpClientNotice} (h : Up s) (he : e ≠ .disconnected) : Up (s.noted e) := by
  obtain ⟨hstate, hread, hwrite, hflag, hsockets, hpositive⟩ := h
  refine ⟨hstate, hread, hwrite, ?_, hsockets, hpositive⟩
  unfold TcpConnection.noted
  cases e <;> first | exact hflag | rfl | exact absurd rfl he

/-- Uses of the port while the timer is not pending. -/
theorem Rests.uses (hup : Up s) (htimer : s.timer = none) (hturn : InTurn s.notified true)
    (us : List PortUse) : Rests (us.foldl (use (tell user)) s) := by
  rcases uses_up user us hup with ⟨-, hstays⟩ | ⟨-, hlost⟩
  · refine .up hstays.toUp (hstays.timer.trans htimer) ?_
    rw [hstays.notified]
    exact hturn
  · refine .down hlost.toDown hlost.disconnected ?_
    rw [hlost.notified]
    exact hturn.append rfl

theorem Rests.tell_data (h : Rests s)
    (hread : s.sockEventRead = some true ∨ s.sockEventWrite.isSome = true)
    {e : TcpClientNotice} (he : e = .dataReceived ∨ e = .dataSent) : Rests (tell user s e) := by
  have hne : e ≠ .disconnected := by rcases he with rfl | rfl <;> simp
  have hlinks : links [e] = [] := by rcases he with rfl | rfl <;> rfl
  have hdown (hdown : Down s) :
      ¬ (s.sockEventRead = some true ∨ s.sockEventWrite.isSome = true) := by
    rw [hdown.read, hdown.write]
    simp
  rw [tell_eq]
  cases h with
  | up hup htimer hturn => exact .uses (hup.noted hne) htimer (hturn.append_other hlinks) _
  | down hd => exact absurd hread (hdown hd)
  | idle hd => exact absurd hread (hdown hd)

variable (user) in
/-- A try that does not connect leaves the client as it was, with nothing open. -/
theorem Down.fails (h : Down s) (hdisc : s.state = .disconnected) {attempt : ConnectTry}
    (hfits : s.Fits (.timeout attempt)) (hfails : ∀ sockFd, attempt ≠ .connects sockFd) :
    let r := s.doConnect user attempt
    r.2 = -1 ∧ Down r.1 ∧ r.1.state = .disconnected ∧ r.1.timer = s.timer
      ∧ r.1.reassigned = s.reassigned ∧ r.1.timerCallback = s.timerCallback
      ∧ r.1.reconnectTimeout = s.reconnectTimeout ∧ r.1.strayed = s.strayed
      ∧ links r.1.notified = links s.notified := by
  obtain ⟨hstate, hread, hwrite, hflag, hsockets⟩ := h
  cases attempt with
  | noSocket =>
    exact ⟨rfl, ⟨hstate, hread, hwrite, hflag, hsockets⟩, hdisc, rfl, rfl, rfl, rfl, rfl, rfl⟩
  | connects sockFd => exact absurd rfl (hfails sockFd)
  | fails sockFd =>
    obtain ⟨hpositive, -⟩ := hfits
    unfold doConnect
    dsimp only
    set s₁ : TcpConnection :=
      { s with sockFd := sockFd, sockets := s.sockets ++ [sockFd] } with hs₁
    have hdrop : s₁.doUnconnect (tell user) = s₁.drop := by
      rw [tell, doUnconnect_eq, unconnected, if_neg (not_not.2 hdisc)]
    have hclosed : s₁.drop.sockets = [] ∧ s₁.drop.strayed = s.strayed := by
      simp [drop, hs₁, hsockets, hpositive]
    rw [hdrop, tell_closed (show s₁.drop.openedFlag = false from hflag) (by simp)]
    refine ⟨rfl, ⟨?_, rfl, rfl, hflag, hclosed.1⟩, hdisc, rfl, rfl, rfl, rfl, hclosed.2, ?_⟩
    · change s.state ≠ _
      rw [hdisc]
      simp
    · change links (s.notified ++ [.badTryOfReconnection]) = links s.notified
      rw [links_append]
      exact List.append_nil _

variable (user) in
/-- A try that connects. -/
theorem Down.connects (h : Down s) {sockFd : ℤ} (hpositive : 0 < sockFd) :
    ∃ s₁, s.doConnect user (.connects sockFd)
        = ((user (s.notified ++ [.connected])).foldl (use (tell user)) s₁, 0)
      ∧ Up s₁ ∧ s₁.timer = s.timer ∧ s₁.reassigned = s.reassigned
      ∧ s₁.notified = s.notified ++ [.connected] ∧ s₁.strayed = s.strayed := by
  obtain ⟨hstate, hread, hwrite, hflag, hsockets⟩ := h
  unfold doConnect
  dsimp only
  rw [if_pos hstate, tell_eq]
  refine ⟨_, rfl, ⟨rfl, rfl, rfl, rfl, ?_, hpositive⟩, rfl, rfl, rfl, rfl⟩
  change s.sockets ++ [sockFd] = [sockFd]
  rw [hsockets]
  rfl

theorem Down.expired (h : Down s) (rearms : Bool) : Down (s.expired rearms) :=
  ⟨h.state, h.read, h.write, h.openedFlag, h.sockets⟩

variable (user rearms) in
/-- The timer is taken away once there is a connection, whatever the user has done meanwhile. -/
theorem timeout_connects (h : Down s) {sockFd : ℤ} (hpositive : 0 < sockFd) :
    ∃ s₁, s.timeout user rearms (.connects sockFd)
        = { (user (s.notified ++ [.connected])).foldl (use (tell user)) s₁ with timer := none }
      ∧ Up s₁ ∧ s₁.timer = (s.expired rearms).timer ∧ s₁.reassigned = s.reassigned
      ∧ s₁.notified = s.notified ++ [.connected] ∧ s₁.strayed = s.strayed := by
  obtain ⟨s₁, heq, hs₁⟩ := (h.expired rearms).connects user hpositive
  refine ⟨s₁, ?_, hs₁⟩
  unfold timeout
  dsimp only
  rw [heq]
  cases s.timerCallback <;> exact if_pos rfl

variable (user rearms) in
/-- The state after a try that does not connect. -/
theorem timeout_fails (h : Down s) (hdisc : s.state = .disconnected) {attempt : ConnectTry}
    (hfits : s.Fits (.timeout attempt)) (hfails : ∀ sockFd, attempt ≠ .connects sockFd) :
    let s' := s.timeout user rearms attempt
    Down s' ∧ s'.state = .disconnected ∧ s'.reassigned = s.reassigned
      ∧ s'.timerCallback = .reconnect
      ∧ s'.timer = (if s.timerCallback = .reconnect then (s.expired rearms).timer
          else some s.reconnectTimeout)
      ∧ s'.strayed = s.strayed ∧ links s'.notified = links s.notified := by
  obtain ⟨hres, hd, hdisc', htimer, hre, hcb', hdelay, hstrayed, hlinks⟩ :=
    (h.expired rearms).fails user hdisc hfits hfails
  unfold timeout
  dsimp only at hres hd hdisc' htimer hre hcb' hdelay hstrayed hlinks ⊢
  cases hcb : s.timerCallback with
  | firstTimeConnect =>
    rw [hres, if_neg (by simp)]
    refine ⟨⟨hd.state, hd.read, hd.write, hd.openedFlag, hd.sockets⟩, hdisc', ?_, rfl, ?_, hstrayed,
      hlinks⟩
    · change (_ || _) = _
      rw [hre, htimer]
      simp [expired, hcb]
    · rw [if_neg (by simp)]
      exact congrArg some hdelay
  | reconnect =>
    rw [hres, if_neg (by simp)]
    exact ⟨hd, hdisc', hre, hcb'.trans hcb, htimer, hstrayed, hlinks⟩

theorem Rests.timeout (h : Rests s) {attempt : ConnectTry} (hfits : s.Fits (.timeout attempt))
    (htimer : s.timer.isSome = true) : Rests (s.timeout user rearms attempt) := by
  obtain ⟨hd, hdisc, hturn⟩ := h.pending htimer
  by_cases hfails : ∀ sockFd, attempt ≠ .connects sockFd
  · obtain ⟨hd', hdisc', -, -, -, -, hlinks⟩ := timeout_fails user rearms hd hdisc hfits hfails
    exact .down hd' hdisc' ⟨hlinks ▸ hturn.chain, hlinks ▸ hturn.last⟩
  · push Not at hfails
    obtain ⟨sockFd, rfl⟩ := hfails
    obtain ⟨s₁, heq, hup, -, -, hnotified, -⟩ := timeout_connects user rearms hd hfits.1
    have hturn₁ : InTurn s₁.notified true := by
      rw [hnotified]
      exact hturn.append rfl
    rw [heq]
    rcases uses_up user (user (s.notified ++ [.connected])) hup with ⟨-, hstays⟩ | ⟨-, hlost⟩
    · have hup' := hstays.toUp
      refine .up ⟨hup'.state, hup'.read, hup'.write, hup'.openedFlag, hup'.sockets, hup'.positive⟩
        rfl ?_
      dsimp only
      rw [hstays.notified]
      exact hturn₁
    · have hd' := hlost.toDown
      refine .down ⟨hd'.state, hd'.read, hd'.write, hd'.openedFlag, hd'.sockets⟩
        hlost.disconnected ?_
      dsimp only
      rw [hlost.notified]
      exact hturn₁.append rfl

theorem Rests.stopConnection (h : Rests s) (hfits : s.state ≠ .default) :
    Rests (s.stopConnection user) := by
  unfold TcpConnection.stopConnection tell
  rw [doUnconnect_eq, unconnected]
  dsimp only
  cases h with
  | up hup htimer hturn =>
    rw [if_pos (by rw [hup.state]; simp)]
    obtain ⟨hsockets, -⟩ := hup.drop_sockets
    exact .idle ⟨by simp, rfl, rfl, rfl, hsockets⟩ rfl rfl (hturn.append rfl)
  | down hd hdisc hturn =>
    rw [if_neg (not_not.2 hdisc)]
    have hsockets : s.drop.sockets = [] := by
      simp [drop, hd.sockets]
    exact .idle ⟨by simp, rfl, rfl, hd.openedFlag, hsockets⟩ rfl rfl hturn
  | idle _ hdefault => exact absurd hdefault hfits

theorem Rests.started (h : Rests s) (hfits : s.state = .default) :
    Down s.startConnection ∧ InTurn s.notified false := by
  cases h with
  | up hup =>
    rw [hup.state] at hfits
    cases hfits
  | down _ hdisc =>
    rw [hdisc] at hfits
    cases hfits
  | idle hd _ _ hturn =>
    exact ⟨⟨by simp [startConnection], hd.read, hd.write, hd.openedFlag, hd.sockets⟩, hturn⟩

theorem step_rests (h : Rests s) (i : Input) (hfits : s.Fits i) :
    Rests (s.step user rearms i).1 := by
  cases i with
  | startConnection =>
    obtain ⟨hd, hturn⟩ := h.started hfits
    exact .down hd rfl hturn
  | stopConnection => exact h.stopConnection hfits
  | setReconnectionDelay sec =>
    cases h with
    | up hup htimer hturn => exact .up ⟨hup.1, hup.2, hup.3, hup.4, hup.5, hup.6⟩ htimer hturn
    | down hd hdisc hturn => exact .down ⟨hd.1, hd.2, hd.3, hd.4, hd.5⟩ hdisc hturn
    | idle hd hdefault htimer hturn =>
      exact .idle ⟨hd.1, hd.2, hd.3, hd.4, hd.5⟩ hdefault htimer hturn
  | timeout attempt =>
    unfold step
    dsimp only
    split_ifs with htimer
    · exact h.timeout hfits htimer
    · exact h
  | readable =>
    unfold step
    dsimp only
    split_ifs with hread
    · exact h.tell_data (.inl hread) (.inl rfl)
    · exact h
  | writable =>
    unfold step
    dsimp only
    split_ifs with hwrite
    · have hrests : Rests { s with sockEventWrite := some false } := by
        cases h with
        | up hup htimer hturn => exact .up ⟨hup.1, hup.2, rfl, hup.4, hup.5, hup.6⟩ htimer hturn
        | down hd => rw [hd.write] at hwrite; cases hwrite
        | idle hd => rw [hd.write] at hwrite; cases hwrite
      exact hrests.tell_data (.inr rfl) (.inr rfl)
    · exact h
  | use u =>
    cases h with
    | up hup htimer hturn => exact Rests.uses hup htimer hturn [u]
    | down hd hdisc hturn =>
      have hsame : (s.step user rearms (.use u)).1 = s := use_closed _ hd.openedFlag u
      rw [hsame]
      exact .down hd hdisc hturn
    | idle hd hdefault htimer hturn =>
      have hsame : (s.step user rearms (.use u)).1 = s := use_closed _ hd.openedFlag u
      rw [hsame]
      exact .idle hd hdefault htimer hturn

theorem Rests.kept (h : Rests s) : Kept s := by
  cases h with
  | up hup htimer hturn =>
    refine ⟨fun _ => ⟨hup.read, hup.write, hup.openedFlag, hup.sockets, hup.positive⟩,
      fun hne => absurd hup.state hne, ?_, hturn.chain, ?_⟩
    · rw [htimer]
      simp
    · rw [hturn.last, hup.state]
      rfl
  | down hd hdisc hturn =>
    refine ⟨fun he => absurd he hd.state,
      fun _ => ⟨hd.read, hd.write, hd.openedFlag, hd.sockets⟩, fun _ => hdisc, hturn.chain, ?_⟩
    rw [hturn.last, hdisc]
    rfl
  | idle hd hdefault htimer hturn =>
    refine ⟨fun he => absurd he hd.state,
      fun _ => ⟨hd.read, hd.write, hd.openedFlag, hd.sockets⟩, ?_, hturn.chain, ?_⟩
    · rw [htimer]
      simp
    · rw [hturn.last, hdefault]
      rfl

/-! ## What a step changes -/

/-- Nothing is closed that is not open, no pending timer is assigned to, and there is as much hope
as before. -/
structure Quiet (s s' : TcpConnection) : Prop where
  strayed : s'.strayed = s.strayed
  reassigned : s'.reassigned = s.reassigned
  givenUp : GivenUp s' ↔ GivenUp s

theorem Up.not_givenUp (h : Up s) : ¬ GivenUp s := by
  intro hup
  have hdisc := hup.1
  rw [h.state] at hdisc
  cases hdisc

theorem Lost.not_givenUp (h : Lost s s') : ¬ GivenUp s' := by
  intro hup
  have hnone := hup.2
  rw [h.timer] at hnone
  cases hnone

theorem uses_quiet (h : Up s ∧ s.timer = none ∨ s.openedFlag = false) (us : List PortUse) :
    Quiet s (us.foldl (use (tell user)) s) := by
  rcases h with ⟨hup, htimer⟩ | hflag
  · have hnot := hup.not_givenUp
    rcases uses_up user us hup with ⟨-, hstays⟩ | ⟨-, hlost⟩
    · exact ⟨hstays.strayed, hstays.reassigned,
        ⟨fun hup' => absurd hup' hstays.toUp.not_givenUp, fun hup' => absurd hup' hnot⟩⟩
    · refine ⟨hlost.strayed, ?_,
        ⟨fun hup' => absurd hup' hlost.not_givenUp, fun hup' => absurd hup' hnot⟩⟩
      rw [hlost.reassigned, htimer]
      simp
  · rw [uses_closed _ hflag]
    exact ⟨rfl, rfl, .rfl⟩

variable (user) in
theorem Rests.tell_quiet (h : Rests s) {e : TcpClientNotice}
    (he : e = .dataReceived ∨ e = .dataSent) : Quiet s (tell user s e) := by
  have hopen : Up (s.noted e) ∧ (s.noted e).timer = none ∨ (s.noted e).openedFlag = false := by
    rcases h.open_or_closed with ⟨hup, htimer⟩ | hflag
    · exact .inl ⟨hup.noted (by rcases he with rfl | rfl <;> simp), htimer⟩
    · rcases he with rfl | rfl <;> exact .inr hflag
  rw [tell_eq]
  obtain ⟨hstrayed, hre, hgiven⟩ := uses_quiet hopen (user (s.notified ++ [e]))
  exact ⟨hstrayed, hre, hgiven⟩

/-- Everything but a stop and a try. -/
theorem Rests.quiet (h : Rests s) {i : Input} (hfits : s.Fits i) (hstop : i ≠ .stopConnection)
    (htry : ∀ attempt, i = .timeout attempt → s.timer = none) :
    Quiet s (s.step user rearms i).1 := by
  have hsame (s₁ : TcpConnection) (hs₁ : s₁ = s) : Quiet s s₁ := by
    rw [hs₁]
    exact ⟨rfl, rfl, .rfl⟩
  cases i with
  | startConnection =>
    have hdefault : s.state = .default := hfits
    refine ⟨rfl, rfl, ⟨fun hup => (nomatch hup.2), fun hup => ?_⟩⟩
    have hdisc := hup.1
    rw [hdefault] at hdisc
    cases hdisc
  | stopConnection => exact absurd rfl hstop
  | setReconnectionDelay sec => exact ⟨rfl, rfl, .rfl⟩
  | timeout attempt => exact hsame _ (if_neg (by simp [htry attempt rfl]))
  | readable =>
    unfold step
    dsimp only
    split_ifs
    · exact h.tell_quiet user (.inl rfl)
    · exact hsame _ rfl
  | writable =>
    unfold step
    dsimp only
    split_ifs with hwrite
    · have hrests : Rests { s with sockEventWrite := some false } := by
        cases h with
        | up hup htimer hturn => exact .up ⟨hup.1, hup.2, rfl, hup.4, hup.5, hup.6⟩ htimer hturn
        | down hd => rw [hd.write] at hwrite; cases hwrite
        | idle hd => rw [hd.write] at hwrite; cases hwrite
      obtain ⟨hstrayed, hre, hgiven⟩ := hrests.tell_quiet user (.inr rfl)
      exact ⟨hstrayed, hre, hgiven⟩
    · exact hsame _ rfl
  | use u => exact uses_quiet h.open_or_closed [u]

theorem stop_eq (s : TcpConnection) :
    (s.stopConnection user).strayed = s.drop.strayed
      ∧ (s.stopConnection user).reassigned = s.reassigned
      ∧ (s.stopConnection user).state = .default := by
  unfold TcpConnection.stopConnection tell
  rw [doUnconnect_eq, unconnected]
  split_ifs <;> exact ⟨rfl, rfl, rfl⟩

/-- A try that is made. -/
structure Tried (user : User) (rearms : Bool) (s : TcpConnection) (i : Input) (s' : TcpConnection) :
    Prop where
  strayed : s'.strayed = s.strayed
  reassigned : s'.reassigned = true ↔ s.reassigned = true
    ∨ LostAtOnce user s i ∧ (s.expired rearms).timer.isSome = true
  givenUp : GivenUp s' ↔ LostAtOnce user s i ∨ LastTry rearms s i

theorem expired_none (htimer : s.timer.isSome = true) (hcb : s.timerCallback = .reconnect) :
    (s.expired rearms).timer = none ↔ s.timer = some 0 ∧ rearms = false := by
  have hne : s.timer ≠ none := Option.isSome_iff_ne_none.1 htimer
  unfold expired
  dsimp only
  split_ifs with hagain
  · refine ⟨fun hnone => absurd hnone hne, fun ⟨hzero, hrearms⟩ => ?_⟩
    have := hagain.2 hzero
    rw [hrearms] at this
    cases this
  · simp only [hcb, true_and, not_forall, Bool.not_eq_true] at hagain
    obtain ⟨hzero, hrearms⟩ := hagain
    simp [hzero, hrearms]

theorem Rests.tried (h : Rests s) {attempt : ConnectTry} (hfits : s.Fits (.timeout attempt))
    (htimer : s.timer.isSome = true) :
    Tried user rearms s (.timeout attempt) (s.step user rearms (.timeout attempt)).1 := by
  obtain ⟨hd, hdisc, -⟩ := h.pending htimer
  have hstep : (s.step user rearms (.timeout attempt)).1 = s.timeout user rearms attempt :=
    if_pos htimer
  rw [hstep]
  by_cases hfails : ∀ sockFd, attempt ≠ .connects sockFd
  · obtain ⟨-, hdisc', hre, -, htimer', hstrayed, -⟩ :=
      timeout_fails user rearms hd hdisc hfits hfails
    have hmade : ¬ LostAtOnce user s (.timeout attempt) := by
      cases attempt with
      | connects sockFd => exact absurd rfl (hfails sockFd)
      | _ => exact id
    have hlast : LastTry rearms s (.timeout attempt)
        ↔ s.timerCallback = .reconnect ∧ s.timer = some 0 ∧ rearms = false := by
      cases attempt with
      | connects sockFd => exact absurd rfl (hfails sockFd)
      | _ => exact .rfl
    refine ⟨hstrayed, by simp [hre, hmade], ?_⟩
    rw [or_iff_right hmade, hlast, GivenUp, and_iff_right hdisc', htimer']
    cases hcb : s.timerCallback with
    | firstTimeConnect => simp
    | reconnect =>
      rw [if_pos rfl, expired_none htimer hcb]
      simp
  · push Not at hfails
    obtain ⟨sockFd, rfl⟩ := hfails
    obtain ⟨s₁, heq, hup, htimer₁, hre, -, hstrayed⟩ :=
      timeout_connects user rearms hd hfits.1
    have hlast : ¬ LastTry rearms s (.timeout (.connects sockFd)) := id
    rw [heq]
    rcases uses_up user (user (s.notified ++ [.connected])) hup with
      ⟨hkeeps, hstays⟩ | ⟨hloses, hlost⟩
    · have hmade : ¬ LostAtOnce user s (.timeout (.connects sockFd)) :=
        fun ⟨_, u, hu, hl⟩ => hkeeps u hu hl
      refine ⟨hstays.strayed.trans hstrayed, ?_, ?_⟩
      · simp [hstays.reassigned, hre, hmade]
      · simp [GivenUp, hstays.toUp.state, hmade, hlast]
    · have hmade : LostAtOnce user s (.timeout (.connects sockFd)) := ⟨htimer, hloses⟩
      refine ⟨hlost.strayed.trans hstrayed, ?_, ?_⟩
      · simp [hlost.reassigned, hre, htimer₁, hmade]
      · simp [GivenUp, hlost.disconnected, hmade]

/-- A try is made, or there is no timer. -/
theorem not_tried {i : Input} (hi : ∀ attempt, i = .timeout attempt → s.timer = none) :
    ¬ LostAtOnce user s i ∧ ¬ LastTry rearms s i := by
  cases i with
  | timeout attempt =>
    have hnone := hi attempt rfl
    cases attempt <;> simp [LostAtOnce, LastTry, hnone]
  | _ => exact ⟨id, id⟩

variable (user rearms) in
/-- A stop, a try that is made, or nothing of importance. -/
theorem Rests.step_cases (h : Rests s) {i : Input} (hfits : s.Fits i) :
    i = .stopConnection
      ∨ (∃ attempt, i = .timeout attempt) ∧ s.timer ≠ none
        ∧ Tried user rearms s i (s.step user rearms i).1
      ∨ i ≠ .stopConnection ∧ (¬ LostAtOnce user s i ∧ ¬ LastTry rearms s i)
        ∧ Quiet s (s.step user rearms i).1 := by
  by_cases hstop : i = .stopConnection
  · exact .inl hstop
  · by_cases htry : ∀ attempt, i = .timeout attempt → s.timer = none
    · exact .inr (.inr ⟨hstop, not_tried htry, h.quiet hfits hstop htry⟩)
    · push Not at htry
      obtain ⟨attempt, rfl, hne⟩ := htry
      exact .inr (.inl ⟨⟨attempt, rfl⟩, hne, h.tried hfits (Option.isSome_iff_ne_none.2 hne)⟩)

/-- Only a stop closes what is not open: the socket of the last try, once more. -/
theorem Rests.strays (h : Rests s) {i : Input} (hfits : s.Fits i) :
    (s.step user rearms i).1.strayed ≠ s.strayed
      ↔ i = .stopConnection ∧ s.state = .disconnected ∧ 0 < s.sockFd := by
  rcases h.step_cases user rearms hfits with
    rfl | ⟨⟨attempt, rfl⟩, htimer, htried⟩ | ⟨hstop, -, hquiet⟩
  · have hstop : (s.step user rearms .stopConnection).1.strayed = s.drop.strayed := (stop_eq s).1
    rw [hstop]
    cases h with
    | up hup =>
      rw [hup.drop_sockets.2, hup.state]
      simp
    | down hd hdisc => simp [drop, hd.sockets, hdisc]
    | idle hd hdefault => exact absurd hdefault hfits
  · simp [htried.strayed]
  · simp [hquiet.strayed, hstop]

theorem Rests.reassigns (h : Rests s) {i : Input} (hlegal : s.Legal i) :
    (s.step user rearms i).1.reassigned = true
      ↔ LostAtOnce user s i ∧ (s.expired rearms).timer.isSome = true := by
  obtain ⟨hre, hfits⟩ := hlegal
  rcases h.step_cases user rearms hfits with
    rfl | ⟨-, -, htried⟩ | ⟨-, ⟨hmade, -⟩, hquiet⟩
  · have hstop : (s.step user rearms .stopConnection).1.reassigned = s.reassigned := (stop_eq s).2.1
    simp [hstop, hre, LostAtOnce]
  · rw [htried.reassigned, hre]
    simp
  · simp [hquiet.reassigned, hre, hmade]

theorem Rests.gives_up (h : Rests s) {i : Input} (hfits : s.Fits i) :
    GivenUp (s.step user rearms i).1
      ↔ GivenUp s ∧ i ≠ .stopConnection ∨ LostAtOnce user s i ∨ LastTry rearms s i := by
  rcases h.step_cases user rearms hfits with
    rfl | ⟨⟨attempt, rfl⟩, htimer, htried⟩ | ⟨hstop, hnot, hquiet⟩
  · have hstop : (s.step user rearms .stopConnection).1.state = .default := (stop_eq s).2.2
    simp [GivenUp, hstop, LostAtOnce, LastTry]
  · rw [htried.givenUp]
    refine ⟨.inr, ?_⟩
    rintro (⟨hgiven, -⟩ | htry)
    · exact absurd hgiven.2 htimer
    · exact htry
  · simp [hquiet.givenUp, hstop, hnot]

theorem run_rests (user : User) (rearms : Bool) (delay : ℕ) (is : List Input)
    (hlegal : Along (step user rearms) Legal (new delay) is) :
    Rests (run (step user rearms) (new delay) is).1 :=
  run_inv (Q := Legal) (fun _ i h hq => step_rests h i hq.2) is (new delay) (rests_new delay) hlegal

/-! ## Given up -/

theorem Rests.given_down (h : Rests s) (hgiven : GivenUp s) : Down s := by
  obtain ⟨hdisc, -⟩ := hgiven
  cases h with
  | up hup =>
    rw [hup.state] at hdisc
    cases hdisc
  | down hd => exact hd
  | idle hd => exact hd

variable (user rearms) in
theorem GivenUp.after (hgiven : GivenUp s) (hd : Down s) {i : Input} (hfits : s.Fits i)
    (hi : i ≠ .stopConnection) :
    let s' := (s.step user rearms i).1
    GivenUp s' ∧ Down s' ∧ s'.notified = s.notified := by
  obtain ⟨hdisc, htimer⟩ := hgiven
  have hsame (hs : (s.step user rearms i).1 = s) :
      let s' := (s.step user rearms i).1
      GivenUp s' ∧ Down s' ∧ s'.notified = s.notified := by
    rw [hs]
    exact ⟨⟨hdisc, htimer⟩, hd, rfl⟩
  cases i with
  | startConnection =>
    have hstart : s.state = .default := hfits
    rw [hdisc] at hstart
    cases hstart
  | stopConnection => exact absurd rfl hi
  | setReconnectionDelay sec =>
    exact ⟨⟨hdisc, htimer⟩, ⟨hd.state, hd.read, hd.write, hd.openedFlag, hd.sockets⟩, rfl⟩
  | timeout attempt => exact hsame (if_neg (by simp [htimer]))
  | readable => exact hsame (if_neg (by simp [hd.read]))
  | writable => exact hsame (if_neg (by simp [hd.write]))
  | use u => exact hsame (use_closed _ hd.openedFlag u)

theorem GivenUp.afterAll (is : List Input) (hgiven : GivenUp s) (hd : Down s)
    (hlegal : Along (step user rearms) Legal s is) (hi : Input.stopConnection ∉ is) :
    let s' := (run (step user rearms) s is).1
    GivenUp s' ∧ s'.notified = s.notified := by
  induction is generalizing s with
  | nil => exact ⟨hgiven, rfl⟩
  | cons i is ih =>
    obtain ⟨hgiven₁, hd₁, hnotified₁⟩ :=
      hgiven.after user rearms hd hlegal.1.2 fun he => hi (he ▸ List.mem_cons_self)
    obtain ⟨hgiven', hnotified'⟩ :=
      ih hgiven₁ hd₁ hlegal.2 fun hmem => hi (List.mem_cons_of_mem _ hmem)
    exact ⟨hgiven', hnotified'.trans hnotified₁⟩

/-! ## How long the timer waits -/

/-- Waiting for the next try, with this delay. -/
structure Waits (s : TcpConnection) (delay : ℕ) : Prop extends Down s where
  disconnected : s.state = .disconnected
  callback : s.timerCallback = .reconnect
  timer : s.timer = some delay

variable (user rearms) in
/-- A try that does not connect. -/
theorem Waits.timeout {delay : ℕ} (h : Waits s delay) {attempt : ConnectTry}
    (hfits : s.Fits (.timeout attempt)) (hfails : ∀ sockFd, attempt ≠ .connects sockFd) :
    let s' := (s.step user rearms (.timeout attempt)).1
    if delay = 0 ∧ rearms = false then GivenUp s' ∧ Down s' else Waits s' delay := by
  obtain ⟨hd, hdisc, hcb, htimer⟩ := h
  obtain ⟨hd', hdisc', -, hcb', htimer', -⟩ :=
    timeout_fails user rearms hd hdisc hfits hfails
  have hstep : (s.step user rearms (.timeout attempt)).1 = s.timeout user rearms attempt :=
    if_pos (by simp [htimer])
  dsimp only
  rw [hstep]
  rw [if_pos hcb] at htimer'
  split_ifs with hlast
  · obtain ⟨rfl, hrearms⟩ := hlast
    refine ⟨⟨hdisc', ?_⟩, hd'⟩
    rw [htimer', expired_none (by simp [htimer]) hcb]
    exact ⟨htimer, hrearms⟩
  · refine ⟨hd', hdisc', hcb', ?_⟩
    rw [htimer', expired]
    dsimp only
    rw [if_pos ?_, htimer]
    refine ⟨hcb, fun hzero => ?_⟩
    rw [htimer, Option.some.injEq] at hzero
    simpa [hzero] using hlast

/-- All the tries fail. -/
def Fail (attempts : List ConnectTry) : Prop :=
  ∀ attempt ∈ attempts, ∀ sockFd, attempt ≠ .connects sockFd

theorem Waits.timeouts {delay : ℕ} (attempts : List ConnectTry) (h : Waits s delay)
    (hagain : ¬ (delay = 0 ∧ rearms = false))
    (hlegal : Along (step user rearms) Legal s (attempts.map .timeout)) (hfail : Fail attempts) :
    Waits (run (step user rearms) s (attempts.map .timeout)).1 delay := by
  induction attempts generalizing s with
  | nil => exact h
  | cons a attempts ih =>
    obtain ⟨hfails, hrest⟩ := List.forall_mem_cons.1 hfail
    have hnext := h.timeout user rearms hlegal.1.2 hfails
    dsimp only at hnext
    rw [if_neg hagain] at hnext
    exact ih hnext hlegal.2 hrest

/-- Without a delay the first of the tries may be the last. -/
theorem Waits.last_try {attempts : List ConnectTry} (h : Waits s 0) (hrearms : rearms = false)
    (hne : attempts ≠ []) (hlegal : Along (step user rearms) Legal s (attempts.map .timeout))
    (hfail : Fail attempts) :
    GivenUp (run (step user rearms) s (attempts.map .timeout)).1 := by
  obtain ⟨a, rest, rfl⟩ := List.exists_cons_of_ne_nil hne
  obtain ⟨hfails, -⟩ := List.forall_mem_cons.1 hfail
  have hfirst := h.timeout user rearms hlegal.1.2 hfails
  dsimp only at hfirst
  rw [if_pos ⟨rfl, hrearms⟩] at hfirst
  obtain ⟨hgiven, hd⟩ := hfirst
  exact (hgiven.afterAll (rest.map .timeout) hd hlegal.2 (by simp)).1

theorem Waits.still_disconnected {delay : ℕ} (attempts : List ConnectTry) (h : Waits s delay)
    (hlegal : Along (step user rearms) Legal s (attempts.map .timeout)) (hfail : Fail attempts) :
    (run (step user rearms) s (attempts.map .timeout)).1.state = .disconnected := by
  by_cases hagain : delay = 0 ∧ rearms = false
  · obtain ⟨rfl, hrearms⟩ := hagain
    rcases eq_or_ne attempts [] with rfl | hne
    · exact h.disconnected
    · exact (h.last_try hrearms hne hlegal hfail).1
  · exact (h.timeouts attempts hagain hlegal hfail).disconnected

variable (user rearms) in
/-- The first try since the client has been created. -/
theorem Down.first_fails (h : Down s) (hdisc : s.state = .disconnected)
    (hcb : s.timerCallback = .firstTimeConnect) (htimer : s.timer.isSome = true)
    {attempt : ConnectTry} (hfits : s.Fits (.timeout attempt))
    (hfails : ∀ sockFd, attempt ≠ .connects sockFd) :
    Waits (s.step user rearms (.timeout attempt)).1 s.reconnectTimeout := by
  obtain ⟨hd', hdisc', -, hcb', htimer', -⟩ :=
    timeout_fails user rearms h hdisc hfits hfails
  have hstep : (s.step user rearms (.timeout attempt)).1 = s.timeout user rearms attempt :=
    if_pos htimer
  rw [hstep]
  rw [hcb, if_neg (by simp)] at htimer'
  exact ⟨hd', hdisc', hcb', htimer'⟩

end TcpConnection

open TcpConnection in
/-- As long as clients are started and stopped in turn and the timer has not been assigned to while
it was pending, whatever else the sockets do and whatever the user does with the port: what is open,
pending and told agrees with the state, only a stop between two tries closes what is not open, and
the timer is assigned to while it is pending only if a connection is lost while the user is told of
it. -/
theorem connection_kept (user : User) (rearms : Bool) (delay : ℕ) (is : List Input) :
    Along (step user rearms) Legal (new delay) is →
      let s := (run (step user rearms) (new delay) is).1
      s.reassigned = false →
        Kept s ∧ ∀ i, s.Fits i →
          let s' := (s.step user rearms i).1
          (s'.strayed ≠ s.strayed ↔ i = .stopConnection ∧ s.state = .disconnected ∧ 0 < s.sockFd)
            ∧ (s'.reassigned = true
              ↔ LostAtOnce user s i ∧ (s.expired rearms).timer.isSome = true) := by
  intro hlegal s hre
  have hrests : Rests s := run_rests user rearms delay is hlegal
  exact ⟨hrests.kept, fun i hfits => ⟨hrests.strays hfits, hrests.reassigns ⟨hre, hfits⟩⟩⟩

namespace TcpConnection

/-- Reads when there is something to be read, and finds the other end gone. -/
def reader : User := fun es => if es.getLast? = some .dataReceived then [.read 0] else []

/-- Writes as soon as he is told of a connection, and finds the other end gone. -/
def writer : User := fun es => if es.getLast? = some .connected then [.write 4 (-1) true] else []

/-- A socket that does not connect, one that is lost, and one that stays. -/
def lostOnce : List Input :=
  [.startConnection, .timeout .noSocket, .timeout (.fails 5), .timeout (.connects 6), .readable,
    .timeout (.connects 7), .writable]

/-- A try that fails, and a stop. -/
def failedOnce : List Input := [.startConnection, .timeout .noSocket, .stopConnection]

end TcpConnection

open TcpConnection in
theorem connection_kept_lostOnce :
    Kept (run (step reader true) (new 10) lostOnce).1
      ∧ (run (step reader true) (new 10) lostOnce).1.notified
        = [.badTryOfReconnection, .connected, .dataReceived, .disconnected, .connected,
          .dataSent] := by
  have hlegal : Along (step reader true) Legal (new 10) lostOnce :=
    ⟨⟨rfl, rfl⟩, ⟨rfl, trivial⟩, ⟨rfl, by simp, by decide⟩, ⟨rfl, by simp, by decide⟩,
      ⟨rfl, trivial⟩, ⟨rfl, by simp, by decide⟩, ⟨rfl, trivial⟩, trivial⟩
  exact ⟨(connection_kept reader true 10 lostOnce hlegal rfl).1, rfl⟩

open TcpConnection in
/-- As long as clients are started and stopped in turn and the timer is not assigned to while it is
pending: a client is given up exactly if a connection is lost while the user is told of it, or if a
try without a delay fails that libevent does not schedule again.  It stays so until it is stopped,
and the user is told of nothing. -/
theorem connection_given_up (user : User) (rearms : Bool) (delay : ℕ) (is : List Input) :
    Along (step user rearms) Legal (new delay) is →
      let s := (run (step user rearms) (new delay) is).1
      (∀ i, s.Legal i →
        let s' := (s.step user rearms i).1
        s'.reassigned = false →
          (GivenUp s'
            ↔ GivenUp s ∧ i ≠ .stopConnection ∨ LostAtOnce user s i ∨ LastTry rearms s i))
        ∧ ∀ js, GivenUp s → Along (step user rearms) Legal s js → .stopConnection ∉ js →
          let s' := (run (step user rearms) s js).1
          GivenUp s' ∧ s'.notified = s.notified := by
  intro hlegal s
  have hrests : Rests s := run_rests user rearms delay is hlegal
  exact ⟨fun i hi _ => hrests.gives_up hi.2,
    fun js hgiven hjs hstop => hgiven.afterAll js (hrests.given_down hgiven) hjs hstop⟩

open TcpConnection in
theorem connection_given_up_writer :
    let s := (run (step writer true) (new 10) [.startConnection, .timeout (.connects 5)]).1
    (run (step writer true) s [.timeout (.connects 6), .readable]).1.state = .disconnected := by
  have hlegal : Along (step writer true) Legal (new 10)
      [.startConnection, .timeout (.connects 5)] :=
    ⟨⟨rfl, rfl⟩, ⟨rfl, by simp, by decide⟩, trivial⟩
  exact ((connection_given_up writer true 10 _ hlegal).2 [.timeout (.connects 6), .readable]
    ⟨rfl, rfl⟩ ⟨⟨rfl, by simp, by decide⟩, ⟨rfl, trivial⟩, trivial⟩ (by simp)).1.1

open TcpConnection in
/-- A client that is started again tries again with the delay it was given only if it has never had
to try again before.  Else it tries without any delay, or only once. -/
theorem restart_delay (user : User) (rearms : Bool) (delay : ℕ) (is : List Input)
    (attempts : List ConnectTry) :
    Along (step user rearms) Legal (new delay) is →
      let s := (run (step user rearms) (new delay) is).1
      let js := Input.startConnection :: attempts.map Input.timeout
      s.state = .default → attempts ≠ [] → Fail attempts → Along (step user rearms) Legal s js →
      let s' := (run (step user rearms) s js).1
      s'.state = .disconnected
        ∧ (s.timerCallback = .reconnect → s'.timer = if rearms then some 0 else none)
        ∧ (s.timerCallback = .firstTimeConnect → 0 < s.reconnectTimeout →
          s'.timer = some s.reconnectTimeout) := by
  intro hlegal s js hdefault hne hfail hjs
  have hrests : Rests s := run_rests user rearms delay is hlegal
  obtain ⟨hdown, -⟩ := hrests.started hdefault
  cases hcb : s.timerCallback with
  | reconnect =>
    have hwaits : Waits s.startConnection 0 := ⟨hdown, rfl, hcb, rfl⟩
    refine ⟨hwaits.still_disconnected attempts hjs.2 hfail, fun _ => ?_, by simp⟩
    cases rearms with
    | false => exact (hwaits.last_try rfl hne hjs.2 hfail).2
    | true => exact (hwaits.timeouts attempts (by simp) hjs.2 hfail).timer
  | firstTimeConnect =>
    obtain ⟨a, rest, rfl⟩ := List.exists_cons_of_ne_nil hne
    obtain ⟨hfails, hrest⟩ := List.forall_mem_cons.1 hfail
    have hwaits := hdown.first_fails user rearms rfl hcb rfl hjs.2.1.2 hfails
    refine ⟨hwaits.still_disconnected rest hjs.2.2 hrest, by simp, fun _ hpositive => ?_⟩
    have hagain : ¬ (s.reconnectTimeout = 0 ∧ rearms = false) := by omega
    exact (hwaits.timeouts rest hagain hjs.2.2 hrest).timer

open TcpConnection in
theorem restart_delay_failedOnce :
    (run (step reader true) (run (step reader true) (new 10) failedOnce).1
      [.startConnection, .timeout .noSocket, .timeout (.fails 5)]).1.timer = some 0 := by
  have hstop : Fits (run (step reader true) (new 10) [.startConnection, .timeout .noSocket]).1
      .stopConnection := by
    show TcpClientState.disconnected ≠ .default
    simp
  have hlegal : Along (step reader true) Legal (new 10) failedOnce :=
    ⟨⟨rfl, rfl⟩, ⟨rfl, trivial⟩, ⟨rfl, hstop⟩, trivial⟩
  exact (restart_delay reader true 10 failedOnce [.noSocket, .fails 5] hlegal rfl (by simp)
    (by simp [Fail]) ⟨⟨rfl, rfl⟩, ⟨rfl, trivial⟩, ⟨rfl, by simp, by decide⟩, trivial⟩).2.1 rfl

end Emodbus
