import Emodbus.Proofs.TcpReceiver

/-!
# A stream of frames, read in pieces

As long as no read goes beyond the end of a frame, the receiver is partway into the frame whose
bytes are next (`Awaits`), and every event takes it further.  A read that does go beyond it loses
what it took of the next frame, and the frames that are left cannot all come out of the bytes that
are left: what is delivered, what is in the buffer and what is unread never grow together
(`feed_weight`).
-/

namespace Emodbus

open Octets Mealy

variable {ι : Type}

namespace TcpFrame

@[simp] theorem stream_nil : stream [] = [] := rfl

@[simp] theorem stream_cons (f : TcpFrame) (fs : List TcpFrame) :
    stream (f :: fs) = f.bytes ++ stream fs := rfl

@[simp] theorem stream_append (fs gs : List TcpFrame) :
    stream (fs ++ gs) = stream fs ++ stream gs := List.flatMap_append

/-- Partway into a frame, the next end of a frame is its own. -/
theorem untilBorder_append (pre fs : List TcpFrame) (f : TcpFrame) {n : ℕ}
    (hn : n < f.bytes.length) :
    untilBorder (pre ++ f :: fs) (f.bytes.length - n + (stream fs).length)
      = f.bytes.length - n := by
  induction pre with
  | nil =>
    rw [List.nil_append, untilBorder, if_pos (by omega)]
    omega
  | cons g pre ih =>
    rw [List.cons_append, untilBorder, if_neg, ih]
    simp only [stream_append, stream_cons, List.length_append]
    omega

/-- What the delivered packets must have taken of the stream. -/
def weight (vs : List (ℤ × Byte × List Byte)) : ℕ := (vs.map fun v => 8 + v.2.2.length).sum

@[simp] theorem weight_nil : weight [] = 0 := rfl

@[simp] theorem weight_singleton (v : ℤ × Byte × List Byte) : weight [v] = 8 + v.2.2.length := rfl

theorem weight_append (vs ws : List (ℤ × Byte × List Byte)) :
    weight (vs ++ ws) = weight vs + weight ws := by simp [weight]

theorem weight_view (fs : List TcpFrame) : weight (fs.map view) = (stream fs).length := by
  induction fs with
  | nil => rfl
  | cons f fs ih =>
    rw [stream_cons, List.length_append, length_bytes, ← ih]
    rfl

end TcpFrame

open TcpFrame

/-! ## One event -/

/-- What `parse_packet` delivers was in the buffer, or has 255 bytes. -/
theorem takeIn_weight (t : EmbTcp ι) (h : ∀ v ∈ TcpOut.delivered (takeIn t).2, v.2.2.length ≠ 255) :
    weight (TcpOut.delivered (takeIn t).2) + (takeIn t).1.rxPktCounter ≤ t.rxPktCounter := by
  have hn := (takeIn_state t).1
  have hout := takeIn_out t
  rcases Nat.lt_or_ge t.rxPktCounter 9 with h9 | h9
  · rw [hout, parsePacket_short h9, hn, TcpOut.delivered_nil, weight_nil]
    split_ifs <;> omega
  rcases Nat.lt_or_ge t.rxPktCounter (EmbTcp.frameEnd t.rxBuf) with hlt | hle
  · rw [hout, parsePacket_wait h9 hlt, hn, TcpOut.delivered_nil, weight_nil]
    split_ifs <;> omega
  rw [if_pos (.inl ⟨h9, hle⟩)] at hn
  rw [hout, parsePacket_done h9 hle] at h ⊢
  rw [hn, Nat.add_zero]
  set len := swapBytes (EmbTcp.mbapLength t.rxBuf) with hlen
  have hend : EmbTcp.frameEnd t.rxBuf = 7 + (len - 1).toNat := rfl
  dsimp only at h ⊢
  rcases acceptPacket_delivered
    { t with currRxLength := (EmbTcp.frameEnd t.rxBuf : ℤ) - t.rxPktCounter } (len - 1)
    with hd | ⟨v, hd, hv⟩
  · rw [hd, weight_nil]
    omega
  · rw [hd] at h ⊢
    have h255 := h v (List.mem_singleton.2 rfl)
    rw [hv, BitVec.toNat_ofInt] at h255
    rw [weight_singleton, hv, BitVec.toNat_ofInt]
    omega

/-- What an event does that finds the receiver partway, whatever the port has for it. -/
theorem tcpStep_partway {t : EmbTcp ι} {f : TcpFrame} {n : ℕ} (h : t.Partway f n)
    (client : Option ι) (bytes : List Byte) :
    let s := tcpStep t (.event client (.dataReceived (.upTo bytes)))
    let r := takeIn ({ t with tcpClientId := client }.received (bytes.take t.toBeRead.toNat))
    s.1 = r.1 ∧ TcpOut.upcalls s.2 = TcpOut.upcalls r.2 ∧ TcpOut.asked s.2 = t.toBeRead.toNat := by
  dsimp only
  refine ⟨?_, ?_, ?_⟩
  · rw [tcpStep_dataReceived, if_neg h.not_clean]
    split_ifs with h0
    · rw [h0]
      rfl
    · rfl
  · rw [tcpStep_dataReceived, if_neg h.not_clean]
    split_ifs with h0
    · rw [h0]
      rfl
    · rfl
  · rw [tcpStep_asked, if_neg h.not_clean]

/-- An event that brings bytes of the frame the receiver is partway into, and no others. -/
theorem tcpStep_within {t : EmbTcp ι} {f : TcpFrame} {n m : ℕ} (h : t.Partway f n)
    (client : Option ι) {bytes : List Byte}
    (hbytes : bytes.take t.toBeRead.toNat = (f.bytes.drop n).take m)
    (hm : n + m ≤ f.bytes.length) :
    let s := tcpStep t (.event client (.dataReceived (.upTo bytes)))
    (n + m < f.bytes.length ∧ s.1.Partway f (n + m) ∧ TcpOut.upcalls s.2 = []
        ∧ ∃ buf curr, s.1 = { t with
            tcpClientId := client, rxBuf := buf, rxPktCounter := n + m, currRxLength := curr })
      ∨ (n + m = f.bytes.length ∧ ∀ p, t.transport.rxPdu = some p →
        f.data.length ≤ p.maxSize.toNat →
        t.transport.isServer ∨ EmbTcp.transactId t.txBuf = f.transactId.swap →
        ∃ buf curr, curr ≤ 0 ∧ Mem.slice buf 0 f.bytes.length = f.bytes
          ∧ s.1 = { t with
              tcpClientId := client, rxBuf := buf, rxPktCounter := 0, currRxLength := curr,
              transport.rxPdu := some (f.copiedTo buf p) }
          ∧ TcpOut.upcalls s.2 = [.recvPacket f.unitId.toNat (f.copiedTo buf p)]) := by
  have hpart : ({ t with tcpClientId := client } : EmbTcp ι).Partway f n := h.congr ⟨rfl, rfl, rfl⟩
  obtain ⟨hstate, hup, -⟩ := tcpStep_partway h client bytes
  rw [hbytes] at hstate hup
  dsimp only
  rw [hstate, hup]
  rcases Nat.lt_or_ge (n + m) f.bytes.length with hlt | hge
  · obtain ⟨hnext, hout, buf, curr, heq⟩ := hpart.takeIn_part hlt
    refine .inl ⟨hlt, hnext, by rw [hout]; rfl, buf, curr, heq⟩
  · refine .inr ⟨le_antisymm hm hge, fun p hp hfit hid => ?_⟩
    have hall : (f.bytes.drop n).take m = f.bytes.drop n ++ [] := by
      rw [List.append_nil]
      exact List.take_of_length_le (by rw [List.length_drop]; omega)
    obtain ⟨buf, curr, hcurr, hslice, heq, hups⟩ := hpart.takeIn_whole [] hid hp hfit
    rw [hall]
    exact ⟨buf, curr, hcurr, hslice, heq, hups⟩

/-- An event that reads nothing gives `curr_rx_length` up between two frames. -/
theorem tcpStep_nothing {t : EmbTcp ι} {f : TcpFrame} (h : t.Partway f 0)
    (client : Option ι) {bytes : List Byte} (hbytes : bytes.take t.toBeRead.toNat = []) :
    (tcpStep t (.event client (.dataReceived (.upTo bytes)))).1.currRxLength = -1 := by
  obtain ⟨hstate, -, -⟩ := tcpStep_partway h client bytes
  rw [hstate, hbytes, (takeIn_state _).2, if_neg]
  change ¬ 9 ≤ t.rxPktCounter + 0
  rw [h.counter]
  omega

namespace TcpSession

/-- The frames the session has still to deliver. -/
structure Awaits (s : TcpSession ι) (fs : List TcpFrame) : Prop where
  isServer : s.tcp.transport.isServer = true
  maxSize : s.tcp.transport.rxPdu.map EmbPdu.maxSize = some 253
  next : (fs = [] ∧ s.unread = []) ∨ ∃ f fs' n, fs = f :: fs' ∧ s.tcp.Partway f n
    ∧ s.unread = f.bytes.drop n ++ stream fs'

/-- It goes down with every event that stays within a frame. -/
def todo (s : TcpSession ι) : ℕ := 2 * s.unread.length + if s.tcp.currRxLength = 0 then 1 else 0

variable {s : TcpSession ι} {a : Arrival ι} {fs pre : List TcpFrame}

theorem Awaits.start (hs : s.tcp.transport.isServer = true)
    (hm : s.tcp.transport.rxPdu.map EmbPdu.maxSize = some 253) (hc : s.tcp.rxPktCounter = 0)
    (h0 : s.tcp.currRxLength ≤ 0) (hu : s.unread = stream fs) : s.Awaits fs where
  isServer := hs
  maxSize := hm
  next := by
    cases fs with
    | nil => exact .inl ⟨rfl, hu⟩
    | cons f fs => exact .inr ⟨f, fs, 0, rfl, .start hc h0 f, hu⟩

/-- What was asked for, of what there is at the time. -/
theorem reads_eq (s : TcpSession ι) (a : Arrival ι) :
    s.reads a = s.unread.take (s.reads a).length := by
  unfold reads
  rw [List.take_take, List.length_take]
  exact List.take_eq_take_min

theorem feed_of_unread_nil (h : s.unread = []) (a : Arrival ι) : s.feed a = (s, []) := if_pos h

theorem feed_eq (h : s.unread ≠ []) (a : Arrival ι) :
    s.feed a = (⟨a.after.apply (tcpStep s.tcp (s.event a)).1, s.unread.drop (s.reads a).length⟩,
      TcpOut.delivered (tcpStep s.tcp (s.event a)).2) := if_neg h

/-- Partway into a frame, an event asks for some bytes unless nothing is outstanding. -/
theorem reads_nil_iff {f : TcpFrame} {n : ℕ} (h : s.tcp.Partway f n) (hu : s.unread ≠ []) :
    (s.reads a).length = 0 ↔ s.tcp.currRxLength = 0 := by
  have hpos := List.length_pos_of_ne_nil hu
  have hb := f.length_bytes_bounds
  have hlt := h.lt
  have hread := h.toBeRead_eq
  have hasked := (tcpStep_partway h a.client (s.unread.take (a.atMost + 1))).2.2
  have hlen :
      (s.reads a).length = min (s.tcp.toBeRead.toNat) (min (a.atMost + 1) s.unread.length) := by
    unfold reads event port
    rw [List.length_take, List.length_take, hasked]
  rw [hlen, hread]
  simp only [embTcpRxBufSize, embTcpMbapSize]
  split_ifs with h0 h9
  · simp [h0]
  · simp only [h0, iff_false]
    omega
  · simp only [h0, iff_false]
    omega

/-- An event that stays within a frame, in a session that is partway into one. -/
theorem feed_within (h : s.Awaits fs) (hu : s.unread ≠ []) (hw : s.WithinFrame (pre ++ fs) a) :
    ∃ sent left, fs = sent ++ left ∧ (s.feed a).1.Awaits left ∧ (s.feed a).2 = sent.map view
      ∧ (s.feed a).1.todo < s.todo := by
  obtain ⟨-, hnil⟩ | ⟨f, fs', n, rfl, hpart, hunread⟩ := h.next
  · exact absurd hnil hu
  have hlt := hpart.lt
  have hnil := reads_nil_iff (a := a) hpart hu
  have hlen := List.length_pos_of_ne_nil hu
  have hreads := reads_eq s a
  have hasked := (tcpStep_partway hpart a.client (s.unread.take (a.atMost + 1))).2.2
  unfold WithinFrame at hw
  rw [hunread, List.length_append, List.length_drop, untilBorder_append _ _ _ hlt] at hw
  set m := (s.reads a).length with hm
  have htake : s.unread.take m = (f.bytes.drop n).take m := by
    rw [hunread]
    exact List.take_append_of_le_length (by rw [List.length_drop]; exact hw)
  have hdrop : s.unread.drop m = f.bytes.drop (n + m) ++ stream fs' := by
    rw [hunread, List.drop_append_of_le_length (by rw [List.length_drop]; exact hw),
      List.drop_drop]
  have hbytes :
      (s.unread.take (a.atMost + 1)).take s.tcp.toBeRead.toNat = (f.bytes.drop n).take m := by
    rw [← hasked, ← htake, ← hreads]
    rfl
  have hsame := a.after.sameRx (tcpStep s.tcp (s.event a)).1
  have hserver := a.after.isServer (tcpStep s.tcp (s.event a)).1
  have hmax := a.after.maxSize (tcpStep s.tcp (s.event a)).1
  rw [feed_eq hu, hdrop]
  unfold TcpOut.delivered
  rcases tcpStep_within hpart a.client hbytes (by omega) with
    ⟨hshort, hnext, hups, buf, curr, heq⟩ | ⟨hwhole, hrest⟩
  -- the frame is still not all there
  · refine ⟨[], f :: fs', rfl, ⟨?_, ?_, .inr ⟨f, fs', n + m, rfl, hnext.congr hsame, rfl⟩⟩, ?_, ?_⟩
    · exact hserver.trans ((congrArg (·.transport.isServer) heq).trans h.isServer)
    · exact hmax.trans ((congrArg (·.transport.rxPdu.map EmbPdu.maxSize) heq).trans h.maxSize)
    · exact congrArg _ hups
    · unfold todo
      dsimp only
      rw [← hdrop, List.length_drop]
      rcases Nat.eq_zero_or_pos m with h0 | hpos
      -- nothing was asked for
      · have hcurr := hnil.1 h0
        have hn : n = 0 := by
          have := hpart.curr_rest
          have := hpart.curr_short
          omega
        subst hn
        have hgone := tcpStep_nothing hpart a.client (hbytes.trans (by rw [h0, List.take_zero]))
        rw [hsame.curr.trans hgone, hcurr, if_neg (by simp), if_pos rfl]
        omega
      · split_ifs <;> omega
  -- it is
  · obtain ⟨p, hp, hp253⟩ := Option.map_eq_some_iff.1 h.maxSize
    have hfit : f.data.length ≤ p.maxSize.toNat := by
      rw [hp253]
      exact f.fits
    obtain ⟨buf, curr, hcurr, hslice, heq, hups⟩ := hrest p hp hfit (.inl h.isServer)
    refine ⟨[f], fs', rfl, .start ?_ ?_ ?_ ?_ ?_, ?_, ?_⟩
    · exact hserver.trans ((congrArg (·.transport.isServer) heq).trans h.isServer)
    · refine hmax.trans ((congrArg (·.transport.rxPdu.map EmbPdu.maxSize) heq).trans ?_)
      rw [← hp253]
      rfl
    · exact hsame.counter.trans (congrArg (·.rxPktCounter) heq)
    · exact (hsame.curr.trans (congrArg (·.currRxLength) heq)).trans_le hcurr
    · dsimp only
      rw [List.drop_eq_nil_of_le (by omega), List.nil_append]
    · refine (congrArg _ hups).trans ?_
      simp only [List.filterMap_cons, Upcall.view, List.filterMap_nil, List.map_cons, List.map_nil,
        bytes_copiedTo hslice]
      rfl
    · unfold todo
      dsimp only
      rw [← hdrop, List.length_drop]
      split_ifs <;> omega

/-- A read beyond the end of the frame delivers the frame, and loses what it took of the next. -/
theorem feed_cross (h : s.Awaits fs) (hw : ¬ s.WithinFrame (pre ++ fs) a) :
    ∃ f fs', fs = f :: fs' ∧ (s.feed a).2 = [f.view]
      ∧ (s.feed a).1.tcp.rxPktCounter + (s.feed a).1.unread.length < (stream fs').length := by
  have hu : s.unread ≠ [] := by
    intro hnil
    apply hw
    unfold WithinFrame
    rw [reads_eq, hnil, List.take_nil, List.length_nil]
    exact Nat.zero_le _
  obtain ⟨-, hnil⟩ | ⟨f, fs', n, rfl, hpart, hunread⟩ := h.next
  · exact absurd hnil hu
  refine ⟨f, fs', rfl, ?_⟩
  have hlt := hpart.lt
  have hreads := reads_eq s a
  have hle : (s.reads a).length ≤ s.unread.length := by
    rw [hreads, List.length_take]
    exact Nat.min_le_right _ _
  unfold WithinFrame at hw
  rw [hunread, List.length_append, List.length_drop, untilBorder_append _ _ _ hlt] at hw
  rw [hunread, List.length_append, List.length_drop] at hle
  set m := (s.reads a).length with hm
  set t : EmbTcp ι := { s.tcp with tcpClientId := a.client } with ht
  have hpart' : t.Partway f n := hpart.congr ⟨rfl, rfl, rfl⟩
  have htake : s.unread.take m
      = f.bytes.drop n ++ (stream fs').take (m - (f.bytes.length - n)) := by
    rw [hunread, List.take_append, List.length_drop]
    rw [List.take_of_length_le (by rw [List.length_drop]; omega)]
  obtain ⟨hstate, hup, hasked⟩ := tcpStep_partway hpart a.client (s.unread.take (a.atMost + 1))
  have hbytes : (s.unread.take (a.atMost + 1)).take s.tcp.toBeRead.toNat
      = f.bytes.drop n ++ (stream fs').take (m - (f.bytes.length - n)) := by
    rw [← hasked, ← htake, ← hreads]
    rfl
  rw [hbytes] at hstate hup
  obtain ⟨p, hp, hp253⟩ := Option.map_eq_some_iff.1 h.maxSize
  have hfit : f.data.length ≤ p.maxSize.toNat := by
    rw [hp253]
    exact f.fits
  obtain ⟨buf, curr, -, hslice, heq, hups⟩ := hpart'.takeIn_whole
    ((stream fs').take (m - (f.bytes.length - n))) (.inl h.isServer) hp hfit
  have hsame := a.after.sameRx (tcpStep s.tcp (s.event a)).1
  rw [feed_eq hu]
  unfold event port at *
  dsimp only
  rw [hstate, heq] at hsame ⊢
  constructor
  · unfold TcpOut.delivered
    rw [hup, hups]
    simp only [List.filterMap_cons, Upcall.view, List.filterMap_nil, bytes_copiedTo hslice]
    rfl
  · have hcnt := hsame.counter
    dsimp only at hcnt
    rw [hcnt, hunread, List.length_drop, List.length_append, List.length_drop]
    omega

/-- What `parse_packet` finds in the buffer is what was there and what was read. -/
theorem parsed_counter {r : EmbTcp ι} (h : s.tcp.parsed (s.event a) = some r) :
    r.rxPktCounter = s.tcp.rxPktCounter + (s.reads a).length := by
  have hread : { s.tcp with tcpClientId := a.client }.toBeRead = s.tcp.toBeRead := rfl
  have hasked : TcpOut.asked (tcpStep s.tcp (s.event a)).2 = _ :=
    tcpStep_asked s.tcp a.client (s.port a)
  unfold reads
  rw [hasked]
  simp only [event, port, EmbTcp.parsed, hread, PortRead.upTo] at h
  split_ifs at h ⊢ with hclean h0
  · simp only [Option.some.injEq] at h
    subst h
    rw [h0]
    rfl
  · simp only [Option.map_some, Option.some.injEq] at h
    subst h
    rfl

/-- What is delivered, what is in the buffer and what is unread do not grow together. -/
theorem feed_weight (s : TcpSession ι) (a : Arrival ι)
    (h : ∀ v ∈ (s.feed a).2, v.2.2.length ≠ 255) :
    weight (s.feed a).2 + (s.feed a).1.tcp.rxPktCounter + (s.feed a).1.unread.length
      ≤ s.tcp.rxPktCounter + s.unread.length := by
  by_cases hu : s.unread = []
  · rw [feed_of_unread_nil hu]
    exact (Nat.zero_add _).symm ▸ le_rfl
  have hle : (s.reads a).length ≤ s.unread.length := by
    rw [reads_eq, List.length_take]
    exact Nat.min_le_right _ _
  rw [feed_eq hu] at h ⊢
  dsimp only at h ⊢
  rw [(a.after.sameRx _).counter, List.length_drop]
  cases hp : s.tcp.parsed (s.event a) with
  | none =>
    have hn := (tcpStep_of_not_parsed_state hp).2
    unfold TcpOut.delivered
    rw [(tcpStep_of_not_parsed hp).2, List.filterMap_nil, weight_nil]
    omega
  | some r =>
    have hr := parsed_counter hp
    obtain ⟨hstate, -, hup⟩ := tcpStep_of_parsed hp
    unfold TcpOut.delivered at h ⊢
    rw [hup, ← takeIn_out] at h ⊢
    rw [hstate]
    have := takeIn_weight r h
    unfold TcpOut.delivered at this
    omega

/-! ## Runs -/

theorem run_weight (as : List (Arrival ι)) (s : TcpSession ι)
    (h : ∀ v ∈ (run feed s as).2.flatten, v.2.2.length ≠ 255) :
    weight (run feed s as).2.flatten + (run feed s as).1.unread.length
      ≤ s.tcp.rxPktCounter + s.unread.length := by
  induction as generalizing s with
  | nil =>
    simp only [run_nil, List.flatten_nil, weight_nil]
    omega
  | cons a as ih =>
    rw [run_cons, List.flatten_cons] at h
    have hfirst := feed_weight s a fun v hv => h v (List.mem_append_left _ hv)
    have hrest := ih (s.feed a).1 fun v hv => h v (List.mem_append_right _ hv)
    rw [run_cons, List.flatten_cons, weight_append]
    dsimp only
    omega

theorem along_of_unread_nil (h : s.unread = []) (as : List (Arrival ι)) :
    Along feed (WithinFrame fs) s as := by
  induction as with
  | nil => trivial
  | cons a as ih =>
    refine ⟨?_, ?_⟩
    · unfold WithinFrame
      rw [reads_eq, h, List.take_nil, List.length_nil]
      exact Nat.zero_le _
    · rw [feed_of_unread_nil h]
      exact ih

/-- A run that has read everything and delivered all frames has lost nothing on its way. -/
theorem within_of_delivered (pre : List TcpFrame) (as : List (Arrival ι)) {s : TcpSession ι}
    {fs : List TcpFrame} (h : s.Awaits fs) (hu : (run feed s as).1.unread = [])
    (hd : (run feed s as).2.flatten = fs.map view) : Along feed (WithinFrame (pre ++ fs)) s as := by
  induction as generalizing s fs pre with
  | nil => trivial
  | cons a as ih =>
    by_cases hnil : s.unread = []
    · exact along_of_unread_nil hnil _
    rw [run_cons] at hu
    rw [run_cons, List.flatten_cons] at hd
    have hw : s.WithinFrame (pre ++ fs) a := by
      by_contra hw
      obtain ⟨f, fs', rfl, hout, hlt⟩ := feed_cross h hw
      rw [hout, List.singleton_append, List.map_cons, List.cons.injEq] at hd
      have hle := run_weight as (s.feed a).1 (by
        rw [hd.2]
        intro v hv
        obtain ⟨g, -, rfl⟩ := List.mem_map.1 hv
        have := g.fits
        unfold maxPduDataSize at this
        change g.data.length ≠ 255
        omega)
      rw [hd.2, weight_view] at hle
      omega
    obtain ⟨sent, left, rfl, hnext, hout, -⟩ := feed_within h hnil hw
    rw [hout, List.map_append, List.append_cancel_left_eq] at hd
    refine ⟨hw, ?_⟩
    have := ih (pre ++ sent) hnext hu hd
    rwa [List.append_assoc] at this

theorem map_range_succ (schedule : ℕ → Arrival ι) (n : ℕ) :
    (List.range (n + 1)).map schedule
      = schedule 0 :: (List.range n).map fun i => schedule (i + 1) := by
  rw [List.range_succ_eq_map, List.map_cons, List.map_map]
  rfl

/-- A schedule that never reads beyond the end of a frame reads and delivers everything. -/
theorem delivered_of_within (pre : List TcpFrame) (N : ℕ) {s : TcpSession ι}
    {fs : List TcpFrame} (h : s.Awaits fs) (hN : s.todo < N) (schedule : ℕ → Arrival ι)
    (hw : ∀ n, Along feed (WithinFrame (pre ++ fs)) s ((List.range n).map schedule)) :
    ∃ n, (run feed s ((List.range n).map schedule)).1.unread = []
      ∧ (run feed s ((List.range n).map schedule)).2.flatten = fs.map view := by
  induction N generalizing s fs pre schedule with
  | zero => exact absurd hN (Nat.not_lt_zero _)
  | succ N ih =>
    by_cases hnil : s.unread = []
    · refine ⟨0, hnil, ?_⟩
      obtain ⟨rfl, -⟩ | ⟨f, fs', n, rfl, hpart, hunread⟩ := h.next
      · rfl
      · have hlen := congrArg List.length (hunread.symm.trans hnil)
        have hlt := hpart.lt
        rw [List.length_append, List.length_drop, List.length_nil] at hlen
        omega
    obtain ⟨sent, left, rfl, hnext, hout, hlt⟩ := feed_within h hnil (hw 1).1
    have hw' (n : ℕ) : Along feed (WithinFrame ((pre ++ sent) ++ left)) (s.feed (schedule 0)).1
        ((List.range n).map fun i => schedule (i + 1)) := by
      have hn := hw (n + 1)
      rw [map_range_succ] at hn
      rw [List.append_assoc]
      exact hn.2
    obtain ⟨n, hun, hdel⟩ := ih (pre ++ sent) hnext (by omega) _ hw'
    refine ⟨n + 1, ?_, ?_⟩
    · rw [map_range_succ, run_cons]
      exact hun
    · rw [map_range_succ, run_cons, List.flatten_cons, hout, hdel, List.map_append]

/-- The start of a session with a server whose PDU has room for the longest request. -/
def start (ι : Type) (p : EmbPdu) (fs : List TcpFrame) : TcpSession ι where
  tcp := embTcpInitialize (EmbTcp.zeroed ι ⟨some { p with maxSize := 253 }, true⟩)
  unread := stream fs

theorem start_awaits (p : EmbPdu) (fs : List TcpFrame) : (start ι p fs).Awaits fs :=
  .start rfl rfl rfl (show (-1 : ℤ) ≤ 0 by simp) rfl

end TcpSession

open TcpSession

/-- A schedule gets every frame delivered, once and in order, if and only if none of its reads goes
beyond the end of a frame. -/
theorem all_delivered_iff (p : EmbPdu) (fs : List TcpFrame) (schedule : ℕ → Arrival ι) :
    (∃ n, (run feed (start ι p fs) ((List.range n).map schedule)).1.unread = []
        ∧ (run feed (start ι p fs) ((List.range n).map schedule)).2.flatten = fs.map view)
      ↔ ∀ n, Along feed (WithinFrame fs) (start ι p fs) ((List.range n).map schedule) := by
  constructor
  · rintro ⟨n, hu, hd⟩ k
    have hn : Along feed (WithinFrame fs) (start ι p fs) ((List.range n).map schedule) :=
      within_of_delivered [] _ (start_awaits p fs) hu hd
    rcases Nat.le_total k n with hk | hk
    · obtain ⟨j, rfl⟩ := Nat.exists_eq_add_of_le hk
      rw [List.range_add, List.map_append] at hn
      exact (Along.append.1 hn).1
    · obtain ⟨j, rfl⟩ := Nat.exists_eq_add_of_le hk
      rw [List.range_add, List.map_append]
      exact Along.append.2 ⟨hn, along_of_unread_nil hu _⟩
  · intro hw
    exact delivered_of_within [] _ (start_awaits p fs) (Nat.lt_succ_self _) schedule hw

/-- Two frames that arrive in one read: the second is never delivered. -/
theorem coalesced_frame_lost :
    let f : TcpFrame := ⟨0, 0, 1, 3, [0], by decide, by decide⟩
    ¬ ∃ n, (run feed (start Unit ⟨0, 0, 0, fun _ => 0⟩ [f, f])
          ((List.range n).map fun _ => ⟨none, 17, .idle⟩)).1.unread = []
      ∧ (run feed (start Unit ⟨0, 0, 0, fun _ => 0⟩ [f, f])
          ((List.range n).map fun _ => ⟨none, 17, .idle⟩)).2.flatten = [f, f].map view := by
  rintro f ⟨n, hu, hd⟩
  cases n with
  | zero => exact absurd hu (by decide)
  | succ n =>
    have hw := within_of_delivered [] _ (start_awaits _ _) hu hd
    rw [map_range_succ] at hw
    exact absurd hw.1 (by unfold WithinFrame; decide)

end Emodbus
