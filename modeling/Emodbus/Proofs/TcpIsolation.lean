import Emodbus.Proofs.Server
import Emodbus.Proofs.TcpSender
import Emodbus.Proofs.TcpStream
import Emodbus.TcpServer

/-!
# Connections that share a receive buffer

Between two events the node is either between two frames, with every connection's unread bytes at
the start of a frame, or partway into a frame of one connection, whose bytes are then all there is
in the buffer (`Settled`).  An event that does not mix takes a settled net to a settled one, and
what it delivers comes from its own connection.
-/

namespace Emodbus

open Octets Mealy

variable {σ ι : Type}

/-! ## The node's answer -/

section Answer

variable (ssrv : EmbSuperServer σ) (wrote : List Byte → ℤ)

/-- What a server writes carries the transaction id that is in its receive buffer, and is for the
connection of the event. -/
theorem sendPacket_writes {t : EmbTcp ι} {f : TcpFrame} (hs : t.transport.isServer = true)
    (hbuf : Mem.slice t.rxBuf 0 f.bytes.length = f.bytes) (addr : ℤ) (pdu : EmbPdu) :
    ∀ w ∈ TcpOut.writes (modbusTcpSendPacket t addr pdu wrote).2.2,
      w.1 = t.tcpClientId ∧ Mem.be [f.transactId] <+: w.2 := by
  have hb := f.length_bytes_bounds
  have hid : t.outId = f.transactId := by
    have htr := transactId_of_slice (hbuf.trans (List.take_length).symm) (by omega)
    unfold EmbTcp.outId
    rw [if_pos hs, htr, Word.swap_swap]
  by_cases hfit : pdu.dataSize.toNat ≤ maxPduDataSize
  · obtain ⟨c, heq⟩ := sendPacket_eq t addr wrote hfit
    rw [heq]
    intro w hw
    simp only [TcpOut.writes, List.mem_singleton] at hw
    subst hw
    refine ⟨rfl, ⟨Mem.be [0, pdu.dataSize.setWidth 16 + 2] ++ [BitVec.ofInt 8 addr, pdu.function]
      ++ pdu.bytes, ?_⟩⟩
    unfold EmbTcp.outBytes
    rw [hid]
    rfl
  · unfold modbusTcpSendPacket
    rw [if_neg hfit]
    simp [TcpOut.writes]

theorem writes_append (os ps : List (TcpOut ι)) :
    TcpOut.writes (os ++ ps) = TcpOut.writes os ++ TcpOut.writes ps := by
  induction os with
  | nil => rfl
  | cons o os ih => cases o <;> simp [TcpOut.writes, ih]

/-- The answers to a packet in the buffer. -/
theorem sendAll_writes {f : TcpFrame} (ps : List (ℤ × EmbPdu)) {t : EmbTcp ι}
    (hs : t.transport.isServer = true) (hbuf : Mem.slice t.rxBuf 0 f.bytes.length = f.bytes) :
    ∀ w ∈ TcpOut.writes (SrvNode.sendAll wrote t ps).2,
      w.1 = t.tcpClientId ∧ Mem.be [f.transactId] <+: w.2 := by
  induction ps generalizing t with
  | nil =>
    intro w hw
    simp [SrvNode.sendAll, TcpOut.writes] at hw
  | cons p ps ih =>
    obtain ⟨addr, pdu⟩ := p
    obtain ⟨hsame, htr, hclient⟩ := sendPacket_same t addr pdu wrote
    have hwrites := ih (t := (modbusTcpSendPacket t addr pdu wrote).2.1) (by rw [htr]; exact hs)
      (by rw [hsame.buf]; exact hbuf)
    unfold SrvNode.sendAll
    intro w hw
    rw [writes_append, List.mem_append] at hw
    rcases hw with hw | hw
    · exact sendPacket_writes wrote hs hbuf addr pdu w hw
    · rw [← hclient]
      exact hwrites w hw

/-- The node answers a packet in the buffer. -/
theorem handle_recvPacket {f : TcpFrame} (n : SrvNode σ ι) (addr : ℤ) (pdu : EmbPdu)
    (hs : n.tcp.transport.isServer = true)
    (hbuf : Mem.slice n.tcp.rxBuf 0 f.bytes.length = f.bytes) :
    let r := SrvNode.handleAll ssrv wrote n [.recvPacket addr pdu]
    SameRx r.1.tcp n.tcp ∧ r.1.tcp.transport.isServer = true
      ∧ r.1.tcp.transport.rxPdu.map EmbPdu.maxSize = some pdu.maxSize
      ∧ ∀ w ∈ TcpOut.writes r.2, w.1 = n.tcp.tcpClientId ∧ Mem.be [f.transactId] <+: w.2 := by
  have hmax := (onReceiveReq_sameMax ssrv addr ⟨pdu, n.txPdu, n.store, []⟩).rx
  dsimp only [SrvNode.handleAll, SrvNode.handle]
  set res := embSuperServerOnReceiveReq ssrv addr ⟨pdu, n.txPdu, n.store, []⟩
  set t : EmbTcp ι := { n.tcp with transport.rxPdu := some res.run.rxPdu } with ht
  obtain ⟨hsame, htr, -⟩ := sendAll_same wrote t res.sent
  have hwrites := sendAll_writes (t := t) wrote res.sent hs hbuf
  rw [List.append_nil]
  refine ⟨⟨hsame.counter, hsame.buf, hsame.curr⟩, ?_, ?_, hwrites⟩
  · rw [htr]
    exact hs
  · rw [htr]
    exact congrArg some hmax

end Answer

/-! ## The net -/

namespace TcpNet

open TcpFrame

/-- Where the net is between two events: `left` is what the connections' streams still have, a
frame that is partway in the buffer included. -/
structure Settled (sent : ι → List TcpFrame) (s : TcpNet σ ι) : Prop where
  isServer : s.node.tcp.transport.isServer = true
  maxSize : s.node.tcp.transport.rxPdu.map EmbPdu.maxSize = some 253
  streams : ∃ left : ι → List TcpFrame, (∀ c, left c <:+ sent c) ∧
    ((s.node.tcp.rxPktCounter = 0 ∧ s.node.tcp.currRxLength ≤ 0 ∧ s.held = []
        ∧ ∀ c, s.unread c = stream (left c))
      ∨ ∃ c f fs n, left c = f :: fs ∧ 0 < n ∧ s.node.tcp.Partway f n
        ∧ s.held = List.replicate n c ∧ s.unread c = f.bytes.drop n ++ stream fs
        ∧ ∀ c' ≠ c, s.unread c' = stream (left c'))

theorem reads_eq_take (s : TcpNet σ ι) (e : NetEvent ι) :
    s.reads e = (s.unread e.client).take (s.reads e).length := by
  unfold reads
  rw [List.take_take, List.length_take]
  exact List.take_eq_take_min

variable [DecidableEq ι] {ssrv : EmbSuperServer σ} {wrote : List Byte → ℤ}
  {sent : ι → List TcpFrame} {s : TcpNet σ ι} {e : NetEvent ι}

omit [DecidableEq ι] in
/-- The bytes the port hands over at the event. -/
theorem take_toBeRead {f : TcpFrame} {n : ℕ} (h : s.node.tcp.Partway f n) :
    ((s.unread e.client).take (e.atMost + 1)).take s.node.tcp.toBeRead.toNat = s.reads e := by
  have hasked := (tcpStep_partway h (some e.client)
    ((s.unread e.client).take (e.atMost + 1))).2.2
  rw [← hasked]
  rfl

/-- An event that delivers nothing. -/
theorem step_of_no_upcalls
    (h : TcpOut.upcalls (tcpStep s.node.tcp
      (.event (some e.client) (.dataReceived (s.port e)))).2 = []) :
    s.step ssrv wrote e =
      (⟨{ s.node with tcp :=
            (tcpStep s.node.tcp (.event (some e.client) (.dataReceived (s.port e)))).1 },
        Function.update s.unread e.client ((s.unread e.client).drop (s.reads e).length),
        if (tcpStep s.node.tcp
            (.event (some e.client) (.dataReceived (s.port e)))).1.rxPktCounter = 0 then []
        else s.held ++ List.replicate (s.reads e).length e.client⟩, []) := by
  unfold step SrvNode.dataReceived TcpOut.delivered
  dsimp only
  rw [h]
  rfl

/-- What an event does to the node that brings nothing. -/
theorem step_nothing (ssrv : EmbSuperServer σ) (wrote : List Byte → ℤ) {f : TcpFrame} {n : ℕ}
    (h : s.node.tcp.Partway f n) (hm : (s.reads e).length = 0) :
    (s.step ssrv wrote e).1.node.tcp.Partway f n
      ∧ (s.step ssrv wrote e).1.node.tcp.transport = s.node.tcp.transport
      ∧ (s.step ssrv wrote e).1.unread = s.unread
      ∧ (s.step ssrv wrote e).1.held = (if n = 0 then [] else s.held)
      ∧ (s.step ssrv wrote e).2 = [] := by
  have hbytes := take_toBeRead (e := e) h
  rw [List.length_eq_zero_iff.1 hm] at hbytes
  obtain ⟨-, hnext, hups, buf, curr, heq⟩ | ⟨hwhole, -⟩ :=
    tcpStep_within h (some e.client) (m := 0) (hbytes.trans List.take_zero.symm) h.lt.le
  · rw [step_of_no_upcalls hups, hm, List.replicate_zero, List.append_nil, List.drop_zero,
      Function.update_eq_self]
    refine ⟨hnext, congrArg (·.transport) heq, rfl, ?_, rfl⟩
    dsimp only
    rw [show (tcpStep s.node.tcp
      (.event (some e.client) (.dataReceived (s.port e)))).1.rxPktCounter = n from hnext.counter]
  · exact absurd hwhole h.lt.ne

/-- One connection's unread bytes and frames changed together. -/
theorem stream_update {unread : ι → List Byte} {left : ι → List TcpFrame} {k : ι}
    {bytes : List Byte} {fs : List TcpFrame} (hk : bytes = stream fs)
    (hothers : ∀ c ≠ k, unread c = stream (left c)) (c : ι) :
    Function.update unread k bytes c = stream (Function.update left k fs c) := by
  by_cases hc : c = k
  · subst hc
    rw [Function.update_self, Function.update_self, hk]
  · rw [Function.update_of_ne hc, Function.update_of_ne hc, hothers c hc]

/-- An event that goes on with a frame of its connection, or begins one. -/
theorem step_frame (hs : s.Settled sent) {left : ι → List TcpFrame}
    (hleft : ∀ c, left c <:+ sent c) {f : TcpFrame} {fs : List TcpFrame} {n : ℕ}
    (hf : left e.client = f :: fs) (h : s.node.tcp.Partway f n)
    (hheld : s.held = List.replicate n e.client)
    (hunread : s.unread e.client = f.bytes.drop n ++ stream fs)
    (hothers : ∀ c ≠ e.client, s.unread c = stream (left c))
    (hm : n + (s.reads e).length ≤ f.bytes.length) :
    (s.step ssrv wrote e).1.Settled sent ∧ ∀ d ∈ (s.step ssrv wrote e).2, d.Isolated sent := by
  have hbytes := take_toBeRead (e := e) h
  have hreads := reads_eq_take s e
  set m := (s.reads e).length with hmdef
  have htake : (s.unread e.client).take m = (f.bytes.drop n).take m := by
    rw [hunread]
    exact List.take_append_of_le_length (by rw [List.length_drop]; omega)
  have hdrop : (s.unread e.client).drop m = f.bytes.drop (n + m) ++ stream fs := by
    rw [hunread, List.drop_append_of_le_length (by rw [List.length_drop]; omega), List.drop_drop]
  rcases tcpStep_within h (some e.client) (hbytes.trans (hreads.trans htake)) hm with
    ⟨hshort, hnext, hups, buf, curr, heq⟩ | ⟨hwhole, hrest⟩
  -- the frame is still not all there
  · have hcnt := hnext.counter
    rw [step_of_no_upcalls hups, ← hmdef, hdrop]
    refine ⟨⟨?_, ?_, left, hleft, ?_⟩, by simp⟩
    · exact (congrArg (·.transport.isServer) heq).trans hs.isServer
    · exact (congrArg (·.transport.rxPdu.map EmbPdu.maxSize) heq).trans hs.maxSize
    rcases Nat.eq_zero_or_pos (n + m) with h0 | hpos
    · have hstream : ∀ c, Function.update s.unread e.client (f.bytes.drop (n + m) ++ stream fs) c
          = stream (Function.update left e.client (f :: fs) c) :=
        stream_update (by rw [h0]; rfl) hothers
      rw [← hf, Function.update_eq_self] at hstream
      exact .inl ⟨hcnt.trans h0, hnext.curr_start h0, if_pos (hcnt.trans h0), hstream⟩
    · refine .inr ⟨e.client, f, fs, n + m, hf, hpos, hnext, ?_, ?_, ?_⟩
      · refine (if_neg fun h0 => hpos.ne' (hcnt.symm.trans h0)).trans ?_
        rw [hheld, ← List.replicate_add]
      · exact Function.update_self ..
      · intro c hc
        exact (Function.update_of_ne hc ..).trans (hothers c hc)
  -- it is
  · obtain ⟨p, hp, hp253⟩ := Option.map_eq_some_iff.1 hs.maxSize
    have hfit : f.data.length ≤ p.maxSize.toNat := by
      rw [hp253]
      exact f.fits
    obtain ⟨buf, curr, hcurr, hslice, heq, hups⟩ := hrest p hp hfit (.inl hs.isServer)
    set ev := tcpStep s.node.tcp (.event (some e.client) (.dataReceived (s.port e))) with hev
    have heq' : ev.1 = _ := heq
    have hups' : TcpOut.upcalls ev.2 = _ := hups
    obtain ⟨hsame, hserver, hmax, hwrites⟩ := handle_recvPacket (f := f) ssrv wrote
      { s.node with tcp := ev.1 } f.unitId.toNat (f.copiedTo buf p)
      ((congrArg (·.transport.isServer) heq').trans hs.isServer)
      (by rw [heq']; exact hslice)
    unfold step SrvNode.dataReceived TcpOut.delivered
    dsimp only
    rw [← hev, hups', ← hmdef, hdrop]
    have hcnt := hsame.counter.trans (congrArg (·.rxPktCounter) heq')
    constructor
    · refine ⟨hserver, hmax.trans (congrArg some hp253), Function.update left e.client fs, ?_,
        .inl ⟨hcnt, ?_, if_pos hcnt, stream_update ?_ hothers⟩⟩
      · rw [Function.forall_update_iff left fun c fs => fs <:+ sent c]
        exact ⟨(List.suffix_cons f fs).trans (hf ▸ hleft e.client), fun c _ => hleft c⟩
      · exact (hsame.curr.trans (congrArg (·.currRxLength) heq')).trans_le hcurr
      · rw [List.drop_eq_nil_of_le (by omega), List.nil_append]
    · intro d hd
      simp only [List.filterMap_cons, Upcall.view, List.filterMap_nil, List.map_cons, List.map_nil,
        List.mem_singleton] at hd
      subst hd
      refine ⟨e.client, f, (hleft e.client).subset (by rw [hf]; exact List.mem_cons_self), ?_, ?_,
        ?_⟩
      · dsimp only
        rw [bytes_copiedTo hslice, hheld, ← List.replicate_add, ← length_bytes, ← hwhole,
          List.take_of_length_le (by simp)]
      · dsimp only
        rw [bytes_copiedTo hslice]
        rfl
      · intro w hw
        obtain ⟨hw1, hw2⟩ := hwrites w hw
        exact ⟨hw1.trans (congrArg (·.tcpClientId) heq'), hw2⟩

/-- An event that does not mix. -/
theorem step_unmixed (hs : s.Settled sent) (hu : s.Unmixed sent e) :
    (s.step ssrv wrote e).1.Settled sent ∧ ∀ d ∈ (s.step ssrv wrote e).2, d.Isolated sent := by
  obtain ⟨left, hleft, ⟨hcnt, hcurr, hheld, hstreams⟩ |
    ⟨c, f, fs, n, hf, hn, hpart, hheld, hunread, hothers⟩⟩ := hs.streams
  -- the buffer is empty
  · cases hl : left e.client with
    | nil =>
      have hnil : (s.reads e).length = 0 := by
        rw [reads_eq_take, hstreams, hl, stream_nil, List.take_nil, List.length_nil]
      have hpart := EmbTcp.Partway.start hcnt hcurr ⟨0, 0, 0, 0, [0], by decide, by decide⟩
      obtain ⟨hnext, htr, hun, hheld', hout⟩ := step_nothing ssrv wrote hpart hnil
      refine ⟨⟨by rw [htr]; exact hs.isServer, by rw [htr]; exact hs.maxSize, left, hleft,
        .inl ⟨hnext.counter, hnext.curr_start rfl, hheld', ?_⟩⟩, by simp [hout]⟩
      rw [hun]
      exact hstreams
    | cons f fs =>
      have hpart := EmbTcp.Partway.start hcnt hcurr f
      refine step_frame hs hleft hl hpart (by rw [hheld]; rfl) (by rw [hstreams, hl]; rfl)
        (fun c _ => hstreams c) ?_
      rcases hu with h0 | ⟨-, hle⟩
      · omega
      · obtain ⟨pre, hpre⟩ := hleft e.client
        rw [hstreams, hl, ← hpre, hl, stream_cons, List.length_append] at hle
        have := untilBorder_append pre fs f hpart.lt
        rw [Nat.sub_zero] at this
        omega
  -- there is a part of a frame of `c` in it
  · by_cases hc : c = e.client
    · subst hc
      refine step_frame hs hleft hf hpart hheld hunread hothers ?_
      rcases hu with h0 | ⟨-, hle⟩
      · have := hpart.lt
        omega
      · obtain ⟨pre, hpre⟩ := hleft e.client
        rw [hunread, ← hpre, hf, List.length_append, List.length_drop,
          untilBorder_append pre fs f hpart.lt] at hle
        have := hpart.lt
        omega
    · have hnil : (s.reads e).length = 0 := by
        rcases hu with h0 | ⟨howner, -⟩
        · exact h0
        · exact absurd (howner c (by rw [hheld]; exact List.mem_replicate.2 ⟨hn.ne', rfl⟩)) hc
      obtain ⟨hnext, htr, hun, hheld', hout⟩ := step_nothing ssrv wrote hpart hnil
      refine ⟨⟨by rw [htr]; exact hs.isServer, by rw [htr]; exact hs.maxSize, left, hleft,
        .inr ⟨c, f, fs, n, hf, hn, hnext, ?_, ?_, ?_⟩⟩, by simp [hout]⟩
      · rw [hheld', if_neg hn.ne', hheld]
      · rw [hun, hunread]
      · rw [hun]
        exact hothers

end TcpNet

open TcpNet

theorem settled_start (rxPdu txPdu : EmbPdu) (store : σ) (sent : ι → List TcpFrame) :
    (TcpNet.start rxPdu txPdu store sent).Settled sent where
  isServer := rfl
  maxSize := rfl
  streams := ⟨sent, fun c => List.suffix_refl (sent c),
    .inl ⟨rfl, show (-1 : ℤ) ≤ 0 by simp, rfl, fun _ => rfl⟩⟩

/-- In every run whose events do not mix, every packet is a frame of one connection, and so is the
answer to it. -/
theorem run_isolated [DecidableEq ι] (ssrv : EmbSuperServer σ) (wrote : List Byte → ℤ)
    (rxPdu txPdu : EmbPdu) (store : σ) (sent : ι → List TcpFrame) (es : List (NetEvent ι))
    (h : Along (TcpNet.step ssrv wrote) (Unmixed sent) (TcpNet.start rxPdu txPdu store sent) es) :
    ∀ ds ∈ (run (TcpNet.step ssrv wrote) (TcpNet.start rxPdu txPdu store sent) es).2,
      ∀ d ∈ ds, d.Isolated sent :=
  run_out (P := Settled sent) (Q := Unmixed sent) (G := fun ds => ∀ d ∈ ds, d.Isolated sent)
    (fun _ _ hs hu => step_unmixed hs hu) es _ (settled_start rxPdu txPdu store sent) h

/-- Two connections take turns, each with a whole frame. -/
theorem run_isolated_two :
    let f : TcpFrame := ⟨1, 0, 1, 3, [0], by decide, by decide⟩
    let g : TcpFrame := ⟨2, 0, 1, 3, [7], by decide, by decide⟩
    let pdu : EmbPdu := ⟨0, 0, 253, fun _ => 0⟩
    ∀ ds ∈ (run (TcpNet.step (.bare Unit) fun _ => 0)
        (TcpNet.start pdu pdu () fun c : Bool => if c then [f] else [g])
        [⟨true, 8⟩, ⟨false, 3⟩, ⟨false, 0⟩, ⟨false, 8⟩]).2,
      ∀ d ∈ ds, d.Isolated fun c : Bool => if c then [f] else [g] :=
  run_isolated (.bare Unit) (fun _ => 0) ⟨0, 0, 253, fun _ => 0⟩ ⟨0, 0, 253, fun _ => 0⟩ () _ _
    ⟨by unfold Unmixed; decide, by unfold Unmixed; decide, by unfold Unmixed; decide,
      by unfold Unmixed; decide, trivial⟩

/-- Four bytes of one connection, then a frame of the other: one packet of both. -/
theorem interleaved_not_isolated :
    let f : TcpFrame := ⟨1, 0, 1, 3, [0], by decide, by decide⟩
    let g : TcpFrame := ⟨3, 0, 1, 3, [7], by decide, by decide⟩
    let pdu : EmbPdu := ⟨0, 0, 253, fun _ => 0⟩
    ¬ ∀ ds ∈ (run (TcpNet.step (.bare Unit) fun _ => 0)
        (TcpNet.start pdu pdu () fun c : Bool => if c then [f] else [g])
        [⟨true, 3⟩, ⟨false, 8⟩]).2,
      ∀ d ∈ ds, d.Isolated fun c : Bool => if c then [f] else [g] := by
  intro f g pdu h
  have hall : ∀ ds ∈ (run (TcpNet.step (.bare Unit) fun _ => 0)
      (TcpNet.start pdu pdu () fun c : Bool => if c then [f] else [g])
      [⟨true, 3⟩, ⟨false, 8⟩]).2, ∀ d ∈ ds, d.owners[0]? = d.owners[4]? := by
    intro ds hds d hd
    obtain ⟨c, f', -, howners, -, -⟩ := h ds hds d hd
    have hlen := f'.length_bytes_bounds
    rw [howners, List.getElem?_replicate, List.getElem?_replicate, if_pos (by omega),
      if_pos (by omega)]
  exact absurd hall (by decide +kernel)

end Emodbus
