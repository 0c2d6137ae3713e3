import Emodbus.TcpRun

/-!
# What one data event does to the receiver

`parse_packet` waits, or it is done with what is in the buffer: it waits as long as the header is
not there or the buffer is shorter than `frameEnd`.  The rest of the module is about a receiver
that has got a part of a frame and nothing else (`Partway`): a read that stays within the frame
leaves it partway, and one that reaches the frame's end delivers the frame and drops what came
behind it.
-/

namespace Emodbus

open Octets

variable {ι : Type}

namespace TcpOut

@[simp] theorem asked_cons_readFromPort (start n : ℕ) (os : List (TcpOut ι)) :
    asked (.readFromPort start n :: os) = n + asked os := rfl

@[simp] theorem upcalls_cons_readFromPort (start n : ℕ) (os : List (TcpOut ι)) :
    upcalls (.readFromPort start n :: os) = upcalls os := rfl

@[simp] theorem delivered_nil : delivered ([] : List (TcpOut ι)) = [] := rfl

@[simp] theorem delivered_recvPacket (c : PayloadCopy) (addr : ℤ) (pdu : EmbPdu) :
    delivered [(.memcpy c : TcpOut ι), .upcall (.recvPacket addr pdu)]
      = [(addr, pdu.function, pdu.bytes)] := rfl

end TcpOut

/-! ## parse_packet -/

section Parse

variable {t : EmbTcp ι}

theorem parsePacket_short (h : t.rxPktCounter < 9) :
    parsePacket t = ({ t with currRxLength := -1 }, [], false) := by
  unfold parsePacket
  exact if_neg (Nat.not_le.2 h)

theorem parsePacket_wait (h : 9 ≤ t.rxPktCounter)
    (hlt : t.rxPktCounter < EmbTcp.frameEnd t.rxBuf) :
    parsePacket t
      = ({ t with currRxLength := (EmbTcp.frameEnd t.rxBuf : ℤ) - t.rxPktCounter }, [], false) := by
  have hpos : (0 : ℤ) < (EmbTcp.frameEnd t.rxBuf : ℤ) - t.rxPktCounter := by omega
  unfold parsePacket
  exact (if_pos h).trans (if_pos hpos)

theorem parsePacket_done (h : 9 ≤ t.rxPktCounter)
    (hle : EmbTcp.frameEnd t.rxBuf ≤ t.rxPktCounter) :
    parsePacket t =
      let r := acceptPacket
        { t with currRxLength := (EmbTcp.frameEnd t.rxBuf : ℤ) - t.rxPktCounter }
        (swapBytes (EmbTcp.mbapLength t.rxBuf) - 1)
      (r.1, r.2, true) := by
  have hneg : ¬ (0 : ℤ) < (EmbTcp.frameEnd t.rxBuf : ℤ) - t.rxPktCounter := by omega
  unfold parsePacket
  exact (if_pos h).trans (if_neg hneg)

/-- Of the state, a packet that is all there changes the PDU at most. -/
theorem acceptPacket_state (t : EmbTcp ι) (pktLength : Word) :
    ∃ rxPdu, (acceptPacket t pktLength).1 = { t with transport.rxPdu := rxPdu } := by
  unfold acceptPacket
  split_ifs with hid
  · exact ⟨t.transport.rxPdu, rfl⟩
  · split
    · exact ⟨t.transport.rxPdu, rfl⟩
    · dsimp only
      split_ifs with hovf
      · exact ⟨t.transport.rxPdu, rfl⟩
      · exact ⟨_, rfl⟩

/-- A packet that is all there is delivered, with the size its length field gives, or it is not. -/
theorem acceptPacket_delivered (t : EmbTcp ι) (pktLength : Word) :
    TcpOut.delivered (acceptPacket t pktLength).2 = []
      ∨ ∃ v, TcpOut.delivered (acceptPacket t pktLength).2 = [v]
        ∧ v.2.2.length = (BitVec.ofInt 8 (pktLength.toNat - 1)).toNat := by
  unfold acceptPacket
  split_ifs
  · exact .inl rfl
  · split
    · exact .inl rfl
    · dsimp only
      split_ifs
      · exact .inl rfl
      · exact .inr ⟨_, TcpOut.delivered_recvPacket _ _ _, EmbPdu.length_bytes _⟩

theorem acceptPacket_of_not_accepts (pktLength : Word) (h : 9 ≤ t.rxPktCounter)
    (ha : ¬ t.Accepts) : TcpOut.copies (acceptPacket t pktLength).2 = [] := by
  unfold acceptPacket
  split_ifs with hid
  · rfl
  · split
    · rfl
    · rename_i p hp
      refine absurd ⟨h, ?_, by rw [hp]; rfl⟩ ha
      cases hs : t.transport.isServer <;> simp_all

/-- What a packet that is accepted is copied with. -/
theorem acceptPacket_copies (pktLength : Word) (ha : t.Accepts) :
    ∃ p, t.transport.rxPdu = some p ∧ TcpOut.copies (acceptPacket t pktLength).2 =
      if (p.maxSize.toNat : ℤ) < pktLength.toNat - 1 then []
      else [⟨pktLength.toNat - 1, BitVec.ofInt 8 (pktLength.toNat - 1), p.maxSize,
        swapBytes (EmbTcp.mbapLength t.rxBuf), t.rxPktCounter⟩] := by
  obtain ⟨p, hp⟩ := Option.isSome_iff_exists.1 ha.rxPdu
  refine ⟨p, hp, ?_⟩
  have hid : ¬ (!t.transport.isServer ∧ EmbTcp.transactId t.txBuf ≠ EmbTcp.transactId t.rxBuf) := by
    rintro ⟨hs, hne⟩
    rcases ha.transactId with h | h
    · simp [h] at hs
    · exact hne h
  unfold acceptPacket
  rw [if_neg hid, hp]
  dsimp only
  split_ifs with hovf
  · rfl
  · rfl

/-- The copies of one call are in range unless it accepts a packet whose length field is 1. -/
theorem parsePacket_copies_inRange_iff (t : EmbTcp ι) :
    (∀ c ∈ TcpOut.copies (parsePacket t).2.1, c.InRange)
      ↔ (t.Accepts → swapBytes (EmbTcp.mbapLength t.rxBuf) ≠ 1) := by
  set len := swapBytes (EmbTcp.mbapLength t.rxBuf) with hlen
  rcases Nat.lt_or_ge t.rxPktCounter 9 with h | h
  · rw [parsePacket_short h]
    simp only [TcpOut.copies, List.not_mem_nil, false_implies, implies_true, true_iff]
    intro ha
    exact absurd ha.header (Nat.not_le.2 h)
  have hend : EmbTcp.frameEnd t.rxBuf = 7 + (len - 1).toNat := rfl
  rcases Nat.lt_or_ge t.rxPktCounter (EmbTcp.frameEnd t.rxBuf) with hlt | hle
  · rw [parsePacket_wait h hlt]
    simp only [TcpOut.copies, List.not_mem_nil, false_implies, implies_true, true_iff]
    rintro - h1
    have h0 : (len - 1).toNat = 0 := by rw [h1]; rfl
    omega
  rw [parsePacket_done h hle]
  set t₁ : EmbTcp ι := { t with currRxLength := (EmbTcp.frameEnd t.rxBuf : ℤ) - t.rxPktCounter }
    with ht₁
  by_cases ha : t.Accepts
  swap
  · have ha' : ¬ t₁.Accepts := fun ha' => ha ⟨ha'.header, ha'.transactId, ha'.rxPdu⟩
    have hnil := acceptPacket_of_not_accepts (t := t₁) (len - 1) h ha'
    dsimp only
    rw [hnil]
    simp [ha]
  have ha' : t₁.Accepts := ⟨ha.header, ha.transactId, ha.rxPdu⟩
  obtain ⟨p, -, hc⟩ := acceptPacket_copies (len - 1) ha'
  dsimp only
  rw [hc]
  have hmax := p.maxSize.isLt
  have hpkt : (len - 1).toNat = (len.toNat + 65535) % 65536 := by
    rw [BitVec.toNat_sub]; simp; omega
  have hlt := len.isLt
  split_ifs with hovf
  · simp only [List.not_mem_nil, false_implies, implies_true, true_iff]
    rintro - h1
    rw [h1] at hovf
    simp at hovf
    omega
  · simp only [List.mem_singleton, forall_eq]
    constructor
    · rintro hr - h1
      have := hr.nonneg
      simp only [h1] at this
      simp at this
    · intro h1
      have hne : len.toNat ≠ 1 := fun e => h1 ha (BitVec.eq_of_toNat_eq e)
      have hds : (BitVec.ofInt 8 ((len - 1).toNat - 1)).toNat = (len - 1).toNat - 1 := by
        rw [BitVec.toNat_ofInt]
        omega
      have hrx : t₁.rxBuf = t.rxBuf := rfl
      have hcnt : t₁.rxPktCounter = t.rxPktCounter := rfl
      refine ⟨?_, ?_, ?_, ?_, ?_⟩ <;> simp only [hrx, hcnt, ← hlen, embTcpMbapSize, hds] <;> omega

end Parse

/-! ## A step of the receiver -/

section Step

/-- What a data event asks for, and what it does with the answer. -/
theorem tcpStep_dataReceived (s : EmbTcp ι) (client : Option ι) (port : PortRead) :
    tcpStep s (.event client (.dataReceived port)) =
      if (embTcpRxBufSize : ℤ) - s.rxPktCounter < s.currRxLength then
        ({ s with tcpClientId := client, rxPktCounter := 0 }, [])
      else if s.toBeRead = 0 then takeIn ({ s with tcpClientId := client }.received [])
      else match port.read s.toBeRead.toNat with
        | none =>
          ({ s with tcpClientId := client }, [.readFromPort s.rxPktCounter s.toBeRead.toNat])
        | some bytes =>
          ((takeIn ({ s with tcpClientId := client }.received bytes)).1,
            .readFromPort s.rxPktCounter s.toBeRead.toNat ::
              (takeIn ({ s with tcpClientId := client }.received bytes)).2) := by
  unfold tcpStep embTcpPortEvent EmbTcp.toBeRead
  dsimp only
  split_ifs <;> first | rfl | omega

theorem takeIn_out (t : EmbTcp ι) : (takeIn t).2 = (parsePacket t).2.1 := by
  unfold takeIn
  dsimp only
  split_ifs <;> rfl

theorem takeIn_state (r : EmbTcp ι) :
    (takeIn r).1.rxPktCounter =
        (if (9 ≤ r.rxPktCounter ∧ EmbTcp.frameEnd r.rxBuf ≤ r.rxPktCounter)
          ∨ embTcpRxBufSize = r.rxPktCounter then 0 else r.rxPktCounter)
      ∧ (takeIn r).1.currRxLength =
        if 9 ≤ r.rxPktCounter then (EmbTcp.frameEnd r.rxBuf : ℤ) - r.rxPktCounter else -1 := by
  unfold takeIn
  rcases Nat.lt_or_ge r.rxPktCounter 9 with h | h
  · rw [parsePacket_short h]
    simp only [Nat.not_le.2 h, false_and, false_or, Bool.false_eq_true, if_false]
    split_ifs <;> exact ⟨rfl, rfl⟩
  rcases Nat.lt_or_ge r.rxPktCounter (EmbTcp.frameEnd r.rxBuf) with hlt | hle
  · rw [parsePacket_wait h hlt]
    simp only [h, Nat.not_le.2 hlt, and_false, false_or, Bool.false_eq_true, if_true]
    split_ifs <;> exact ⟨rfl, rfl⟩
  · obtain ⟨p, hp⟩ := acceptPacket_state
      { r with currRxLength := (EmbTcp.frameEnd r.rxBuf : ℤ) - r.rxPktCounter }
      (swapBytes (EmbTcp.mbapLength r.rxBuf) - 1)
    rw [parsePacket_done h hle]
    simp only [h, hle, true_and, true_or, if_true, hp]

theorem acceptPacket_asked (t : EmbTcp ι) (pktLength : Word) :
    TcpOut.asked (acceptPacket t pktLength).2 = 0 := by
  unfold acceptPacket
  split_ifs
  · rfl
  · split
    · rfl
    · dsimp only
      split_ifs <;> rfl

theorem takeIn_asked (t : EmbTcp ι) : TcpOut.asked (takeIn t).2 = 0 := by
  rw [takeIn_out]
  rcases Nat.lt_or_ge t.rxPktCounter 9 with h | h
  · rw [parsePacket_short h]
    rfl
  rcases Nat.lt_or_ge t.rxPktCounter (EmbTcp.frameEnd t.rxBuf) with hlt | hle
  · rw [parsePacket_wait h hlt]
    rfl
  · rw [parsePacket_done h hle]
    exact acceptPacket_asked _ _

theorem tcpStep_asked (s : EmbTcp ι) (client : Option ι) (port : PortRead) :
    TcpOut.asked (tcpStep s (.event client (.dataReceived port))).2 =
      if (embTcpRxBufSize : ℤ) - s.rxPktCounter < s.currRxLength then 0 else s.toBeRead.toNat := by
  rw [tcpStep_dataReceived]
  split_ifs with hclean h0
  · rfl
  · rw [takeIn_asked, h0]
    rfl
  · split
    · rfl
    · rw [TcpOut.asked_cons_readFromPort, takeIn_asked, Nat.add_zero]

/-- A step that calls `parse_packet` puts out what it puts out, behind a read perhaps. -/
theorem tcpStep_of_parsed {s r : EmbTcp ι} {i : TcpInput ι} (h : s.parsed i = some r) :
    (tcpStep s i).1 = (takeIn r).1
      ∧ TcpOut.copies (tcpStep s i).2 = TcpOut.copies (parsePacket r).2.1
      ∧ TcpOut.upcalls (tcpStep s i).2 = TcpOut.upcalls (parsePacket r).2.1 := by
  match i with
  | .high f => simp [EmbTcp.parsed] at h
  | .event client (.txBufEmpty wrote) => simp [EmbTcp.parsed] at h
  | .event client .lastRxTimeout => simp [EmbTcp.parsed] at h
  | .event client (.dataReceived port) =>
    rw [tcpStep_dataReceived]
    have hread : { s with tcpClientId := client }.toBeRead = s.toBeRead := rfl
    simp only [EmbTcp.parsed, hread] at h
    split_ifs at h ⊢ with hclean h0
    · simp only [Option.some.injEq] at h
      subst h
      rw [takeIn_out]
      exact ⟨rfl, rfl, rfl⟩
    · obtain ⟨bytes, hb, rfl⟩ := Option.map_eq_some_iff.1 h
      rw [hb]
      dsimp only
      rw [takeIn_out]
      exact ⟨rfl, rfl, rfl⟩

theorem tcpStep_of_not_parsed {s : EmbTcp ι} {i : TcpInput ι} (h : s.parsed i = none) :
    TcpOut.copies (tcpStep s i).2 = [] ∧ TcpOut.upcalls (tcpStep s i).2 = [] := by
  match i with
  | .high f => exact ⟨rfl, rfl⟩
  | .event client (.txBufEmpty wrote) =>
    unfold tcpStep embTcpPortEvent
    dsimp only
    split_ifs <;> exact ⟨rfl, rfl⟩
  | .event client .lastRxTimeout => exact ⟨rfl, rfl⟩
  | .event client (.dataReceived port) =>
    rw [tcpStep_dataReceived]
    have hread : { s with tcpClientId := client }.toBeRead = s.toBeRead := rfl
    simp only [EmbTcp.parsed, hread] at h
    split_ifs at h ⊢ with hclean h0
    · exact ⟨rfl, rfl⟩
    · rw [Option.map_eq_none_iff.1 h]
      exact ⟨rfl, rfl⟩

theorem tcpStep_of_not_parsed_state {s : EmbTcp ι} {i : TcpInput ι} (h : s.parsed i = none) :
    ((tcpStep s i).1.currRxLength = s.currRxLength ∨ (tcpStep s i).1.currRxLength = -1)
      ∧ ((tcpStep s i).1.rxPktCounter = s.rxPktCounter ∨ (tcpStep s i).1.rxPktCounter = 0) := by
  match i with
  | .high f => exact ⟨.inl (f.sameRx s).curr, .inl (f.sameRx s).counter⟩
  | .event client (.txBufEmpty wrote) =>
    unfold tcpStep embTcpPortEvent
    dsimp only
    split_ifs <;> exact ⟨.inl rfl, .inl rfl⟩
  | .event client .lastRxTimeout => exact ⟨.inr rfl, .inr rfl⟩
  | .event client (.dataReceived port) =>
    rw [tcpStep_dataReceived]
    have hread : { s with tcpClientId := client }.toBeRead = s.toBeRead := rfl
    simp only [EmbTcp.parsed, hread] at h
    split_ifs at h ⊢ with hclean h0
    · exact ⟨.inl rfl, .inr rfl⟩
    · rw [Option.map_eq_none_iff.1 h]
      exact ⟨.inl rfl, .inl rfl⟩

end Step

/-! ## A frame in the buffer -/

namespace TcpFrame

variable (f : TcpFrame)

@[simp] theorem length_header : f.header.length = 8 := rfl

@[simp] theorem length_bytes : f.bytes.length = 8 + f.data.length := by simp [bytes]

theorem length_bytes_bounds : 9 ≤ f.bytes.length ∧ f.bytes.length ≤ 261 := by
  have h1 := f.nonempty
  have h2 := f.fits
  rw [length_bytes]
  unfold maxPduDataSize at h2
  omega

theorem bytes_getElem?_of_lt {i : ℕ} (h : i < 8) : f.bytes[i]? = f.header[i]? :=
  List.getElem?_append_left h

end TcpFrame

section Buffer

variable {f : TcpFrame} {buf : Mem Byte} {n : ℕ}

/-- A byte of the header that is in the buffer. -/
theorem apply_header (h : Mem.slice buf 0 n = f.bytes.take n) {i : ℕ} (hi : i < n) (h8 : i < 8) :
    buf i = f.header.getD i 0 := by
  have hget := congrArg (fun l => l[i]?) h
  simp only [Mem.getElem?_slice _ hi, Nat.zero_add, List.getElem?_take, if_pos hi,
    f.bytes_getElem?_of_lt h8] at hget
  rw [List.getD_eq_getElem?_getD, ← hget, Option.getD_some]

theorem mbapLength_of_slice (h : Mem.slice buf 0 n = f.bytes.take n) (hn : 6 ≤ n) :
    swapBytes (EmbTcp.mbapLength buf) = BitVec.ofNat 16 (f.data.length + 2) := by
  have h4 := apply_header h (i := 4) (by omega) (by omega)
  have h5 := apply_header h (i := 5) (by omega) (by omega)
  rw [swapBytes_eq, EmbTcp.mbapLength, Mem.swap_leWord, Mem.beWord, h4, h5]
  exact Word.ofBytes_hi_lo (BitVec.ofNat 16 (f.data.length + 2))

theorem frameEnd_of_slice (h : Mem.slice buf 0 n = f.bytes.take n) (hn : 6 ≤ n) :
    EmbTcp.frameEnd buf = f.bytes.length := by
  have h2 := f.fits
  unfold maxPduDataSize at h2
  rw [EmbTcp.frameEnd, mbapLength_of_slice h hn, TcpFrame.length_bytes, BitVec.toNat_sub,
    BitVec.toNat_ofNat]
  have h1 : (1 : Word).toNat = 1 := rfl
  simp only [embTcpMbapSize, h1]
  omega

theorem transactId_of_slice (h : Mem.slice buf 0 n = f.bytes.take n) (hn : 2 ≤ n) :
    EmbTcp.transactId buf = f.transactId.swap := by
  have h0 := apply_header h (i := 0) (by omega) (by omega)
  have h1 := apply_header h (i := 1) (by omega) (by omega)
  rw [EmbTcp.transactId, Mem.leWord, h0, h1]
  rfl

theorem data_of_slice (h : Mem.slice buf 0 f.bytes.length = f.bytes) :
    Mem.slice buf 8 f.data.length = f.data := by
  have hsplit := Mem.slice_add buf 0 8 f.data.length
  rw [← TcpFrame.length_bytes, h, Nat.zero_add] at hsplit
  exact ((List.append_inj hsplit (by simp)).2).symm

/-- The PDU once the frame in `buf` has been copied to it. -/
def TcpFrame.copiedTo (f : TcpFrame) (buf : Mem Byte) (p : EmbPdu) : EmbPdu :=
  { p with
    function := f.function
    dataSize := BitVec.ofInt 8 (f.data.length : ℕ)
    data := Mem.copy p.data (Mem.shift buf 8) f.data.length }

theorem TcpFrame.bytes_copiedTo (h : Mem.slice buf 0 f.bytes.length = f.bytes) (p : EmbPdu) :
    (f.copiedTo buf p).bytes = f.data := by
  have hfits := f.fits
  unfold maxPduDataSize at hfits
  have hsize : (BitVec.ofInt 8 (f.data.length : ℕ)).toNat = f.data.length := by
    rw [BitVec.toNat_ofInt]
    omega
  unfold EmbPdu.bytes TcpFrame.copiedTo
  rw [hsize, Mem.slice_copy_shift, data_of_slice h]

/-- A frame that is accepted goes to the high level. -/
theorem acceptPacket_frame {t : EmbTcp ι} (h : Mem.slice t.rxBuf 0 f.bytes.length = f.bytes)
    (hid : t.transport.isServer ∨ EmbTcp.transactId t.txBuf = f.transactId.swap) {p : EmbPdu}
    (hp : t.transport.rxPdu = some p) (hfit : f.data.length ≤ p.maxSize.toNat) :
    acceptPacket t (swapBytes (EmbTcp.mbapLength t.rxBuf) - 1)
      = ({ t with transport.rxPdu := some (f.copiedTo t.rxBuf p) },
          [.memcpy ⟨(f.data.length : ℕ), BitVec.ofInt 8 (f.data.length : ℕ), p.maxSize,
              BitVec.ofNat 16 (f.data.length + 2), t.rxPktCounter⟩,
            .upcall (.recvPacket f.unitId.toNat (f.copiedTo t.rxBuf p))]) := by
  have htaken : Mem.slice t.rxBuf 0 f.bytes.length = f.bytes.take f.bytes.length := by
    rw [h, List.take_length]
  have hb := f.length_bytes_bounds
  have hfits := f.fits
  unfold maxPduDataSize at hfits
  have hlen := mbapLength_of_slice htaken (by omega)
  have hunit : EmbTcp.unitId t.rxBuf = f.unitId :=
    apply_header htaken (i := 6) (by omega) (by omega)
  have hfun : t.rxBuf 7 = f.function := apply_header htaken (i := 7) (by omega) (by omega)
  have hidr :
      ¬ (!t.transport.isServer ∧ EmbTcp.transactId t.txBuf ≠ EmbTcp.transactId t.rxBuf) := by
    rw [transactId_of_slice htaken (by omega)]
    rintro ⟨hs, hne⟩
    rcases hid with hid | hid
    · simp [hid] at hs
    · exact hne hid
  have h1 : (1 : Word).toNat = 1 := rfl
  have hpkt : ((BitVec.ofNat 16 (f.data.length + 2) - 1 : Word).toNat : ℤ) - 1
      = (f.data.length : ℕ) := by
    rw [BitVec.toNat_sub, BitVec.toNat_ofNat, h1]
    omega
  unfold acceptPacket
  rw [if_neg hidr, hp]
  dsimp only
  rw [hlen, hpkt, if_neg (by omega), hunit, embTcpMbapSize, hfun, sizeT_of_nonneg (by omega)]
  rfl

end Buffer

/-! ## A receiver that has got a part of a frame -/

theorem received_slice {t : EmbTcp ι} {f : TcpFrame} {n m : ℕ} (h : t.Partway f n)
    (rest : List Byte) (hm : n + m ≤ f.bytes.length) :
    Mem.slice (t.received ((f.bytes.drop n).take m ++ rest)).rxBuf 0 (n + m)
      = f.bytes.take (n + m) := by
  have hlen : ((f.bytes.drop n).take m).length = m := by
    rw [List.length_take, List.length_drop]
    omega
  have hbuf : (t.received ((f.bytes.drop n).take m ++ rest)).rxBuf
      = Mem.blit (Mem.blit t.rxBuf n ((f.bytes.drop n).take m)) (n + m) rest := by
    unfold EmbTcp.received
    rw [h.counter, Mem.blit_append, hlen]
  rw [hbuf, Mem.slice_blit_of_le _ _ (by omega), List.take_add]
  exact Mem.slice_blit_append _ _ h.slice (by rw [hlen])

namespace EmbTcp.Partway

variable {t : EmbTcp ι} {f : TcpFrame} {n : ℕ}

theorem start (hc : t.rxPktCounter = 0) (h0 : t.currRxLength ≤ 0) (f : TcpFrame) :
    t.Partway f 0 where
  lt := by have := f.length_bytes_bounds; omega
  counter := hc
  slice := rfl
  curr_start _ := h0
  curr_short h := absurd h (lt_irrefl 0)
  curr_rest h := by omega

/-- The high level leaves the receiver where it is. -/
theorem congr {t' : EmbTcp ι} (h : t.Partway f n) (hs : SameRx t' t) : t'.Partway f n where
  lt := h.lt
  counter := hs.counter.trans h.counter
  slice := by rw [hs.buf]; exact h.slice
  curr_start := by rw [hs.curr]; exact h.curr_start
  curr_short := by rw [hs.curr]; exact h.curr_short
  curr_rest := by rw [hs.curr]; exact h.curr_rest

/-- What is outstanding always fits the buffer. -/
theorem not_clean (h : t.Partway f n) :
    ¬ (embTcpRxBufSize : ℤ) - t.rxPktCounter < t.currRxLength := by
  have hb := f.length_bytes_bounds
  have hlt := h.lt
  have h0 := h.curr_start
  have h1 := h.curr_short
  have h2 := h.curr_rest
  rw [h.counter]
  simp only [embTcpRxBufSize, embTcpMbapSize]
  omega

/-- Between two frames the receiver asks for a whole buffer, or once for nothing; in a frame whose
header it knows, for the rest of it. -/
theorem toBeRead_eq (h : t.Partway f n) :
    t.toBeRead = if t.currRxLength = 0 then 0
      else if n < 9 then (embTcpRxBufSize : ℤ) - n else (f.bytes.length : ℤ) - n := by
  have hb := f.length_bytes_bounds
  have hlt := h.lt
  have h0 := h.curr_start
  have h1 := h.curr_short
  have h2 := h.curr_rest
  unfold EmbTcp.toBeRead
  rw [h.counter]
  split_ifs <;> omega

/-- Bytes that do not complete the frame. -/
theorem takeIn_part (h : t.Partway f n) {m : ℕ} (hm : n + m < f.bytes.length) :
    (takeIn (t.received ((f.bytes.drop n).take m))).1.Partway f (n + m)
      ∧ (takeIn (t.received ((f.bytes.drop n).take m))).2 = []
      ∧ ∃ buf curr, (takeIn (t.received ((f.bytes.drop n).take m))).1
          = { t with rxBuf := buf, rxPktCounter := n + m, currRxLength := curr } := by
  have hslice := received_slice h [] hm.le
  rw [List.append_nil] at hslice
  have hcnt : (t.received ((f.bytes.drop n).take m)).rxPktCounter = n + m := by
    have hlen : ((f.bytes.drop n).take m).length = m := by
      rw [List.length_take, List.length_drop]
      omega
    unfold EmbTcp.received
    rw [h.counter, hlen]
  have hb := f.length_bytes_bounds
  set r := t.received ((f.bytes.drop n).take m) with hr
  have hend : embTcpRxBufSize ≠ n + m := by
    simp only [embTcpRxBufSize, embTcpMbapSize]
    omega
  unfold takeIn
  rcases Nat.lt_or_ge (n + m) 9 with h9 | h9
  · rw [parsePacket_short (by omega)]
    simp only [Bool.false_eq_true, false_or, hcnt, if_neg hend]
    exact ⟨⟨hm, rfl, hslice, fun _ => show (-1 : ℤ) ≤ 0 by simp, fun _ _ => rfl,
      fun _ => by omega⟩, trivial, r.rxBuf, -1, rfl⟩
  · have hfe := frameEnd_of_slice hslice (by omega)
    rw [parsePacket_wait (by omega) (by omega)]
    simp only [Bool.false_eq_true, false_or, hcnt, if_neg hend, hfe]
    exact ⟨⟨hm, rfl, hslice, fun _ => by omega, fun _ _ => by omega, fun _ => rfl⟩, trivial,
      r.rxBuf, _, rfl⟩

/-- A read that reaches the end of the frame: it is delivered, and the buffer is given up with
whatever came behind it. -/
theorem takeIn_whole (h : t.Partway f n) (rest : List Byte)
    (hid : t.transport.isServer ∨ EmbTcp.transactId t.txBuf = f.transactId.swap) {p : EmbPdu}
    (hp : t.transport.rxPdu = some p) (hfit : f.data.length ≤ p.maxSize.toNat) :
    ∃ buf curr, curr ≤ 0 ∧ Mem.slice buf 0 f.bytes.length = f.bytes
      ∧ (takeIn (t.received (f.bytes.drop n ++ rest))).1
          = { t with rxBuf := buf, rxPktCounter := 0, currRxLength := curr,
                     transport.rxPdu := some (f.copiedTo buf p) }
      ∧ TcpOut.upcalls (takeIn (t.received (f.bytes.drop n ++ rest))).2
          = [.recvPacket f.unitId.toNat (f.copiedTo buf p)] := by
  have hlt := h.lt
  have hb := f.length_bytes_bounds
  have htake : (f.bytes.drop n).take (f.bytes.length - n) = f.bytes.drop n :=
    List.take_of_length_le (by rw [List.length_drop])
  have hslice := received_slice h (m := f.bytes.length - n) rest (by omega)
  rw [htake, Nat.add_sub_cancel' hlt.le, List.take_length] at hslice
  have hcnt : (t.received (f.bytes.drop n ++ rest)).rxPktCounter
      = f.bytes.length + rest.length := by
    change t.rxPktCounter + (f.bytes.drop n ++ rest).length = _
    rw [h.counter, List.length_append, List.length_drop]
    omega
  set r := t.received (f.bytes.drop n ++ rest) with hr
  have hfe := frameEnd_of_slice (hslice.trans (List.take_length).symm) (by omega)
  have hdone := parsePacket_done (t := r) (by omega) (by omega)
  have haccept := acceptPacket_frame
    (t := { r with currRxLength := (EmbTcp.frameEnd r.rxBuf : ℤ) - r.rxPktCounter })
    hslice hid hp hfit
  refine ⟨r.rxBuf, (EmbTcp.frameEnd r.rxBuf : ℤ) - r.rxPktCounter, by omega, hslice, ?_, ?_⟩
  · unfold takeIn
    rw [hdone, haccept]
    simp only [true_or, if_true]
    rfl
  · rw [takeIn_out, hdone, haccept]
    rfl

end EmbTcp.Partway

end Emodbus
