import Emodbus.Proofs.TcpSender
import Emodbus.TcpViaTcpClient

/-!
# A connection that starts clean

The counters of the transport outlive the socket, so that what is in its buffers may belong to a
connection that is gone.  As long as every step keeps the connections apart, what has been written
on the open one is some request frames and as much of the frame in `tx_buf` as was written on it
(`Inv.opened`).
-/

namespace Emodbus

open Octets Mealy

variable {π : Type}

/-! ## What the transport does to its buffers -/

section Transport

variable {ι : Type}

/-- The fields only the sender writes are the same. -/
structure SameTx (t t' : EmbTcp ι) : Prop where
  buf : t.txBuf = t'.txBuf
  size : t.txPktSize = t'.txPktSize
  counter : t.txPktCounter = t'.txPktCounter

theorem parsePacket_sameTx (t : EmbTcp ι) : SameTx (parsePacket t).1 t := by
  rcases Nat.lt_or_ge t.rxPktCounter 9 with h | h
  · rw [parsePacket_short h]
    exact ⟨rfl, rfl, rfl⟩
  rcases Nat.lt_or_ge t.rxPktCounter (EmbTcp.frameEnd t.rxBuf) with hlt | hle
  · rw [parsePacket_wait h hlt]
    exact ⟨rfl, rfl, rfl⟩
  · obtain ⟨p, hp⟩ := acceptPacket_state
      { t with currRxLength := (EmbTcp.frameEnd t.rxBuf : ℤ) - t.rxPktCounter }
      (swapBytes (EmbTcp.mbapLength t.rxBuf) - 1)
    rw [parsePacket_done h hle]
    dsimp only
    rw [hp]
    exact ⟨rfl, rfl, rfl⟩

theorem takeIn_sameTx (t : EmbTcp ι) : SameTx (takeIn t).1 t := by
  obtain ⟨hbuf, hsize, hcounter⟩ := parsePacket_sameTx t
  unfold takeIn
  dsimp only
  split_ifs
  · exact ⟨hbuf, hsize, hcounter⟩
  · exact ⟨hbuf, hsize, hcounter⟩

theorem takeIn_counter (t : EmbTcp ι) :
    (takeIn t).1.rxPktCounter = 0 ∨ (takeIn t).1.rxPktCounter = t.rxPktCounter := by
  rw [(takeIn_state t).1]
  split_ifs
  · exact .inl rfl
  · exact .inr rfl

/-- A data event leaves the sender alone, and the receive counter has grown by what was read, or is
zero. -/
theorem tcpStep_dataReceived_same (t : EmbTcp ι) (client : Option ι) (port : PortRead) :
    let r := tcpStep t (.event client (.dataReceived port))
    let n := if TcpOut.asked r.2 = 0 then 0 else ((port.read (TcpOut.asked r.2)).getD []).length
    SameTx r.1 t ∧ (r.1.rxPktCounter = 0 ∨ r.1.rxPktCounter = t.rxPktCounter + n) := by
  dsimp only
  rw [tcpStep_asked, tcpStep_dataReceived]
  by_cases hclean : (embTcpRxBufSize : ℤ) - t.rxPktCounter < t.currRxLength
  · rw [if_pos hclean]
    exact ⟨⟨rfl, rfl, rfl⟩, .inl rfl⟩
  rw [if_neg hclean, if_neg hclean]
  by_cases hzero : t.toBeRead = 0
  · obtain ⟨hbuf, hsize, hcounter⟩ := takeIn_sameTx ({ t with tcpClientId := client }.received [])
    rw [if_pos hzero, hzero]
    exact ⟨⟨hbuf, hsize, hcounter⟩, takeIn_counter _⟩
  rw [if_neg hzero]
  cases hread : port.read t.toBeRead.toNat with
  | none =>
    refine ⟨⟨rfl, rfl, rfl⟩, .inr ?_⟩
    split_ifs <;> rfl
  | some bytes =>
    obtain ⟨hbuf, hsize, hcounter⟩ :=
      takeIn_sameTx ({ t with tcpClientId := client }.received bytes)
    refine ⟨⟨hbuf, hsize, hcounter⟩, ?_⟩
    have hle := port.length_le hread
    rcases takeIn_counter ({ t with tcpClientId := client }.received bytes) with h | h
    · exact .inl h
    · refine .inr (h.trans ?_)
      simp only [EmbTcp.received, Option.getD_some]
      split_ifs <;> omega

end Transport

/-! ## What the port does to the connection -/

namespace EmbTcpViaTcpClient

/-- The connection may have gone down, and nothing else has changed. -/
structure Holds (s s' : EmbTcpViaTcpClient π) : Prop where
  eq : s' = { s with tcpClient := s'.tcpClient, openedFlag := s'.openedFlag }
  sockFd : s'.tcpClient.sockFd = s.tcpClient.sockFd
  opened : s'.openedFlag = true → s.openedFlag = true

variable {s : EmbTcpViaTcpClient π} {send : PortWrite}

theorem Holds.refl (s : EmbTcpViaTcpClient π) : s.Holds s := ⟨rfl, rfl, id⟩

theorem doUnconnect_holds (s : EmbTcpViaTcpClient π) : s.Holds s.doUnconnect := by
  unfold doUnconnect notified
  dsimp only
  split_ifs
  · exact ⟨rfl, rfl, fun h => absurd h Bool.false_ne_true⟩
  · exact ⟨rfl, rfl, id⟩

theorem readFromPort_holds (s : EmbTcpViaTcpClient π) (recv : PortRead) (size : ℕ) :
    s.Holds (s.readFromPort recv size).2 := by
  unfold readFromPort tcpClientRead
  split_ifs
  · exact .refl s
  · split
    · exact doUnconnect_holds s
    · exact doUnconnect_holds s
    · exact .refl s

theorem read_holds (s : EmbTcpViaTcpClient π) (recv : PortRead) : s.Holds (s.read recv).2 := by
  unfold read
  split_ifs
  · exact .refl s
  · exact readFromPort_holds s recv _

theorem tcpClientWrite_holds (s : EmbTcpViaTcpClient π) (send : PortWrite) (bytes : List Byte) :
    s.Holds (s.tcpClientWrite send bytes).2 := by
  unfold tcpClientWrite
  split_ifs
  · exact doUnconnect_holds s
  · exact .refl s

theorem tcpClientWrite_le (s : EmbTcpViaTcpClient π) (send : PortWrite) (bytes : List Byte) :
    (s.tcpClientWrite send bytes).1 ≤ bytes.length := by
  unfold tcpClientWrite
  split_ifs
  · exact Int.natCast_nonneg _
  · exact send.le_length bytes

theorem writeToPort_holds (s : EmbTcpViaTcpClient π) (send : PortWrite) (bytes : List Byte) :
    s.Holds (s.writeToPort send bytes).2 := by
  obtain ⟨heq, hsock, hopen⟩ := tcpClientWrite_holds s send bytes
  unfold writeToPort
  split_ifs
  · exact .refl s
  · exact .refl s
  · dsimp only
    split_ifs
    · refine ⟨?_, hsock, hopen⟩
      unfold tcpClientEnableWriteEvent
      rw [heq]
    · exact ⟨heq, hsock, hopen⟩

/-- The port takes no more than it is offered, and nothing once it is closed. -/
theorem writeToPort_le (s : EmbTcpViaTcpClient π) (send : PortWrite) (bytes : List Byte) :
    (s.writeToPort send bytes).1.toNat ≤ bytes.length
      ∧ (0 < (s.writeToPort send bytes).1 → s.openedFlag = true) := by
  have hle := tcpClientWrite_le s send bytes
  unfold writeToPort
  split_ifs with hclosed hnil
  · exact ⟨Nat.zero_le _, fun h => absurd h (lt_irrefl 0)⟩
  · exact ⟨Nat.zero_le _, fun h => absurd h (lt_irrefl 0)⟩
  · have hopen : s.openedFlag = true := by simpa using hclosed
    dsimp only
    split_ifs
    · exact ⟨by dsimp only; omega, fun _ => hopen⟩
    · exact ⟨by omega, fun _ => hopen⟩

theorem writeToPort_congr {s t : EmbTcpViaTcpClient π} (h : t.openedFlag = s.openedFlag)
    (send : PortWrite) (bytes : List Byte) :
    (t.writeToPort send bytes).1 = (s.writeToPort send bytes).1 := by
  unfold writeToPort tcpClientWrite
  rw [h]
  dsimp only
  split_ifs <;> rfl

/-- The transport has written on. -/
def advance (s : EmbTcpViaTcpClient π) (client : Option Unit) (n : ℕ) : EmbTcpViaTcpClient π :=
  { s with
    node.tcp.tcpClientId := client
    node.tcp.txPktCounter := s.node.tcp.txPktCounter + n
    sentOn := s.sentOn ++ List.replicate n s.tcpClient.sockFd
    written := s.written ++ [(s.tcpClient.sockFd,
      Mem.slice s.node.tcp.txBuf s.node.tcp.txPktCounter n)] }

/-- A write event of the transport. -/
theorem afterWrites_txBufEmpty {t : EmbTcpViaTcpClient π} (ht : t.openedFlag = s.openedFlag)
    (send : PortWrite) (client : Option Unit) :
    ∃ n, n ≤ s.node.tcp.txPktSize - s.node.tcp.txPktCounter ∧ (0 < n → s.openedFlag = true)
      ∧ (s.advance client n).Holds (s.afterWrites send (embTcpPortEvent s.node.tcp client
          (.txBufEmpty fun bytes => (t.writeToPort send bytes).1))) := by
  set offered := Mem.slice s.node.tcp.txBuf s.node.tcp.txPktCounter
    (s.node.tcp.txPktSize - s.node.tcp.txPktCounter) with hoffered
  set n := (s.writeToPort send offered).1.toNat with hn
  obtain ⟨hle, hopen⟩ := writeToPort_le s send offered
  rw [← hn, hoffered, Mem.length_slice] at hle
  set u : EmbTcpViaTcpClient π := { s with
    node.tcp.tcpClientId := client
    node.tcp.txPktCounter := s.node.tcp.txPktCounter + n } with hu
  have hafter : s.afterWrites send (embTcpPortEvent s.node.tcp client
      (.txBufEmpty fun bytes => (t.writeToPort send bytes).1)) = u.wrote send offered := by
    unfold afterWrites embTcpPortEvent
    simp only [← hoffered, writeToPort_congr ht]
    split_ifs with hpos
    · rfl
    · have hzero : n = 0 := by omega
      rw [hu, hzero]
      rfl
  have hval : (u.writeToPort send offered).1.toNat = n :=
    congrArg Int.toNat (writeToPort_congr (s := s) (t := u) rfl send offered)
  obtain ⟨heq, hsock, hdown⟩ := writeToPort_holds u send offered
  refine ⟨n, hle, fun h => hopen (by omega), ?_⟩
  rw [hafter]
  unfold wrote advance
  dsimp only
  rw [hval, hoffered, Mem.take_slice _ hle]
  refine ⟨?_, hsock, hdown⟩
  dsimp only
  rw [heq]

/-! ## The invariant -/

theorem IsRequest.mono {s s' : EmbTcpViaTcpClient π} (hle : s.requested <+: s'.requested)
    {bytes : List Byte} (h : s.IsRequest bytes) : s'.IsRequest bytes := by
  obtain ⟨id, p, hp, hfit, heq⟩ := h
  exact ⟨id, p, hle.subset hp, hfit, heq⟩

/-- What was written on the open connection is some frames and a part of the one in `tx_buf`. -/
def OpenedClean (s : EmbTcpViaTcpClient π) : Prop :=
  ∃ fs : List (List Byte), (∀ f ∈ fs, s.IsRequest f) ∧ s.writtenOn s.tcpClient.sockFd
    = fs.flatten ++ if s.tcpClient.sockFd ∈ s.sentOn
        ∧ s.node.tcp.txPktCounter < s.node.tcp.txPktSize then
      Mem.slice s.node.tcp.txBuf 0 s.node.tcp.txPktCounter else []

/-- What the steps that keep the connections apart preserve. -/
structure Inv (s : EmbTcpViaTcpClient π) : Prop where
  clean : s.StartsClean
  held_length : s.held.length = s.node.tcp.rxPktCounter
  held : ∃ sock, ∀ c ∈ s.held, c = sock
  sentOn_length : s.sentOn.length = s.node.tcp.txPktCounter
  counter : s.node.tcp.txPktCounter ≤ s.node.tcp.txPktSize
  frame : s.node.tcp.txPktSize ≠ 0 → s.IsRequest (Mem.slice s.node.tcp.txBuf 0 s.node.tcp.txPktSize)
  sentOn_le : ∀ c ∈ s.sentOn, c ≤ s.tcpClient.sockFd
  written_le : ∀ w ∈ s.written, w.1 ≤ s.tcpClient.sockFd
  opened : s.openedFlag = true → s.OpenedClean

/-- The connection goes down. -/
theorem Inv.holds {s s' : EmbTcpViaTcpClient π} (hs : s.Inv) (h : s.Holds s') : s'.Inv := by
  obtain ⟨heq, hsock, hdown⟩ := h
  rw [heq]
  refine ⟨⟨hs.clean.assembled, hs.clean.written⟩, hs.held_length, hs.held, hs.sentOn_length,
    hs.counter, hs.frame, ?_, ?_, fun hopen => ?_⟩
  · intro c hc
    exact (hs.sentOn_le c hc).trans_eq hsock.symm
  · intro w hw
    exact (hs.written_le w hw).trans_eq hsock.symm
  · obtain ⟨fs, hfs, hwritten⟩ := hs.opened (hdown hopen)
    refine ⟨fs, hfs, ?_⟩
    dsimp only
    rw [hsock]
    exact hwritten

theorem writtenOn_advance (s : EmbTcpViaTcpClient π) (client : Option Unit) (n sock : ℕ) :
    (s.advance client n).writtenOn sock = s.writtenOn sock ++
      if s.tcpClient.sockFd = sock then
        Mem.slice s.node.tcp.txBuf s.node.tcp.txPktCounter n else [] := by
  unfold writtenOn EmbTcpViaTcpClient.advance
  by_cases h : s.tcpClient.sockFd = sock
  · simp [h]
  · simp [h]

theorem OpenedClean.frames (h : s.OpenedClean)
    (hle : s.node.tcp.txPktCounter ≤ s.node.tcp.txPktSize) (hframe : s.node.tcp.txPktSize ≠ 0 →
      s.IsRequest (Mem.slice s.node.tcp.txBuf 0 s.node.tcp.txPktSize)) :
    ∃ fs : List (List Byte), (∀ f ∈ fs, s.IsRequest f)
      ∧ s.writtenOn s.tcpClient.sockFd <+: fs.flatten := by
  obtain ⟨fs, hfs, hwritten⟩ := h
  rw [hwritten]
  split_ifs with hpart
  · have hreq := hframe (by omega)
    refine ⟨fs ++ [Mem.slice s.node.tcp.txBuf 0 s.node.tcp.txPktSize], ?_, ?_⟩
    · intro f hf
      rcases List.mem_append.1 hf with hf | hf
      · exact hfs f hf
      · rw [List.mem_singleton.1 hf]
        exact hreq
    · rw [List.flatten_append, List.flatten_singleton, List.prefix_append_right_inj,
        ← Mem.take_slice _ hle]
      exact List.take_prefix _ _
  · rw [List.append_nil]
    exact ⟨fs, hfs, List.prefix_rfl⟩

/-- The frame in `tx_buf` is written on. -/
theorem Inv.advance_opened (hs : s.Inv) (client : Option Unit) {n : ℕ}
    (hn : n ≤ s.node.tcp.txPktSize - s.node.tcp.txPktCounter) (hopen : s.openedFlag = true)
    (hown : s.node.tcp.txPktCounter < s.node.tcp.txPktSize →
      ∀ c ∈ s.sentOn, c = s.tcpClient.sockFd) : (s.advance client n).OpenedClean := by
  obtain ⟨fs, hfs, hwritten⟩ := hs.opened hopen
  have happend : (s.advance client n).writtenOn s.tcpClient.sockFd
      = s.writtenOn s.tcpClient.sockFd
        ++ Mem.slice s.node.tcp.txBuf s.node.tcp.txPktCounter n :=
    (writtenOn_advance s client n _).trans (by rw [if_pos rfl])
  unfold OpenedClean
  rcases Nat.lt_or_ge s.node.tcp.txPktCounter s.node.tcp.txPktSize with hlt | hge
  · -- all of the frame that is written was written on this connection
    have hnow : s.writtenOn s.tcpClient.sockFd
        = fs.flatten ++ Mem.slice s.node.tcp.txBuf 0 s.node.tcp.txPktCounter := by
      rw [hwritten]
      split_ifs with hpart
      · rfl
      · have hnil : s.sentOn = [] := by
          refine List.eq_nil_iff_forall_not_mem.2 fun c hc => hpart ⟨?_, hlt⟩
          rw [← hown hlt c hc]
          exact hc
        rw [← hs.sentOn_length, hnil, List.length_nil, Mem.slice_zero]
    have hnext : (s.advance client n).writtenOn s.tcpClient.sockFd
        = fs.flatten ++ Mem.slice s.node.tcp.txBuf 0 (s.node.tcp.txPktCounter + n) := by
      rw [happend, hnow, List.append_assoc, Mem.slice_add, Nat.zero_add]
    rcases Nat.lt_or_ge (s.node.tcp.txPktCounter + n) s.node.tcp.txPktSize with hlt' | hge'
    · refine ⟨fs, hfs, hnext.trans ?_⟩
      split_ifs with hpart
      · rfl
      · have hzero : s.node.tcp.txPktCounter + n = 0 := by
          have hmem : s.tcpClient.sockFd ∉ s.sentOn ++ List.replicate n s.tcpClient.sockFd :=
            fun hmem => hpart ⟨hmem, hlt'⟩
          have hnil : s.sentOn ++ List.replicate n s.tcpClient.sockFd = [] := by
            refine List.eq_nil_iff_forall_not_mem.2 fun c hc => hmem ?_
            have heq : c = s.tcpClient.sockFd := by
              rcases List.mem_append.1 hc with hc | hc
              · exact hown hlt c hc
              · exact List.eq_of_mem_replicate hc
            rwa [heq] at hc
          have hlen := congrArg List.length hnil
          simpa [hs.sentOn_length] using hlen
        rw [hzero, Mem.slice_zero]
    · have hsize : s.node.tcp.txPktCounter + n = s.node.tcp.txPktSize := by omega
      refine ⟨fs ++ [Mem.slice s.node.tcp.txBuf 0 s.node.tcp.txPktSize], ?_, hnext.trans ?_⟩
      · intro f hf
        rcases List.mem_append.1 hf with hf | hf
        · exact hfs f hf
        · rw [List.mem_singleton.1 hf]
          exact hs.frame (by omega)
      · rw [if_neg (fun hpart => absurd hpart.2 (Nat.not_lt.2 hge')), hsize]
        simp
  · have hzero : n = 0 := by omega
    refine ⟨fs, hfs, happend.trans ?_⟩
    rw [hzero, Mem.slice_zero, List.append_nil, hwritten,
      if_neg fun hpart => absurd hpart.2 (Nat.not_lt.2 hge),
      if_neg fun hpart => absurd hpart.2 (Nat.not_lt.2 hge)]

theorem Inv.advance (hs : s.Inv) (client : Option Unit) {n : ℕ}
    (hn : n ≤ s.node.tcp.txPktSize - s.node.tcp.txPktCounter) (hopen : 0 < n → s.openedFlag = true)
    (hown : s.openedFlag = true → s.node.tcp.txPktCounter < s.node.tcp.txPktSize →
      ∀ c ∈ s.sentOn, c = s.tcpClient.sockFd) : (s.advance client n).Inv := by
  have hle : s.node.tcp.txPktCounter + n ≤ s.node.tcp.txPktSize := by
    have := hs.counter
    omega
  have hopened (h : s.openedFlag = true) : (s.advance client n).OpenedClean :=
    hs.advance_opened client hn h (hown h)
  refine ⟨⟨hs.clean.assembled, fun sock => ?_⟩, hs.held_length, hs.held, ?_, hle, hs.frame, ?_, ?_,
    hopened⟩
  · by_cases hnew : 0 < n ∧ s.tcpClient.sockFd = sock
    · obtain ⟨hpos, rfl⟩ := hnew
      exact (hopened (hopen hpos)).frames hle hs.frame
    · obtain ⟨fs, hfs, hpre⟩ := hs.clean.written sock
      refine ⟨fs, hfs, ?_⟩
      have hnil : (if s.tcpClient.sockFd = sock then
          Mem.slice s.node.tcp.txBuf s.node.tcp.txPktCounter n else []) = [] := by
        split_ifs with hsock
        · have hzero : n = 0 := by
            by_contra hne
            exact hnew ⟨Nat.pos_of_ne_zero hne, hsock⟩
          rw [hzero, Mem.slice_zero]
        · rfl
      rw [writtenOn_advance, hnil, List.append_nil]
      exact hpre
  · unfold EmbTcpViaTcpClient.advance
    simp [hs.sentOn_length]
  · intro c hc
    rcases List.mem_append.1 hc with hc | hc
    · exact hs.sentOn_le c hc
    · exact (List.eq_of_mem_replicate hc).le
  · intro w hw
    rcases List.mem_append.1 hw with hw | hw
    · exact hs.written_le w hw
    · rw [List.mem_singleton.1 hw]
      exact le_rfl

/-- A write event of the transport keeps the connections apart, if what is written of the frame was
written on the open one. -/
theorem Inv.transmit (hs : s.Inv) {t : EmbTcpViaTcpClient π} (ht : t.openedFlag = s.openedFlag)
    (send : PortWrite) (client : Option Unit)
    (hown : s.openedFlag = true → s.node.tcp.txPktCounter < s.node.tcp.txPktSize →
      ∀ c ∈ s.sentOn, c = s.tcpClient.sockFd) :
    (s.afterWrites send (embTcpPortEvent s.node.tcp client
      (.txBufEmpty fun bytes => (t.writeToPort send bytes).1))).Inv := by
  obtain ⟨n, hn, hopen, hholds⟩ := afterWrites_txBufEmpty ht send client
  exact (hs.advance client hn hopen hown).holds hholds

/-- The frame of a packet is put into `tx_buf`. -/
def load (s : EmbTcpViaTcpClient π) (p : ℤ × EmbPdu) : EmbTcpViaTcpClient π :=
  { s with
    node.tcp.txBuf := buildFrame s.node.tcp p.1 p.2
    node.tcp.txPktSize := p.2.dataSize.toNat + 2 + 6
    node.tcp.txPktCounter := 0
    sentOn := []
    requested := s.requested ++ [p] }

theorem StartsClean.mono {s s' : EmbTcpViaTcpClient π} (hs : s.StartsClean)
    (hle : s.requested <+: s'.requested) (hassembled : s'.assembled = s.assembled)
    (hwritten : s'.written = s.written) : s'.StartsClean := by
  constructor
  · rw [hassembled]
    exact hs.assembled
  · intro sock
    obtain ⟨fs, hfs, hpre⟩ := hs.written sock
    refine ⟨fs, fun f hf => (hfs f hf).mono hle, ?_⟩
    unfold writtenOn at hpre ⊢
    rw [hwritten]
    exact hpre

theorem Inv.load (hs : s.Inv) {p : ℤ × EmbPdu} (hfit : p.2.dataSize.toNat ≤ maxPduDataSize)
    (hbetween : s.BetweenFrames) : (s.load p).Inv := by
  have hmore : s.requested <+: (s.load p).requested := List.prefix_append _ _
  refine ⟨hs.clean.mono hmore rfl rfl, hs.held_length, hs.held, rfl, Nat.zero_le _, fun _ => ?_, ?_,
    hs.written_le, fun hopen => ?_⟩
  · refine ⟨s.node.tcp.outId, p, List.mem_append_right _ List.mem_cons_self, hfit, ?_⟩
    have hsize : p.2.dataSize.toNat + 2 + 6 = 8 + p.2.dataSize.toNat := by omega
    refine (congrArg (Mem.slice _ 0) hsize).trans ?_
    exact slice_buildFrame s.node.tcp p.1 p.2
  · intro c hc
    cases hc
  · obtain ⟨fs, hfs, hwritten⟩ := hs.opened hopen
    refine ⟨fs, fun f hf => (hfs f hf).mono hmore, hwritten.trans ?_⟩
    have hdone : ¬ (s.tcpClient.sockFd ∈ s.sentOn
        ∧ s.node.tcp.txPktCounter < s.node.tcp.txPktSize) :=
      fun h => absurd (hbetween hopen h.1) h.2.ne
    have hnew : s.tcpClient.sockFd ∉ ([] : List ℕ) := List.not_mem_nil
    rw [if_neg hdone, if_neg fun h => hnew h.1]

theorem sendPacket_eq_load {p : ℤ × EmbPdu} (hfit : p.2.dataSize.toNat ≤ maxPduDataSize) :
    s.sendPacket send p = (s.load p).afterWrites send
      (embTcpPortEvent (s.load p).node.tcp s.node.tcp.tcpClientId
        (.txBufEmpty fun bytes => (s.writeToPort send bytes).1)) := by
  unfold sendPacket modbusTcpSendPacket
  rw [if_pos hfit]
  dsimp only
  rw [if_pos rfl]
  rfl

theorem sendPacket_refused {p : ℤ × EmbPdu} (hfit : ¬ p.2.dataSize.toNat ≤ maxPduDataSize) :
    s.sendPacket send p = { s with requested := s.requested ++ [p] } := by
  have hne : -modbusBufferOverflow ≠ 0 := by decide
  unfold sendPacket modbusTcpSendPacket
  rw [if_neg hfit]
  dsimp only
  rw [if_neg hne]
  rfl

/-- A packet is sent. -/
theorem Inv.sendPacket (hs : s.Inv) (send : PortWrite) {p : ℤ × EmbPdu}
    (hbetween : p.2.dataSize.toNat ≤ maxPduDataSize → s.BetweenFrames) :
    (s.sendPacket send p).Inv := by
  by_cases hfit : p.2.dataSize.toNat ≤ maxPduDataSize
  · have hload := hs.load hfit (hbetween hfit)
    have hnone : ∀ c ∈ (s.load p).sentOn, c = (s.load p).tcpClient.sockFd := by
      intro c hc
      cases hc
    have hopened : s.openedFlag = (s.load p).openedFlag := rfl
    rw [sendPacket_eq_load hfit]
    exact hload.transmit hopened send _ fun _ _ => hnone
  · have hmore : s.requested <+: s.requested ++ [p] := List.prefix_append _ _
    rw [sendPacket_refused hfit]
    refine ⟨hs.clean.mono hmore rfl rfl, hs.held_length, hs.held, hs.sentOn_length, hs.counter,
      fun h => (hs.frame h).mono hmore, hs.sentOn_le, hs.written_le, fun hopen => ?_⟩
    obtain ⟨fs, hfs, hwritten⟩ := hs.opened hopen
    exact ⟨fs, fun f hf => (hfs f hf).mono hmore, hwritten⟩

/-- An event of the client. -/
theorem Inv.clientEvent (hs : s.Inv) {user : ClientUser π} {i : ClientInput π}
    (hbetween : s.SendsBetween user send i) : (s.clientEvent user send i).Inv := by
  have hrun : ({ s with node.run := Emodbus.clientEvent user s.node.run i }
      : EmbTcpViaTcpClient π).Inv :=
    ⟨⟨hs.clean.assembled, hs.clean.written⟩, hs.held_length, hs.held, hs.sentOn_length, hs.counter,
      hs.frame, hs.sentOn_le, hs.written_le, hs.opened⟩
  exact run_inv (P := Inv) (fun s p hs h => hs.sendPacket send h) _ _ hrun hbetween

/-- A data event that reads nothing behind another connection's bytes. -/
theorem Inv.takeIn [DecidableEq π] (hs : s.Inv) (recv : PortRead)
    (hown : (s.read recv).1 ≠ [] → ∀ c ∈ s.held, c = s.tcpClient.sockFd) :
    (s.takeIn recv).1.Inv := by
  obtain ⟨heq, hsock, hdown⟩ := read_holds s recv
  obtain ⟨⟨hbuf, hsize, hcounter⟩, hcount⟩ :=
    tcpStep_dataReceived_same s.node.view none (s.port recv)
  have hread : (if s.asks recv = 0 then 0
      else (((s.port recv).read (s.asks recv)).getD []).length) = (s.read recv).1.length := by
    unfold read port
    split_ifs <;> rfl
  change _ ∨ _ = _ + (if s.asks recv = 0 then 0
      else (((s.port recv).read (s.asks recv)).getD []).length) at hcount
  rw [hread] at hcount
  -- what is read comes from the connection that the rest of the buffer came from
  have hheld : ∃ sock, ∀ c ∈ s.held ++ List.replicate (s.read recv).1.length s.tcpClient.sockFd,
      c = sock := by
    by_cases hnil : (s.read recv).1 = []
    · obtain ⟨sock, hsock⟩ := hs.held
      refine ⟨sock, fun c hc => hsock c ?_⟩
      simpa [hnil] using hc
    · refine ⟨s.tcpClient.sockFd, fun c hc => ?_⟩
      rcases List.mem_append.1 hc with hc | hc
      · exact hown hnil c hc
      · exact List.eq_of_mem_replicate hc
  have hinv := hs.holds ⟨heq, hsock, hdown⟩
  unfold EmbTcpViaTcpClient.takeIn
  dsimp only
  rw [heq] at hinv ⊢
  set r := tcpStep s.node.view (.event none (.dataReceived (s.port recv))) with hr
  refine ⟨⟨?_, hs.clean.written⟩, ?_, ?_, ?_, ?_, ?_, hinv.sentOn_le, hinv.written_le, ?_⟩
  · intro socks hsocks
    rcases List.mem_append.1 hsocks with hsocks | hsocks
    · exact hs.clean.assembled socks hsocks
    · obtain ⟨packet, -, rfl⟩ := List.mem_map.1 hsocks
      obtain ⟨sock, hsock⟩ := hheld
      exact ⟨sock, fun c hc => hsock c (List.mem_of_mem_take hc)⟩
  · dsimp only [ClientNode.afterRead]
    split_ifs with hzero
    · exact hzero.symm
    · have hgrown : r.1.rxPktCounter = s.node.tcp.rxPktCounter + (s.read recv).1.length :=
        hcount.resolve_left hzero
      rw [List.length_append, List.length_replicate, hs.held_length, hgrown]
  · dsimp only
    split_ifs
    · exact ⟨0, fun c hc => by cases hc⟩
    · exact hheld
  · exact hs.sentOn_length.trans hcounter.symm
  · exact hcounter.trans_le (hs.counter.trans_eq hsize.symm)
  · intro h
    have hframe := hs.frame (fun hz => h (hsize.trans hz))
    have hslice : Mem.slice r.1.txBuf 0 r.1.txPktSize
        = Mem.slice s.node.tcp.txBuf 0 s.node.tcp.txPktSize := by
      rw [hbuf, hsize]
      rfl
    exact hslice ▸ hframe
  · intro hopen
    obtain ⟨fs, hfs, hwritten⟩ := hinv.opened hopen
    refine ⟨fs, hfs, hwritten.trans ?_⟩
    simp only [ClientNode.afterRead, hbuf, hsize, hcounter]
    rfl

theorem doConnect_eq (s : EmbTcpViaTcpClient π) (connects : Bool) :
    ∃ c o, c.sockFd = s.tcpClient.sockFd + 1
      ∧ s.doConnect connects = { s with tcpClient := c, openedFlag := o } := by
  cases connects with
  | true =>
    unfold doConnect
    dsimp only
    rw [if_pos rfl]
    split_ifs
    · exact ⟨_, _, rfl, rfl⟩
    · exact ⟨_, _, rfl, rfl⟩
  | false =>
    unfold doConnect
    dsimp only
    obtain ⟨heq, hsock, -⟩ :=
      doUnconnect_holds { s with tcpClient.sockFd := s.tcpClient.sockFd + 1 }
    exact ⟨_, _, hsock, heq⟩

/-- On a socket that has just been opened nothing has been written. -/
theorem Inv.doConnect (hs : s.Inv) (connects : Bool) : (s.doConnect connects).Inv := by
  obtain ⟨c, o, hsock, heq⟩ := doConnect_eq s connects
  rw [heq]
  refine ⟨⟨hs.clean.assembled, hs.clean.written⟩, hs.held_length, hs.held, hs.sentOn_length,
    hs.counter, hs.frame, ?_, ?_, fun _ => ⟨[], by simp, ?_⟩⟩
  · intro d hd
    have hle := hs.sentOn_le d hd
    dsimp only
    omega
  · intro w hw
    have hle := hs.written_le w hw
    dsimp only
    omega
  · have hnone : s.written.filter (fun w => w.1 = c.sockFd) = [] := by
      refine List.filter_eq_nil_iff.2 fun w hw => ?_
      have hle := hs.written_le w hw
      simp only [decide_eq_true_eq]
      omega
    have hnew : c.sockFd ∉ s.sentOn := by
      intro hmem
      have hle := hs.sentOn_le _ hmem
      omega
    unfold writtenOn
    dsimp only
    rw [hnone, if_neg fun h => hnew h.1]
    rfl

theorem inv_create (onResponse onError : Bool) (pdus : π → EmbPdu) :
    (create onResponse onError pdus).Inv where
  clean := ⟨fun _ h => absurd h List.not_mem_nil,
    fun _ => ⟨[], fun _ h => absurd h List.not_mem_nil, List.nil_prefix⟩⟩
  held_length := rfl
  held := ⟨0, fun _ h => by cases h⟩
  sentOn_length := rfl
  counter := Nat.zero_le _
  frame h := absurd rfl h
  sentOn_le _ h := by cases h
  written_le _ h := by cases h
  opened h := by cases h

variable [DecidableEq π] {user : ClientUser π}

/-- A step that keeps the connections apart. -/
theorem Inv.step (hs : s.Inv) {i : ViaTcpInput π} (hi : s.KeepsApart user i) :
    (s.step user i).1.Inv := by
  unfold KeepsApart at hi
  unfold EmbTcpViaTcpClient.step
  cases i with
  | timer connects =>
    dsimp only
    split_ifs
    · exact hs
    · exact hs.doConnect connects
  | dataReceived recv send =>
    dsimp only
    split_ifs with hconn
    · obtain ⟨hown, hbetween⟩ := hi hconn
      unfold EmbTcpViaTcpClient.dataReceived
      refine run_inv (P := Inv) ?_ _ _ (hs.takeIn recv hown) hbetween
      exact fun _ _ hs h => hs.clientEvent h
    · exact hs
  | dataSent send =>
    dsimp only
    split_ifs with hevent
    · have hraised : s.Holds { s with tcpClient.writeEvent := false } := ⟨rfl, rfl, id⟩
      exact (hs.holds hraised).transmit rfl send none (hi hevent)
    · exact hs
  | doTransaction slaveAddr transact send => exact hs.clientEvent hi
  | waitTimeout send => exact hs.clientEvent hi

end EmbTcpViaTcpClient

open EmbTcpViaTcpClient

/-- Every run that keeps the connections apart starts each of them clean. -/
theorem connections_start_clean [DecidableEq π] (user : ClientUser π) (onResponse onError : Bool)
    (pdus : π → EmbPdu) (is : List (ViaTcpInput π))
    (h : Along (step user) (KeepsApart user) (create onResponse onError pdus) is) :
    (run (step user) (create onResponse onError pdus) is).1.StartsClean :=
  (run_inv (P := Inv) (fun _ _ hs hi => hs.step hi) is _ (inv_create onResponse onError pdus)
    h).clean

/-- A socket that takes this many bytes at most. -/
def PortWrite.atMost (n : ℕ) : PortWrite where
  send bytes := min n bytes.length
  le_length _ := min_le_right _ _

/-- A register is read from address 0. -/
def readOneReg : EmbClientTransaction Unit :=
  ⟨⟨3, 4, 4, fun i => if i = 3 then 1 else 0⟩, some (), none⟩

/-- The answer to the first request. -/
def oneRegAnswer : List Byte := [0, 1, 0, 0, 0, 5, 1, 3, 2, 0, 7]

/-- A request written in two parts, its answer read in two, and another request on the next
connection. -/
def twoConnections : List (ViaTcpInput Unit) :=
  [.timer true, .doTransaction 1 readOneReg (.atMost 5), .dataSent (.atMost 12),
    .dataReceived (.upTo (oneRegAnswer.take 5)) (.atMost 0),
    .dataReceived (.upTo (oneRegAnswer.drop 5)) (.atMost 0),
    .dataReceived (.upTo []) (.atMost 0), .timer true, .doTransaction 1 readOneReg (.atMost 12)]

/-- The client that the runs below start from. -/
def reconnecting : EmbTcpViaTcpClient Unit := create true true fun _ => ⟨0, 0, 253, fun _ => 0⟩

theorem two_connections_start_clean :
    (run (step fun _ => []) reconnecting twoConnections).1.StartsClean :=
  connections_start_clean (fun _ => []) true true (fun _ => ⟨0, 0, 253, fun _ => 0⟩) twoConnections
    (by decide +kernel)

/-- The connection goes down with a part of the request written. -/
def requestCut : List (ViaTcpInput Unit) :=
  [.timer true, .doTransaction 1 readOneReg (.atMost 5), .dataReceived (.upTo []) (.atMost 0),
    .timer true, .dataSent (.atMost 12)]

/-- The connection goes down with a part of the answer received. -/
def answerCut : List (ViaTcpInput Unit) :=
  [.timer true, .doTransaction 1 readOneReg (.atMost 12),
    .dataReceived (.upTo (oneRegAnswer.take 5)) (.atMost 0),
    .dataReceived (.upTo []) (.atMost 0), .timer true,
    .dataReceived (.upTo (oneRegAnswer.drop 5)) (.atMost 0)]

/-- The protocol identifier of the first frame. -/
theorem IsRequest.third_byte {s : EmbTcpViaTcpClient π} {fs : List (List Byte)}
    (hfs : ∀ f ∈ fs, s.IsRequest f) {bytes : List Byte} (h : bytes <+: fs.flatten)
    (hlen : 2 < bytes.length) : bytes[2]? = some 0 := by
  obtain ⟨rest, hrest⟩ := h
  cases fs with
  | nil =>
    have hnil := congrArg List.length hrest
    simp only [List.length_append, List.flatten_nil, List.length_nil] at hnil
    omega
  | cons f fs =>
    obtain ⟨id, p, -, -, rfl⟩ := hfs _ List.mem_cons_self
    rw [← List.getElem?_append_left hlen, hrest]
    rfl

/-- What is left of a cut frame goes out first on the next connection, and a packet is assembled
from both ends of a cut answer. -/
theorem cut_frames_continue :
    ¬ (run (step fun _ => []) reconnecting requestCut).1.StartsClean
      ∧ ¬ (run (step fun _ => []) reconnecting answerCut).1.StartsClean := by
  constructor
  · intro h
    obtain ⟨fs, hfs, hpre⟩ := h.written 2
    have hbyte := IsRequest.third_byte hfs hpre (by decide +kernel)
    exact absurd hbyte (by decide +kernel)
  · intro h
    have hall : ∀ socks ∈ (run (step fun _ => []) reconnecting answerCut).1.assembled,
        ∀ c ∈ socks, ∀ d ∈ socks, c = d := by
      intro socks hsocks c hc d hd
      obtain ⟨sock, hsock⟩ := h.assembled socks hsocks
      rw [hsock c hc, hsock d hd]
    exact absurd hall (by decide +kernel)

end Emodbus
