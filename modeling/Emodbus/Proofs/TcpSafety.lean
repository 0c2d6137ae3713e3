import Emodbus.Proofs.TcpReceiver

/-!
# What no peer can make the receiver do, and what it can

A copy is out of range exactly when a packet with a length field of 1 is accepted: one less for the
unit id and one less for the function leaves a length of -1.

The receiver stops reading for good exactly when a header announces more than a whole buffer of
bytes still to come: the event after it cleans the buffer and leaves `curr_rx_length` as it is, and
so does every later one.
-/

namespace Emodbus

open Octets Mealy

variable {ι : Type}

theorem tcpStep_copies_inRange_iff (s : EmbTcp ι) (i : TcpInput ι) :
    (∀ c ∈ TcpOut.copies (tcpStep s i).2, c.InRange)
      ↔ ∀ r ∈ s.parsed i, r.Accepts → swapBytes (EmbTcp.mbapLength r.rxBuf) ≠ 1 := by
  cases h : s.parsed i with
  | none =>
    rw [(tcpStep_of_not_parsed h).1]
    simp
  | some r =>
    rw [(tcpStep_of_parsed h).2.1, parsePacket_copies_inRange_iff]
    simp

/-- In every run, all payload copies are in range if and only if no packet that is accepted has a
length field of 1. -/
theorem run_copies_inRange_iff (t : EmbTcp ι) (ins : List (TcpInput ι)) :
    (∀ os ∈ (run tcpStep (embTcpInitialize t) ins).2, ∀ c ∈ TcpOut.copies os, c.InRange)
      ↔ Along tcpStep (fun s i => ∀ r ∈ s.parsed i, r.Accepts →
          swapBytes (EmbTcp.mbapLength r.rxBuf) ≠ 1) (embTcpInitialize t) ins :=
  run_out_iff tcpStep_copies_inRange_iff ins (embTcpInitialize t)

/-- A server with a PDU gets a frame whose length field is 1. -/
theorem length_one_copies_out_of_range :
    ¬ ∀ os ∈ (run tcpStep
        (embTcpInitialize (EmbTcp.zeroed Unit ⟨some ⟨0, 0, 253, fun _ => 0⟩, true⟩))
        [.event none (.dataReceived (.upTo [0, 0, 0, 0, 0, 1, 1, 3, 0]))]).2,
      ∀ c ∈ TcpOut.copies os, c.InRange := by
  intro h
  have hc := h _ (List.mem_singleton.2 rfl) ⟨-1, 255, 253, 1, 9⟩ (List.mem_singleton.2 rfl)
  exact absurd hc.nonneg (by simp)

/-! ## Recovery -/

/-- The receiver's fields between two events. -/
structure RxInv (s : EmbTcp ι) : Prop where
  counter_lt : s.rxPktCounter < embTcpRxBufSize
  counter_eq : s.currRxLength = 0 → s.rxPktCounter = 0

theorem parsed_counter_le {s r : EmbTcp ι} {i : TcpInput ι} (hs : RxInv s)
    (h : s.parsed i = some r) : r.rxPktCounter ≤ embTcpRxBufSize := by
  match i with
  | .high f => simp [EmbTcp.parsed] at h
  | .event client (.txBufEmpty wrote) => simp [EmbTcp.parsed] at h
  | .event client .lastRxTimeout => simp [EmbTcp.parsed] at h
  | .event client (.dataReceived port) =>
    have hlt := hs.counter_lt
    have hread : { s with tcpClientId := client }.toBeRead = s.toBeRead := rfl
    simp only [EmbTcp.parsed, hread] at h
    split_ifs at h with hclean h0
    · simp only [Option.some.injEq] at h
      subst h
      exact hlt.le
    · obtain ⟨bytes, hb, rfl⟩ := Option.map_eq_some_iff.1 h
      have hlen := port.length_le hb
      unfold EmbTcp.toBeRead at hlen
      simp only [EmbTcp.received]
      split_ifs at hlen <;> omega

theorem RxInv.step {s : EmbTcp ι} (hs : RxInv s) (i : TcpInput ι) : RxInv (tcpStep s i).1 := by
  cases h : s.parsed i with
  | none =>
    obtain ⟨hc, hn⟩ := tcpStep_of_not_parsed_state h
    have hlt := hs.counter_lt
    have heq := hs.counter_eq
    exact ⟨by omega, by omega⟩
  | some r =>
    have hle := parsed_counter_le hs h
    obtain ⟨hn, hc⟩ := takeIn_state r
    rw [(tcpStep_of_parsed h).1]
    constructor
    · rw [hn]
      split_ifs <;> simp only [embTcpRxBufSize] at * <;> omega
    · intro h0
      rw [hc] at h0
      rw [hn]
      split_ifs at h0 ⊢ <;> omega

/-- A data event that cleans the buffer leaves `curr_rx_length` as it is. -/
theorem tcpStep_clean {s : EmbTcp ι} (h : (embTcpRxBufSize : ℤ) - s.rxPktCounter < s.currRxLength)
    (client : Option ι) (port : PortRead) :
    tcpStep s (.event client (.dataReceived port))
      = ({ s with tcpClientId := client, rxPktCounter := 0 }, []) := by
  rw [tcpStep_dataReceived, if_pos h]

/-- Between two events, the receiver recovers if and only if no more than a whole buffer is
outstanding. -/
theorem recovers_iff_curr_le {s : EmbTcp ι} (hs : RxInv s) :
    s.Recovers ↔ s.currRxLength ≤ embTcpRxBufSize := by
  have hlt := hs.counter_lt
  constructor
  · intro h
    by_contra hgt
    have hclean : (embTcpRxBufSize : ℤ) - s.rxPktCounter < s.currRxLength := by omega
    have hclean' : (embTcpRxBufSize : ℤ) - (0 : ℕ) < s.currRxLength := by omega
    have hread := h none ⟨fun _ => none, by simp⟩ none ⟨fun _ => none, by simp⟩
    simp only [tcpStep_clean hclean] at hread
    rw [tcpStep_clean (by exact hclean')] at hread
    simp [TcpOut.asked] at hread
  · intro hle c₁ p₁ c₂ p₂
    dsimp only
    by_cases hclean : (embTcpRxBufSize : ℤ) - s.rxPktCounter < s.currRxLength
    -- a cleaned buffer has room for what is outstanding
    · right
      rw [tcpStep_clean hclean, tcpStep_asked]
      unfold EmbTcp.toBeRead
      dsimp only
      rw [if_neg (by omega), if_pos (by omega)]
      omega
    rw [tcpStep_asked, if_neg hclean]
    by_cases h0 : s.currRxLength = 0
    -- nothing outstanding: the event only gives `curr_rx_length` up
    · right
      have hcnt := hs.counter_eq h0
      have hread : s.toBeRead = 0 := by
        unfold EmbTcp.toBeRead
        rw [if_pos (by omega), h0]
      have hstep : tcpStep s (.event c₁ (.dataReceived p₁))
          = takeIn ({ s with tcpClientId := c₁ }.received []) := by
        rw [tcpStep_dataReceived, if_neg hclean, if_pos hread]
      obtain ⟨hn, hc⟩ := takeIn_state ({ s with tcpClientId := c₁ }.received [])
      have hz : ({ s with tcpClientId := c₁ }.received []).rxPktCounter = 0 := hcnt
      rw [hz, ite_self] at hn
      rw [hz, if_neg (by omega)] at hc
      rw [hstep, tcpStep_asked]
      unfold EmbTcp.toBeRead
      rw [hn, hc]
      decide
    · left
      unfold EmbTcp.toBeRead
      split_ifs <;> omega

theorem step_curr_le_iff {s : EmbTcp ι} (hle : s.currRxLength ≤ embTcpRxBufSize)
    (i : TcpInput ι) :
    (tcpStep s i).1.currRxLength ≤ embTcpRxBufSize
      ↔ ∀ r ∈ s.parsed i, 9 ≤ r.rxPktCounter →
          EmbTcp.frameEnd r.rxBuf ≤ r.rxPktCounter + embTcpRxBufSize := by
  cases h : s.parsed i with
  | none =>
    obtain ⟨hc, -⟩ := tcpStep_of_not_parsed_state h
    simp only [Option.mem_def, reduceCtorEq, false_implies, implies_true, iff_true]
    simp only [embTcpRxBufSize] at *
    omega
  | some r =>
    rw [(tcpStep_of_parsed h).1, (takeIn_state r).2]
    simp only [Option.mem_def, Option.some.injEq, forall_eq']
    simp only [embTcpRxBufSize] at *
    split_ifs with h9
    · simp only [h9, true_implies]
      omega
    · simp only [h9, false_implies, iff_true]
      omega

theorem rxInv_start (ι : Type) (tr : EmbTransport) :
    RxInv (embTcpInitialize (EmbTcp.zeroed ι tr)) :=
  ⟨show 0 < embTcpRxBufSize by decide, fun h => by simp [embTcpInitialize] at h⟩

/-- In every run the receiver recovers in all the states it goes through if and only if every
header it parses ends its frame within a whole buffer behind what has been received. -/
theorem run_recovers_iff (tr : EmbTransport) (ins : List (TcpInput ι)) :
    (∀ pre, pre <+: ins → (run tcpStep (embTcpInitialize (EmbTcp.zeroed ι tr)) pre).1.Recovers)
      ↔ Along tcpStep (fun s i => ∀ r ∈ s.parsed i, embTcpMbapSize + 2 ≤ r.rxPktCounter →
          EmbTcp.frameEnd r.rxBuf ≤ r.rxPktCounter + embTcpRxBufSize)
        (embTcpInitialize (EmbTcp.zeroed ι tr)) ins := by
  have hinv (pre : List (TcpInput ι)) :
      RxInv (run tcpStep (embTcpInitialize (EmbTcp.zeroed ι tr)) pre).1 :=
    run_inv (Q := fun _ _ => True) (fun s i hs _ => hs.step i) pre _ (rxInv_start ι tr)
      (along_of_forall (P := fun _ => True) fun _ _ => trivial)
  have hstart : (embTcpInitialize (EmbTcp.zeroed ι tr)).currRxLength ≤ embTcpRxBufSize :=
    show (-1 : ℤ) ≤ embTcpRxBufSize by simp
  have hiff := run_states_iff (A := fun _ => True) (I := RxInv)
    (P := fun s : EmbTcp ι => s.currRxLength ≤ embTcpRxBufSize)
    (fun s i _ hs => hs.step i) (fun s i _ _ hle => step_curr_le_iff hle i) ins
    (embTcpInitialize (EmbTcp.zeroed ι tr)) (fun _ _ => trivial) (rxInv_start ι tr) hstart
  refine Iff.trans ?_ hiff
  constructor
  · intro h pre hpre
    exact (recovers_iff_curr_le (hinv pre)).1 (h pre hpre)
  · intro h pre hpre
    exact (recovers_iff_curr_le (hinv pre)).2 (h pre hpre)

/-- A length field of 65535, and no event asks for a byte any more. -/
theorem long_header_never_recovers :
    ¬ (run tcpStep (embTcpInitialize (EmbTcp.zeroed Unit ⟨none, true⟩))
        [.event none (.dataReceived (.upTo [0, 0, 0, 0, 255, 255, 1, 3, 0]))]).1.Recovers := by
  have hinv := (rxInv_start Unit ⟨none, true⟩).step
    (.event none (.dataReceived (.upTo [0, 0, 0, 0, 255, 255, 1, 3, 0])))
  have hiff := recovers_iff_curr_le hinv
  intro h
  exact absurd (hiff.1 h) (by decide)

end Emodbus
