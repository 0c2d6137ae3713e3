import Emodbus.Proofs.TcpStream

/-!
# One event for each frame

A frame that is read to its end leaves nothing outstanding, and `curr_rx_length` says so: it is 0,
so the next event reads nothing and only gives it up.  Where there is one event for each frame,
every other frame is not read when its event is raised.
-/

namespace Emodbus

open Octets Mealy

variable {ι : Type}

namespace EmbTcp

/-- A server between two frames; `curr_rx_length` is left. -/
structure Between (t : EmbTcp ι) (curr : ℤ) : Prop where
  isServer : t.transport.isServer = true
  maxSize : t.transport.rxPdu.map EmbPdu.maxSize = some 253
  counter : t.rxPktCounter = 0
  curr : t.currRxLength = curr

theorem Between.after {t : EmbTcp ι} {curr : ℤ} (h : t.Between curr) (f : ServerStep ι) :
    (f.apply t).Between curr where
  isServer := (f.isServer t).trans h.isServer
  maxSize := (f.maxSize t).trans h.maxSize
  counter := (f.sameRx t).counter.trans h.counter
  curr := (f.sameRx t).curr.trans h.curr

theorem between_freshServer (p : EmbPdu) : (freshServer ι p).Between (-1) := ⟨rfl, rfl, rfl, rfl⟩

/-- The frame is read, and delivered. -/
theorem Between.arrive {t : EmbTcp ι} (h : t.Between (-1)) (a : FrameArrival ι) :
    (t.arrive a).1.Between 0 ∧ (t.arrive a).2 = [a.frame.view] := by
  have hb := a.frame.length_bytes_bounds
  have hfits := a.frame.fits
  obtain ⟨p, hp, hmax⟩ := Option.map_eq_some_iff.1 h.maxSize
  have hpart : t.Partway a.frame 0 := .start h.counter (by rw [h.curr]; decide) a.frame
  have hread : t.toBeRead = embTcpRxBufSize := by
    rw [hpart.toBeRead_eq, h.curr]
    simp
  have htake : a.frame.bytes.take t.toBeRead.toNat = a.frame.bytes := by
    rw [hread]
    exact List.take_of_length_le (hb.2.trans (by decide))
  have hbytes : a.frame.bytes.take t.toBeRead.toNat
      = (a.frame.bytes.drop 0).take a.frame.bytes.length := by
    rw [htake, List.drop_zero, List.take_length]
  obtain ⟨hstate, -, -⟩ := tcpStep_partway hpart a.client a.frame.bytes
  rcases tcpStep_within hpart a.client hbytes (by omega) with ⟨hlt, -⟩ | ⟨-, hwhole⟩
  · omega
  obtain ⟨buf, curr, -, hslice, hs, hups⟩ := hwhole p hp
    (by rw [hmax]; exact hfits) (Or.inl h.isServer)
  -- all of the frame, and nothing else
  have hcurr : curr = 0 := by
    set r := ({ t with tcpClientId := a.client } : EmbTcp ι).received a.frame.bytes with hr
    have hbuf : r.rxBuf = Mem.blit t.rxBuf t.rxPktCounter a.frame.bytes := rfl
    have hcnt : r.rxPktCounter = t.rxPktCounter + a.frame.bytes.length := rfl
    rw [h.counter] at hbuf hcnt
    have hend : EmbTcp.frameEnd r.rxBuf = a.frame.bytes.length := by
      refine frameEnd_of_slice (n := a.frame.bytes.length) ?_ (by omega)
      rw [hbuf, Mem.slice_blit, List.take_length]
    have hleft := (takeIn_state r).2
    rw [htake] at hstate
    rw [← hstate, hs, hend, hcnt, Nat.zero_add, if_pos hb.1, sub_self] at hleft
    exact hleft
  unfold EmbTcp.arrive
  dsimp only
  refine ⟨Between.after ?_ a.after, ?_⟩
  · rw [hs]
    refine ⟨h.isServer, ?_, rfl, hcurr⟩
    dsimp only
    rw [Option.map_some]
    exact congrArg some hmax
  · unfold TcpOut.delivered
    rw [hups]
    simp only [List.filterMap_cons, List.filterMap_nil, Upcall.view,
      TcpFrame.bytes_copiedTo hslice p]
    rfl

/-- The frame is not read; the event only gives `curr_rx_length` up. -/
theorem Between.arrive_spent {t : EmbTcp ι} (h : t.Between 0) (a : FrameArrival ι) :
    (t.arrive a).1.Between (-1) ∧ (t.arrive a).2 = [] := by
  have hpart : t.Partway a.frame 0 := .start h.counter (by rw [h.curr]) a.frame
  have hread : t.toBeRead = 0 := by
    rw [hpart.toBeRead_eq, h.curr]
    simp
  obtain ⟨hstate, hups, -⟩ := tcpStep_partway hpart a.client a.frame.bytes
  rw [hread] at hstate hups
  have hcnt : (({ t with tcpClientId := a.client } : EmbTcp ι).received
      []).rxPktCounter = 0 := h.counter
  have hshort : takeIn (({ t with tcpClientId := a.client } : EmbTcp ι).received [])
      = ({ ({ t with tcpClientId := a.client } : EmbTcp ι).received [] with
        currRxLength := -1 }, []) := by
    unfold takeIn
    rw [parsePacket_short (by omega)]
    dsimp only
    rw [if_neg (by rw [hcnt]; decide)]
  rw [Int.toNat_zero, List.take_zero, hshort] at hstate hups
  unfold EmbTcp.arrive
  dsimp only
  refine ⟨Between.after ?_ a.after, ?_⟩
  · rw [hstate]
    exact ⟨h.isServer, h.maxSize, hcnt, rfl⟩
  · unfold TcpOut.delivered
    rw [hups]
    rfl

end EmbTcp

/-- What is delivered when every other event reads its frame. -/
def everyOther : Bool → List (FrameArrival ι) → List (List (ℤ × Byte × List Byte))
  | _, [] => []
  | true, a :: as => [a.frame.view] :: everyOther false as
  | false, _ :: as => [] :: everyOther true as

theorem run_arrive (as : List (FrameArrival ι)) (reads : Bool) {t : EmbTcp ι}
    (h : t.Between (if reads then -1 else 0)) :
    (run EmbTcp.arrive t as).2 = everyOther reads as := by
  induction as generalizing t reads with
  | nil => cases reads <;> rfl
  | cons a as ih =>
    cases reads with
    | true =>
      obtain ⟨hnext, hview⟩ := EmbTcp.Between.arrive h a
      rw [run_cons, hview, ih false hnext]
      rfl
    | false =>
      obtain ⟨hnext, hview⟩ := EmbTcp.Between.arrive_spent h a
      rw [run_cons, hview, ih true hnext]
      rfl

/-- Each of the events delivers its frame, once, if and only if there is one frame at most. -/
theorem arrivals_delivered_iff (p : EmbPdu) (as : List (FrameArrival ι)) :
    (run EmbTcp.arrive (EmbTcp.freshServer ι p) as).2 = as.map (fun a => [a.frame.view])
      ↔ as.length ≤ 1 := by
  rw [run_arrive as true (EmbTcp.between_freshServer p)]
  rcases as with _ | ⟨a, _ | ⟨b, as⟩⟩
  · simp [everyOther]
  · simp [everyOther]
  · simp [everyOther]

/-- Two requests of one byte each, one event each. -/
theorem second_arrival_unread :
    let f : TcpFrame := ⟨0, 0, 1, 3, [0], by decide, by decide⟩
    let a : FrameArrival Unit := ⟨none, f, .idle⟩
    (run EmbTcp.arrive (EmbTcp.freshServer Unit ⟨0, 0, 0, fun _ => 0⟩) [a, a]).2
      ≠ [a, a].map (fun a => [a.frame.view]) := by
  intro f a
  rw [run_arrive [a, a] true (EmbTcp.between_freshServer _)]
  simp [everyOther]

end Emodbus
