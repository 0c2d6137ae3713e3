import Emodbus.Proofs.PartialWrites
import Emodbus.Proofs.RtuBurst
import Emodbus.RtuBus
import Emodbus.RtuRun

/-!
# What the stations of a line hold

A station holds the bytes it has read since the last silence, and has more of them before it
(`Has`); its transmitter has the rest of a packet (`Sends`).  Between two silences one station at
most is sending, and all the others have got what has gone out (`OnLine`).  In a silence the
stations that have not been told yet still hold what they got before it (`Hush`).
-/

namespace Emodbus

open Octets

/-! ## One station -/

/-- The bytes read since the last silence, and those that wait. -/
structure RtuStation.Has (st : RtuStation) (held unread : List Byte) : Prop where
  counter : st.mbt.rxBufCounter.toNat = held.length
  buffer : Mem.slice st.mbt.rxBuffer 0 held.length = held
  unread : st.unread = unread

/-- This is left of the packet in the transmitter. -/
def EmbRtu.Sends (mbt : EmbRtu) (rest : List Byte) : Prop := ∃ taken, RtuHolds mbt ⟨taken, rest⟩

section Station

variable {mbt mbt' : EmbRtu} {rest : List Byte} {t : Taker Byte}

theorem EmbRtu.Sends.congr (h : mbt.Sends rest) (hbuf : mbt'.txBuffer = mbt.txBuffer)
    (hsize : mbt'.txPktSize = mbt.txPktSize) (hcnt : mbt'.txBufCounter = mbt.txBufCounter) :
    mbt'.Sends rest := by
  obtain ⟨taken, hwhole, hcounter⟩ := h
  refine ⟨taken, ?_, ?_⟩
  · rw [hbuf, hsize]
    exact hwhole
  · rw [hcnt]
    exact hcounter

theorem RtuStation.Has.congr {st st' : RtuStation} {held unread : List Byte}
    (h : st.Has held unread) (hrx : RtuSameRx st'.mbt st.mbt) (hunread : st'.unread = st.unread) :
    st'.Has held unread where
  counter := by
    rw [hrx.counter]
    exact h.counter
  buffer := by
    rw [hrx.buffer]
    exact h.buffer
  unread := hunread.trans h.unread

/-- More bytes arrive. -/
theorem RtuStation.Has.append {st : RtuStation} {held unread : List Byte} (h : st.Has held unread)
    (bytes : List Byte) :
    RtuStation.Has { st with unread := st.unread ++ bytes } held (unread ++ bytes) :=
  ⟨h.counter, h.buffer, congrArg (· ++ bytes) h.unread⟩

/-- A write concerns nothing but the transmitter. -/
theorem txBufEmpty_keeps (mbt : EmbRtu) (wrote : List Byte → ℤ × BitVec 32) :
    let r := embRtuPortEvent mbt (.txBufEmpty wrote)
    RtuSameRx r.1 mbt ∧ r.1.transport = mbt.transport ∧ r.1.txBufSize = mbt.txBufSize := by
  unfold embRtuPortEvent
  dsimp only
  split_ifs
  · exact ⟨⟨rfl, rfl, rfl⟩, rfl, rfl⟩
  · exact ⟨⟨rfl, rfl, rfl⟩, rfl, rfl⟩

theorem sendPacket_keeps (mbt : EmbRtu) (addr : ℤ) (pdu : EmbPdu)
    (wrote : List Byte → ℤ × BitVec 32) :
    let r := modbusRtuSendPacket mbt addr pdu wrote
    RtuSameRx r.2.1 mbt ∧ r.2.1.transport = mbt.transport ∧ r.2.1.txBufSize = mbt.txBufSize := by
  unfold modbusRtuSendPacket
  dsimp only
  split_ifs with hfit
  · obtain ⟨hrx, htransport, hsize⟩ := txBufEmpty_keeps (mbt.packed addr pdu) wrote
    exact ⟨⟨hrx.buffer, hrx.size, hrx.counter⟩, htransport, hsize⟩
  · exact ⟨⟨rfl, rfl, rfl⟩, rfl, rfl⟩

theorem sendAll_keeps (t : Taker Byte) (ps : List (ℤ × EmbPdu)) (mbt : EmbRtu) :
    let r := rtuSendAll t mbt ps
    RtuSameRx r.1 mbt ∧ r.1.transport = mbt.transport ∧ r.1.txBufSize = mbt.txBufSize := by
  induction ps generalizing mbt with
  | nil => exact ⟨⟨rfl, rfl, rfl⟩, rfl, rfl⟩
  | cons p ps ih =>
    obtain ⟨hrx, htransport, hsize⟩ := sendPacket_keeps mbt p.1 p.2 (PortResult.took t).rtu
    obtain ⟨hrx', htransport', hsize'⟩ :=
      ih (modbusRtuSendPacket mbt p.1 p.2 (PortResult.took t).rtu).2.1
    exact ⟨⟨hrx'.buffer.trans hrx.buffer, hrx'.size.trans hrx.size,
      hrx'.counter.trans hrx.counter⟩, htransport'.trans htransport, hsize'.trans hsize⟩

/-- The port takes a part of what is left. -/
theorem EmbRtu.Sends.took (h : mbt.Sends rest) (t : Taker Byte) :
    let r := embRtuPortEvent mbt (.txBufEmpty (PortResult.took t).rtu)
    r.1.Sends (rest.drop (t.count rest)) ∧ RtuOut.takenBy t r.2 = t.take rest := by
  obtain ⟨taken, hholds⟩ := h
  obtain ⟨mbt', heq, hnext⟩ := hholds.took t
  dsimp only
  rw [heq]
  exact ⟨⟨_, hnext⟩, List.append_nil _⟩

/-- A packet that fits is sent. -/
theorem sendAll_packet (addr : ℤ) {pdu : EmbPdu}
    (hfit : pdu.dataSize.toNat + 4 ≤ mbt.txBufSize.toNat) (t : Taker Byte) :
    let bytes := rtuBytes (BitVec.ofInt 8 addr) pdu.function pdu.bytes
    let r := rtuSendAll t mbt [(addr, pdu)]
    r.1.Sends (bytes.drop (t.count bytes)) ∧ RtuOut.takenBy t r.2 = t.take bytes := by
  have hsend : modbusRtuSendPacket mbt addr pdu (PortResult.took t).rtu = _ :=
    rtuSendPacket_eq hfit _
  have hpacked : (mbt.packed addr pdu).Sends
      (rtuBytes (BitVec.ofInt 8 addr) pdu.function pdu.bytes) :=
    ⟨[], rtu_holds_packed mbt addr pdu⟩
  simp only [rtuSendAll, List.append_nil, hsend]
  exact hpacked.took t

/-- With nothing left there is nothing to send. -/
theorem EmbRtu.Sends.hasDataToSend (h : mbt.Sends rest) :
    embRtuHasDataToSend mbt = 0 ↔ rest = [] := by
  obtain ⟨taken, hholds⟩ := h
  have hhas := hholds.hasDataToSend
  rw [hhas]
  simp

theorem initialize_sends (mbt : EmbRtu) : (embRtuInitialize mbt).Sends [] :=
  ⟨[], rfl, rfl⟩

end Station

/-! ## A data event -/

theorem dataReceived_keeps (mbt : EmbRtu) (port : PortRead) :
    let r := embRtuPortEvent mbt (.dataReceived port)
    r.1.rxBufSize = mbt.rxBufSize ∧ r.1.txBufSize = mbt.txBufSize
      ∧ r.1.transport = mbt.transport := by
  unfold embRtuPortEvent
  dsimp only
  split
  · exact ⟨rfl, rfl, rfl⟩
  · exact ⟨rfl, rfl, rfl⟩

/-- What is read moves from the bytes that wait to those that are held. -/
theorem RtuStation.Has.read {st : RtuStation} {held unread : List Byte} (h : st.Has held unread)
    (hne : unread ≠ []) (hfit : held.length + unread.length ≤ st.mbt.rxBufSize.toNat)
    (atMost : ℕ) :
    let size := (st.mbt.rxBufSize - st.mbt.rxBufCounter).toNat
    let port := st.unread.take (atMost + 1)
    let r := embRtuPortEvent st.mbt (.dataReceived (.upTo port))
    RtuStation.Has ⟨r.1, st.unread.drop (port.take size).length⟩ (held ++ unread.take (atMost + 1))
        (unread.drop (atMost + 1))
      ∧ ∀ rest, st.mbt.Sends rest → r.1.Sends rest := by
  have hlen : (unread.take (atMost + 1)).length ≤ unread.length := List.length_take_le' _ _
  have hcnt := h.counter
  have hlt := st.mbt.rxBufSize.isLt
  have hne' : unread.take (atMost + 1) ≠ [] := by
    rw [ne_eq, List.take_eq_nil_iff]
    simp [hne]
  have hsize : (st.mbt.rxBufSize - st.mbt.rxBufCounter).toNat
      = st.mbt.rxBufSize.toNat - held.length := by
    rw [BitVec.toNat_sub]
    omega
  have hpiece : embRtuPortEvent st.mbt (.dataReceived (.upTo (unread.take (atMost + 1)))) = _ :=
    dataReceived_chunk hne' (by omega)
  have hall : (unread.take (atMost + 1)).take (st.mbt.rxBufSize.toNat - held.length)
      = unread.take (atMost + 1) := List.take_of_length_le (by omega)
  dsimp only
  rw [h.unread, hpiece, hsize, hall]
  refine ⟨⟨?_, ?_, ?_⟩, fun rest hrest => hrest.congr rfl rfl rfl⟩
  · dsimp only
    rw [BitVec.toNat_add, BitVec.toNat_ofNat, hcnt, List.length_append]
    omega
  · dsimp only
    rw [hcnt]
    exact Mem.slice_blit_append _ _ h.buffer List.length_append
  · dsimp only
    rw [List.length_take]
    rcases Nat.le_total (atMost + 1) unread.length with hle | hle
    · rw [Nat.min_eq_left hle]
    · rw [Nat.min_eq_right hle, List.drop_length, List.drop_eq_nil_of_le hle]

/-! ## A char timeout -/

/-- Nothing has been read. -/
theorem onCharTimeout_nothing {mbt : EmbRtu} (h : mbt.rxBufCounter.toNat = 0) :
    embRtuOnCharTimeout mbt = ({ mbt with rxBufCounter := 0 }, []) := by
  have hcnt : mbt.rxBufCounter = 0 := BitVec.eq_of_toNat_eq h
  have hsize : ¬ (2 : ℤ) ≤ ((0 : BitVec 32) - 2).toInt := by decide
  unfold embRtuOnCharTimeout rtuParsePacket
  dsimp only
  rw [hcnt, if_neg hsize]

/-- Whatever has been read, only the PDU changes, and one packet at most is handed up. -/
theorem onCharTimeout_cases (mbt : EmbRtu) :
    let r := embRtuOnCharTimeout mbt
    ∃ rx, r.1 = { mbt with rxBufCounter := 0, transport.rxPdu := rx }
      ∧ rx.map EmbPdu.maxSize = mbt.transport.rxPdu.map EmbPdu.maxSize
      ∧ (RtuOut.upcalls r.2 = [] ∨ (∃ errno, RtuOut.upcalls r.2 = [.error errno])
        ∨ ∃ pdu, rx = some pdu
          ∧ RtuOut.upcalls r.2 = [.recvPacket (mbt.rxBuffer 0).toNat pdu]) := by
  unfold embRtuOnCharTimeout rtuParsePacket
  dsimp only
  split_ifs with hsize hcrc
  · exact ⟨_, rfl, rfl, .inr (.inl ⟨_, rfl⟩)⟩
  · cases hp : mbt.transport.rxPdu with
    | none => exact ⟨none, by simp [← hp], rfl, .inl rfl⟩
    | some p =>
      dsimp only
      split_ifs with hroom
      · exact ⟨some p, by simp [← hp], rfl, .inr (.inl ⟨_, rfl⟩)⟩
      · exact ⟨_, rfl, rfl, .inr (.inr ⟨_, rfl, rfl⟩)⟩
  · exact ⟨_, rfl, rfl, .inl rfl⟩

theorem EmbPdu.copied_eq_receive {buf : Mem Byte} {addr : Byte} {pdu : EmbPdu}
    (h : Mem.slice buf 0 (pdu.bytes.length + 4) = rtuBytes addr pdu.function pdu.bytes)
    (p : EmbPdu) : p.copied buf pdu.dataSize.toNat = p.receive pdu := by
  obtain ⟨-, hfun, hdata⟩ := packet_parts h
  rw [EmbPdu.length_bytes] at hdata
  unfold EmbPdu.copied EmbPdu.receive
  rw [hfun]
  congr 1
  · simp
  · funext i
    unfold Mem.copy
    split_ifs with hi
    · exact (Mem.eq_of_slice_eq hdata hi).trans (by rw [Nat.zero_add])
    · rfl

/-- A packet has been read, and there is room for it. -/
theorem onCharTimeout_packet {mbt : EmbRtu} {addr : Byte} {pdu p : EmbPdu}
    (hcnt : mbt.rxBufCounter.toNat = (rtuBytes addr pdu.function pdu.bytes).length)
    (hbuf : Mem.slice mbt.rxBuffer 0 (rtuBytes addr pdu.function pdu.bytes).length
      = rtuBytes addr pdu.function pdu.bytes)
    (hp : mbt.transport.rxPdu = some p) (hroom : pdu.dataSize.toNat ≤ p.maxSize.toNat) :
    let r := embRtuOnCharTimeout mbt
    r.1 = { mbt with rxBufCounter := 0, transport.rxPdu := some (p.receive pdu) }
      ∧ RtuOut.upcalls r.2 = [.recvPacket addr.toNat (p.receive pdu)] := by
  have hlt := pdu.dataSize.isLt
  rw [length_rtuBytes] at hcnt hbuf
  obtain ⟨haddr, hfun, hdata⟩ := packet_parts hbuf
  have hcopied := EmbPdu.copied_eq_receive hbuf p
  have hpkt : Mem.slice mbt.rxBuffer 0 (pdu.dataSize.toNat + 4)
      = rtuBytes (mbt.rxBuffer 0) (mbt.rxBuffer 1)
        (Mem.slice mbt.rxBuffer 2 pdu.dataSize.toNat) := by
    rw [EmbPdu.length_bytes] at hbuf hdata
    rw [hbuf, haddr, hfun, hdata]
  rw [EmbPdu.length_bytes] at hcnt
  have hparse := parsePacket_packet (by omega) hcnt hpkt hp
  rw [if_neg (by omega), hcopied, haddr] at hparse
  unfold embRtuOnCharTimeout
  dsimp only
  rw [hparse]
  exact ⟨rfl, rfl⟩

/-! ## All the stations -/

section Line

variable {κ : Type} [DecidableEq κ]

/-- One station is sending the bytes.  Some of them are still in its transmitter, and everyone else
has got those that have gone out. -/
structure OnLine (s : Option κ → RtuStation) (who : Option κ) (bytes : List Byte) : Prop where
  gone : ∃ heard rest, heard ++ rest = bytes
    ∧ (∀ j, ∃ held unread, (s j).Has held unread ∧ held ++ unread = if j = who then [] else heard)
    ∧ ∀ j, (s j).mbt.Sends (if j = who then rest else [])
  fits : ∀ j, j ≠ who → bytes.length ≤ (s j).mbt.rxBufSize.toNat

/-- The stations still hold what they got before the silence, and one of them may have begun to send
the next packet. -/
structure Hush (s : Option κ → RtuStation) (old : Option κ → List Byte) (who : Option κ)
    (heard rest : List Byte) : Prop where
  has : ∀ j, (s j).Has (old j) (if j = who then [] else heard)
  sends : ∀ j, (s j).mbt.Sends (if j = who then rest else [])

variable {π σ : Type} {s : RtuBus π κ σ} {who : Option κ} {bytes heard rest : List Byte}
  {old : Option κ → List Byte}

@[simp] theorem station_write (s : RtuBus π κ σ) (who : Option κ) (mbt : EmbRtu)
    (bytes : List Byte) (j : Option κ) :
    (s.write who mbt bytes).station j = if j = who then { s.station j with mbt := mbt }
      else { s.station j with unread := (s.station j).unread ++ bytes } := rfl

/-- All the transmitters are as they were but the one of this station. -/
theorem sends_write (h : ∀ j, (s.station j).mbt.Sends (if j = who then rest else []))
    {mbt : EmbRtu} {rest' : List Byte} (hmbt : mbt.Sends rest') (j : Option κ)
    (hj : j ≠ who → rest = []) (bytes : List Byte) (i : Option κ) :
    ((s.write j mbt bytes).station i).mbt.Sends (if i = j then rest' else []) := by
  rw [station_write]
  split_ifs with hij
  · exact hmbt
  · have hi := h i
    split_ifs at hi with hwho
    · rw [hj (fun hjw => hij (hwho.trans hjw.symm))] at hi
      exact hi
    · exact hi

theorem OnLine.rxRoom_write (h : ∀ j, j ≠ who → bytes.length ≤ (s.station j).mbt.rxBufSize.toNat)
    {j : Option κ} {mbt : EmbRtu} (hsize : mbt.rxBufSize = (s.station j).mbt.rxBufSize)
    (written : List Byte) (i : Option κ) (hi : i ≠ who) :
    bytes.length ≤ ((s.write j mbt written).station i).mbt.rxBufSize.toNat := by
  have hroom := h i hi
  rw [station_write]
  split_ifs with hij
  · subst hij
    rw [hsize]
    exact hroom
  · exact hroom

/-- A station reads. -/
theorem OnLine.read (h : OnLine s.station who bytes) (j : Option κ) (atMost : ℕ)
    (hne : (s.station j).unread ≠ []) : OnLine (s.read j atMost).station who bytes := by
  obtain ⟨heard, rest, hall, hhas, hsends⟩ := h.gone
  obtain ⟨held, unread, hj, happ⟩ := hhas j
  have hunread := hj.unread
  rw [hunread] at hne
  have hwho : j ≠ who := by
    rintro rfl
    rw [if_pos rfl] at happ
    exact hne (List.append_eq_nil_iff.1 happ).2
  rw [if_neg hwho] at happ
  have hfit : held.length + unread.length ≤ (s.station j).mbt.rxBufSize.toNat := by
    have hroom := h.fits j hwho
    rw [← hall, ← happ] at hroom
    simp only [List.length_append] at hroom
    omega
  obtain ⟨hread, htx⟩ := hj.read hne hfit atMost
  unfold RtuBus.read
  dsimp only
  refine ⟨⟨heard, rest, hall, fun i => ?_, fun i => ?_⟩, fun i hi => ?_⟩
  · rcases eq_or_ne i j with rfl | hij
    · refine ⟨held ++ unread.take (atMost + 1), unread.drop (atMost + 1), ?_, ?_⟩
      · rw [Function.update_self]
        exact hread
      · rw [if_neg hwho, List.append_assoc, List.take_append_drop, happ]
    · rw [Function.update_of_ne hij]
      exact hhas i
  · rcases eq_or_ne i j with rfl | hij
    · rw [Function.update_self]
      exact htx _ (hsends i)
    · rw [Function.update_of_ne hij]
      exact hsends i
  · rcases eq_or_ne i j with rfl | hij
    · rw [Function.update_self]
      dsimp only
      rw [(dataReceived_keeps (s.station i).mbt _).1]
      exact h.fits i hi
    · rw [Function.update_of_ne hij]
      exact h.fits i hi

/-- The port of a station can take more. -/
theorem OnLine.txBufEmpty (h : OnLine s.station who bytes) (t : Taker Byte)
    (j : Option κ) : OnLine (s.txBufEmpty t j).station who bytes := by
  obtain ⟨heard, rest, hall, hhas, hsends⟩ := h.gone
  obtain ⟨hrx, -, -⟩ := txBufEmpty_keeps (s.station j).mbt (PortResult.took t).rtu
  have hj := hsends j
  obtain ⟨hleft, htaken⟩ := hj.took t
  unfold RtuBus.txBufEmpty
  dsimp only
  rw [htaken]
  refine ⟨?_, fun i hi => OnLine.rxRoom_write h.fits hrx.size _ i hi⟩
  rcases eq_or_ne j who with rfl | hwho
  · rw [if_pos rfl] at hleft ⊢
    refine ⟨heard ++ t.take rest, rest.drop (t.count rest), ?_, fun i => ?_, fun i => ?_⟩
    · rw [List.append_assoc, Taker.take, List.take_append_drop, hall]
    · obtain ⟨held, unread, hi, happ⟩ := hhas i
      rw [station_write]
      split_ifs with hij
      · subst hij
        rw [if_pos rfl] at happ
        exact ⟨held, unread, hi.congr hrx rfl, happ⟩
      · rw [if_neg hij] at happ
        exact ⟨held, unread ++ t.take rest, hi.append _, by rw [← happ, List.append_assoc]⟩
    · exact sends_write hsends hleft j (fun hne => absurd rfl hne) _ i
  · rw [if_neg hwho] at hleft ⊢
    have hnone : t.take [] = ([] : List Byte) := List.take_nil
    refine ⟨heard, rest, hall, fun i => ?_, fun i => ?_⟩
    · obtain ⟨held, unread, hi, happ⟩ := hhas i
      refine ⟨held, unread, ?_, happ⟩
      rw [station_write]
      split_ifs with hij
      · subst hij
        exact hi.congr hrx rfl
      · rw [hnone, List.append_nil]
        exact hi
    · rw [station_write]
      split_ifs with hij hiw hiw
      · exact absurd (hij.symm.trans hiw) hwho
      · subst hij
        rw [List.drop_nil] at hleft
        exact hleft
      · have hi := hsends i
        rw [if_pos hiw] at hi
        exact hi
      · have hi := hsends i
        rw [if_neg hiw] at hi
        exact hi

/-- Nobody is sending, and then one station begins. -/
theorem OnLine.send {w : Option κ} (h : OnLine s.station w []) {j : Option κ} {mbt : EmbRtu}
    (hrx : RtuSameRx mbt (s.station j).mbt) {gone left : List Byte} (hleft : mbt.Sends left)
    (hfits : ∀ i, i ≠ j → (gone ++ left).length ≤ (s.station i).mbt.rxBufSize.toNat) :
    OnLine (s.write j mbt gone).station j (gone ++ left) := by
  obtain ⟨heard, rest, hall, hhas, hsends⟩ := h.gone
  obtain ⟨rfl, rfl⟩ := List.append_eq_nil_iff.1 hall
  refine ⟨⟨gone, left, rfl, fun i => ?_, sends_write hsends hleft j (fun _ => rfl) gone⟩,
    fun i hi => OnLine.rxRoom_write hfits hrx.size _ i hi⟩
  obtain ⟨held, unread, hi, happ⟩ := hhas i
  rw [ite_self] at happ
  obtain ⟨rfl, rfl⟩ := List.append_eq_nil_iff.1 happ
  rw [station_write]
  split_ifs with hij
  · subst hij
    exact ⟨[], [], hi.congr hrx rfl, rfl⟩
  · exact ⟨[], gone, hi.append gone, rfl⟩

/-- Nothing goes out. -/
theorem OnLine.congr {s' : Option κ → RtuStation} (h : OnLine s.station who bytes)
    (hs : ∀ j, (s' j).unread = (s.station j).unread ∧ RtuSameRx (s' j).mbt (s.station j).mbt
      ∧ ∀ rest, (s.station j).mbt.Sends rest → (s' j).mbt.Sends rest) :
    OnLine s' who bytes := by
  obtain ⟨heard, rest, hall, hhas, hsends⟩ := h.gone
  refine ⟨⟨heard, rest, hall, fun j => ?_, fun j => (hs j).2.2 _ (hsends j)⟩, fun j hj => ?_⟩
  · obtain ⟨held, unread, hj, happ⟩ := hhas j
    exact ⟨held, unread, hj.congr (hs j).2.1 (hs j).1, happ⟩
  · rw [(hs j).2.1.size]
    exact h.fits j hj

/-- When nobody sends, every transmitter is empty. -/
theorem OnLine.sends_nothing (h : OnLine s.station who []) (j : Option κ) :
    (s.station j).mbt.Sends [] := by
  obtain ⟨heard, rest, hall, -, hsends⟩ := h.gone
  have hj := hsends j
  rw [(List.append_eq_nil_iff.1 hall).2, ite_self] at hj
  exact hj

/-- The silence begins: everyone but the sender holds all of the packet. -/
theorem OnLine.hush (h : OnLine s.station who bytes) (hsilent : s.Silent) (w : Option κ) :
    Hush s.station (fun j => if j = who then [] else bytes) w [] [] := by
  obtain ⟨heard, rest, hall, hhas, hsends⟩ := h.gone
  have hrest : rest = [] := by
    have hwho := hsends who
    rw [if_pos rfl] at hwho
    exact hwho.hasDataToSend.1 (hsilent who).2
  rw [hrest, List.append_nil] at hall
  refine ⟨fun j => ?_, fun j => ?_⟩
  · obtain ⟨held, unread, hj, happ⟩ := hhas j
    have hunread := hj.unread
    rw [(hsilent j).1] at hunread
    rw [← hunread, List.append_nil, hall] at happ
    rw [ite_self, ← happ, hunread]
    exact hj
  · have hj := hsends j
    rw [hrest, ite_self] at hj
    rw [ite_self]
    exact hj

/-- A packet that is under way is in a transmitter, or before every other station. -/
theorem OnLine.eq_nil (h : OnLine s.station who bytes) (hsilent : s.Silent) {j : Option κ}
    (hj : j ≠ who) (hcnt : (s.station j).mbt.rxBufCounter = 0) : bytes = [] := by
  have hhas := (h.hush hsilent none).has j
  rw [if_neg hj] at hhas
  have hlen := hhas.counter
  rw [hcnt] at hlen
  exact List.eq_nil_of_length_eq_zero hlen.symm

/-- When everything has been sent and nothing is held, nobody sends. -/
theorem OnLine.quiet (h : OnLine s.station who bytes) (hsilent : s.Silent)
    (hheld : ∀ j, (s.station j).mbt.rxBufCounter = 0) (w : Option κ) : OnLine s.station w [] := by
  obtain ⟨heard, rest, -, -, hsends⟩ := h.gone
  refine ⟨⟨[], [], rfl, fun j => ⟨[], [], ⟨?_, rfl, (hsilent j).1⟩, (ite_self _).symm⟩,
    fun j => ?_⟩, fun _ _ => Nat.zero_le _⟩
  · rw [hheld j]
    rfl
  · have hj := hsends j
    rw [hj.hasDataToSend.1 (hsilent j).2] at hj
    rw [ite_self]
    exact hj

/-- All the stations have been told. -/
theorem Hush.wire (h : Hush s.station old who heard rest) (hold : ∀ j, old j = [])
    (hfits : ∀ j, j ≠ who → (heard ++ rest).length ≤ (s.station j).mbt.rxBufSize.toNat) :
    OnLine s.station who (heard ++ rest) := by
  refine ⟨⟨heard, rest, rfl, fun j => ?_, h.sends⟩, hfits⟩
  have hj := h.has j
  rw [hold j] at hj
  exact ⟨[], _, hj, rfl⟩

/-- A station is told and forgets what it holds. -/
theorem Hush.told (h : Hush s.station old who heard rest) (j : Option κ) {mbt : EmbRtu}
    (hcnt : mbt.rxBufCounter = 0)
    (hsends : ∀ left, (s.station j).mbt.Sends left → mbt.Sends left) :
    Hush (s.write j mbt []).station (Function.update old j []) who heard rest := by
  refine ⟨fun i => ?_, fun i => ?_⟩
  · have hi := h.has i
    rw [station_write]
    by_cases hij : i = j
    · subst hij
      rw [if_pos rfl, Function.update_self]
      refine ⟨?_, rfl, hi.unread⟩
      dsimp only
      rw [hcnt]
      rfl
    · rw [if_neg hij, Function.update_of_ne hij, List.append_nil]
      exact hi
  · have hi := h.sends i
    rw [station_write]
    by_cases hij : i = j
    · subst hij
      rw [if_pos rfl]
      exact hsends _ hi
    · rw [if_neg hij]
      exact hi

/-- A station begins to send in the silence. -/
theorem Hush.send {w : Option κ} (h : Hush s.station old w [] []) {j : Option κ} {mbt : EmbRtu}
    (hrx : RtuSameRx mbt (s.station j).mbt) {gone left : List Byte} (hleft : mbt.Sends left) :
    Hush (s.write j mbt gone).station old j gone left := by
  refine ⟨fun i => ?_, sends_write h.sends hleft j (fun _ => rfl) gone⟩
  have hi := h.has i
  rw [ite_self] at hi
  rw [station_write]
  split_ifs with hij
  · subst hij
    exact hi.congr hrx rfl
  · exact hi.append gone

end Line

end Emodbus
