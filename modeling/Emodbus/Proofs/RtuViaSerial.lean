import Emodbus.Proofs.RtuLine
import Emodbus.RtuViaSerial

/-!
# Packets on their way through a serial port

A write is one of three things: there was nothing left, it failed, or the device took a part of what
was left (`dataSent_cases`).  So the bytes taken are one frame after the other, and whatever is left
has an event that will go on with it.
-/

namespace Emodbus

open Octets Mealy

theorem EmbRtu.Sends.unsent {mbt : EmbRtu} {rest : List Byte} (h : mbt.Sends rest) :
    mbt.unsent = rest := by
  obtain ⟨taken, hholds⟩ := h
  exact hholds.offered

theorem EmbRtu.Sends.hasDataToSend_ne {mbt : EmbRtu} {rest : List Byte} (h : mbt.Sends rest) :
    embRtuHasDataToSend mbt ≠ 0 ↔ rest ≠ [] := by
  rw [ne_eq, h.hasDataToSend]

/-- A write depends on what the port does with the rest, and on nothing else. -/
theorem RtuHolds.txBufEmpty_congr {mbt : EmbRtu} {o : Outbox Byte} (h : RtuHolds mbt o)
    {wrote wrote' : List Byte → ℤ × BitVec 32} (hsame : wrote o.rest = wrote' o.rest) :
    embRtuPortEvent mbt (.txBufEmpty wrote) = embRtuPortEvent mbt (.txBufEmpty wrote') := by
  unfold embRtuPortEvent
  dsimp only
  rw [h.offered, hsame]

namespace EmbRtuViaSerial

variable {s : EmbRtuViaSerial} {mbt : EmbRtu} {rest : List Byte} {write : PortWrite}

/-- What a write comes to, with this left of a packet. -/
inductive Written (s : EmbRtuViaSerial) (rest : List Byte) (write : PortWrite) (mbt : EmbRtu) :
    EmbRtuViaSerial → Prop
  | nothing (hrest : rest = []) (hsends : mbt.Sends []) :
    Written s rest write mbt { s with modbusRtu := mbt, writeEvent := false }
  | failed (hrest : rest ≠ []) (hfails : write.send rest < 0) (hsends : mbt.Sends []) :
    Written s rest write mbt { s with modbusRtu := mbt }
  | took (n : ℕ) (hrest : rest ≠ []) (hn : 0 < n) (hsends : mbt.Sends (rest.drop n)) :
    Written s rest write mbt
      { s with modbusRtu := mbt, writeEvent := true, taken := s.taken ++ rest.take n }

theorem serialPortWrite_fails (s : EmbRtuViaSerial) (hrest : rest ≠ [])
    (hneg : write.send rest < 0) :
    s.serialPortWrite write rest = ((write.send rest, 0), s) := by
  have hlen : rest.length ≠ 0 := by rwa [ne_eq, List.length_eq_zero_iff]
  unfold serialPortWrite
  rw [if_neg hlen]
  dsimp only
  rw [if_neg (not_lt.2 hneg.le)]

theorem serialPortWrite_takes (s : EmbRtuViaSerial) (hrest : rest ≠ []) {n : ℕ}
    (hn : write.send rest = n) (hpos : 0 < n) :
    s.serialPortWrite write rest = (((n : ℤ), BitVec.ofNat 32 n),
      { s with writeEvent := true, taken := s.taken ++ rest.take n }) := by
  have hlen : rest.length ≠ 0 := by rwa [ne_eq, List.length_eq_zero_iff]
  have hsend : 0 < write.send rest := by omega
  unfold serialPortWrite
  rw [if_neg hlen]
  dsimp only
  rw [if_pos hsend, hn, BitVec.ofInt_natCast, Int.toNat_natCast]

/-- The port's answer to bytes that it is offered, as one of the kinds of answers. -/
theorem afterWrites_eq (s s₀ : EmbRtuViaSerial) {o : Outbox Byte} {res : PortResult}
    (h : RtuHolds mbt o) (hres : (s₀.serialPortWrite write o.rest).1 = res.rtu o.rest)
    {mbt' : EmbRtu} (hevent : embRtuPortEvent mbt (.txBufEmpty res.rtu)
      = (mbt', [.writeToPort o.rest])) :
    s.afterWrites write (embRtuPortEvent mbt
        (.txBufEmpty fun data => (s₀.serialPortWrite write data).1))
      = (serialPortWrite { s with modbusRtu := mbt' } write o.rest).2 := by
  have hsame : embRtuPortEvent mbt (.txBufEmpty fun data => (s₀.serialPortWrite write data).1)
      = embRtuPortEvent mbt (.txBufEmpty res.rtu) := h.txBufEmpty_congr hres
  rw [hsame, hevent]
  rfl

theorem afterWrites_cases (s s₀ : EmbRtuViaSerial) (h : mbt.Sends rest) (hmoves : write.Moves) :
    ∃ mbt', RtuSameRx mbt' mbt
      ∧ Written s rest write mbt' (s.afterWrites write (embRtuPortEvent mbt
        (.txBufEmpty fun data => (s₀.serialPortWrite write data).1))) := by
  obtain ⟨taken, hholds⟩ := h
  have hkeeps : ∀ res : PortResult, RtuSameRx (embRtuPortEvent mbt (.txBufEmpty res.rtu)).1 mbt :=
    fun res => (txBufEmpty_keeps mbt res.rtu).1
  by_cases hrest : rest = []
  · subst hrest
    obtain ⟨mbt', hevent, hholds'⟩ := hholds.took (Taker.upTo 0)
    have hres : (s₀.serialPortWrite write []).1 = (PortResult.took (Taker.upTo 0)).rtu [] := rfl
    refine ⟨mbt', ?_, ?_⟩
    · have hrx := hkeeps (.took (Taker.upTo 0))
      rwa [hevent] at hrx
    · rw [afterWrites_eq s s₀ hholds hres hevent]
      exact .nothing rfl ⟨_, hholds'⟩
  · rcases lt_trichotomy (write.send rest) 0 with hneg | hzero | hpos
    · have hfail := hholds.failed hneg
      have hres : (s₀.serialPortWrite write rest).1
          = (PortResult.failed (write.send rest) hneg).rtu rest := by
        rw [serialPortWrite_fails s₀ hrest hneg]
        rfl
      refine ⟨{ mbt with txBufCounter := 0, txPktSize := 0 }, ⟨rfl, rfl, rfl⟩, ?_⟩
      rw [afterWrites_eq s s₀ hholds hres hfail, serialPortWrite_fails _ hrest hneg]
      exact .failed hrest hneg ⟨[], rfl, rfl⟩
    · exact absurd hzero (hmoves rest hrest)
    · obtain ⟨n, hn⟩ := Int.eq_ofNat_of_zero_le hpos.le
      have hn0 : 0 < n := by omega
      have hle : n ≤ rest.length := by
        have := write.le_length rest
        omega
      have hcount : (Taker.upTo n).count rest = n := Nat.min_eq_left hle
      obtain ⟨mbt', hevent, hholds'⟩ := hholds.took (Taker.upTo n)
      have hres : (s₀.serialPortWrite write rest).1
          = (PortResult.took (Taker.upTo n)).rtu rest := by
        rw [serialPortWrite_takes s₀ hrest hn hn0, PortResult.rtu, hcount]
      refine ⟨mbt', ?_, ?_⟩
      · have hrx := hkeeps (.took (Taker.upTo n))
        rwa [hevent] at hrx
      · rw [afterWrites_eq s s₀ hholds hres hevent, serialPortWrite_takes _ hrest hn hn0]
        simp only [Outbox.step, hcount] at hholds'
        exact .took n hrest hn0 ⟨_, hholds'⟩

/-- A write keeps the frames in order, and puts the event there for what is left; one that takes
something comes closer to the end. -/
theorem Written.cuts {s' : EmbRtuViaSerial} (h : Written s rest write mbt s')
    (hcuts : Outbox.Cuts s.frames ⟨s.taken, rest⟩) :
    s'.modbusRtu = mbt ∧ s'.charTimeoutTimer = s.charTimeoutTimer ∧ s'.frames = s.frames
      ∧ ∃ rest', mbt.Sends rest' ∧ (rest' ≠ [] → s'.writeEvent = true)
        ∧ Outbox.Cuts s.frames ⟨s'.taken, rest'⟩
        ∧ (write.Takes → s'.taken ++ rest' = s.taken ++ rest
          ∧ (rest'.length < rest.length ∨ rest' = [] ∧ s'.writeEvent = false)) := by
  cases h with
  | nothing hrest hsends =>
    subst hrest
    exact ⟨rfl, rfl, rfl, [], hsends, fun h => absurd rfl h, hcuts,
      fun _ => ⟨rfl, Or.inr ⟨rfl, rfl⟩⟩⟩
  | failed hrest hfails hsends =>
    refine ⟨rfl, rfl, rfl, [], hsends, fun h => absurd rfl h, hcuts.failed, fun htakes => ?_⟩
    exact absurd (htakes rest hrest) (not_lt.2 hfails.le)
  | took n hrest hn hsends =>
    have hpos : 0 < rest.length := List.length_pos_of_ne_nil hrest
    refine ⟨rfl, rfl, rfl, rest.drop n, hsends, fun _ => rfl, hcuts.took n,
      fun _ => ⟨?_, Or.inl ?_⟩⟩
    · dsimp only
      rw [List.append_assoc, List.take_append_drop]
    · rw [List.length_drop]
      omega

/-! ## Every step -/

/-- What every state has: the events that are needed, and on the device the frames that were
accepted one after the other, each of them whole or cut off. -/
structure Holds (s : EmbRtuViaSerial) (rest : List Byte) : Prop where
  timer : s.modbusRtu.rxBufCounter ≠ 0 → s.charTimeoutTimer = true
  sends : s.modbusRtu.Sends rest
  write : rest ≠ [] → s.writeEvent = true
  cuts : Outbox.Cuts s.frames ⟨s.taken, rest⟩

theorem Holds.armed (h : s.Holds rest) : s.Armed :=
  ⟨h.timer, fun hhas => h.write (h.sends.hasDataToSend_ne.1 hhas)⟩

theorem create_holds (transport : EmbTransport) : (create transport).Holds [] where
  timer := fun h => absurd rfl h
  sends := initialize_sends _
  write := fun h => absurd rfl h
  cuts := Outbox.cuts_nil

/-- Bytes that are kept have come with a call of `emb_rtu_on_char`. -/
theorem dataReceived_holds (h : s.Holds rest) (port : PortRead) :
    (s.dataReceived port).Holds rest := by
  unfold dataReceived embRtuPortEvent
  dsimp only
  split
  · exact ⟨fun _ => by simp [RtuOut.charReceived], h.sends.congr rfl rfl rfl, h.write, h.cuts⟩
  · exact ⟨fun h => absurd rfl h, h.sends.congr rfl rfl rfl, h.write, h.cuts⟩

/-- The port has been offered what is left, or a new frame. -/
theorem afterWrites_holds (s₀ : EmbRtuViaSerial) (hmoves : write.Moves) (hsends : mbt.Sends rest)
    (hrx : RtuSameRx mbt s.modbusRtu)
    (htimer : s.modbusRtu.rxBufCounter ≠ 0 → s.charTimeoutTimer = true)
    (hcuts : Outbox.Cuts s.frames ⟨s.taken, rest⟩) :
    let s' := s.afterWrites write (embRtuPortEvent mbt
      (.txBufEmpty fun data => (s₀.serialPortWrite write data).1))
    s'.frames = s.frames
      ∧ ∃ rest', s'.Holds rest' ∧ (write.Takes → s'.taken ++ rest' = s.taken ++ rest
        ∧ (rest'.length < rest.length ∨ rest' = [] ∧ s'.writeEvent = false)) := by
  obtain ⟨mbt', hrx', hwritten⟩ := afterWrites_cases s s₀ hsends hmoves
  obtain ⟨hmbt, htimer', hframes, rest', hsends', hwrite, hcuts', htakes⟩ := hwritten.cuts hcuts
  refine ⟨hframes, rest', ⟨fun hcnt => ?_, ?_, hwrite, ?_⟩, htakes⟩
  · rw [htimer']
    rw [hmbt, hrx'.counter, hrx.counter] at hcnt
    exact htimer hcnt
  · rw [hmbt]
    exact hsends'
  · rw [hframes]
    exact hcuts'

theorem dataSent_holds (h : s.Holds rest) (hmoves : write.Moves) :
    (s.dataSent write).frames = s.frames
      ∧ ∃ rest', (s.dataSent write).Holds rest'
        ∧ (write.Takes → (s.dataSent write).taken ++ rest' = s.taken ++ rest
          ∧ (rest'.length < rest.length ∨ rest' = [] ∧ (s.dataSent write).writeEvent = false)) :=
  afterWrites_holds s hmoves h.sends ⟨rfl, rfl, rfl⟩ h.timer h.cuts

theorem step_writable (hevent : s.writeEvent = true) :
    s.step (.writable write) = (s.dataSent write, []) := by
  simp [step, hevent]

theorem step_idle (hidle : s.writeEvent = false) : s.step (.writable write) = (s, []) := by
  simp [step, hidle]

theorem sendPacket_accepted (s : EmbRtuViaSerial) (slaveAddr : ℤ) {pdu : EmbPdu} (write : PortWrite)
    (hfit : pdu.dataSize.toNat + 4 ≤ s.modbusRtu.txBufSize.toNat) :
    s.sendPacket slaveAddr pdu write
      = afterWrites write { s with accepted := s.accepted ++ [(slaveAddr, pdu)] }
        (embRtuPortEvent (s.modbusRtu.packed slaveAddr pdu)
          (.txBufEmpty fun data => (s.serialPortWrite write data).1)) := by
  unfold sendPacket
  rw [rtuSendPacket_eq hfit]
  rfl

theorem sendPacket_holds (h : s.Holds []) (hmoves : write.Moves) (slaveAddr : ℤ) {pdu : EmbPdu}
    (hfit : pdu.dataSize.toNat + 4 ≤ s.modbusRtu.txBufSize.toNat) :
    let frame := rtuBytes (BitVec.ofInt 8 slaveAddr) pdu.function pdu.bytes
    let s' := s.sendPacket slaveAddr pdu write
    s'.frames = s.frames ++ [frame]
      ∧ ∃ rest', s'.Holds rest' ∧ (write.Takes → s'.taken ++ rest' = s.taken ++ frame) := by
  let s₁ := { s with accepted := s.accepted ++ [(slaveAddr, pdu)] }
  have hframes₁ : s₁.frames
      = s.frames ++ [rtuBytes (BitVec.ofInt 8 slaveAddr) pdu.function pdu.bytes] := by
    simp [s₁, frames]
  have hcuts : Outbox.Cuts s₁.frames
      ⟨s₁.taken, rtuBytes (BitVec.ofInt 8 slaveAddr) pdu.function pdu.bytes⟩ := by
    rw [hframes₁]
    exact h.cuts.sent _
  have hpacked : (s.modbusRtu.packed slaveAddr pdu).Sends
      (rtuBytes (BitVec.ofInt 8 slaveAddr) pdu.function pdu.bytes) :=
    ⟨[], rtu_holds_packed s.modbusRtu slaveAddr pdu⟩
  have hrx : RtuSameRx (s.modbusRtu.packed slaveAddr pdu) s₁.modbusRtu := ⟨rfl, rfl, rfl⟩
  have hwritten := afterWrites_holds s hmoves hpacked hrx h.timer hcuts
  dsimp only
  rw [sendPacket_accepted s slaveAddr write hfit]
  obtain ⟨hframes, rest', hholds, htakes⟩ := hwritten
  exact ⟨hframes.trans hframes₁, rest', hholds, fun h => (htakes h).1⟩

theorem sendPacket_refused (s : EmbRtuViaSerial) (slaveAddr : ℤ) {pdu : EmbPdu} (write : PortWrite)
    (hfit : ¬pdu.dataSize.toNat + 4 ≤ s.modbusRtu.txBufSize.toNat) :
    s.sendPacket slaveAddr pdu write = s := by
  unfold sendPacket modbusRtuSendPacket
  rw [if_neg hfit]
  dsimp only
  rw [if_neg neg_modbusBufferOverflow_ne]
  rfl

/-- A step keeps it all; unless a write fails, all frames go out whole. -/
theorem step_holds (h : s.Holds rest) (i : SerialInput) (hlegal : s.Legal i) :
    ∃ rest', (s.step i).1.Holds rest'
      ∧ (Unfailed i → s.taken ++ rest = s.frames.flatten →
        (s.step i).1.taken ++ rest' = (s.step i).1.frames.flatten) := by
  cases i with
  | readable port => exact ⟨rest, dataReceived_holds h port, fun _ hwhole => hwhole⟩
  | writable write =>
    by_cases hwrite : s.writeEvent = true
    · obtain ⟨hframes, rest', hholds, htakes⟩ := dataSent_holds h hlegal
      rw [step_writable hwrite]
      refine ⟨rest', hholds, fun hunfailed hwhole => ?_⟩
      rw [(htakes hunfailed).1, hframes]
      exact hwhole
    · have hidle : s.writeEvent = false := by simpa using hwrite
      rw [step_idle hidle]
      exact ⟨rest, h, fun _ hwhole => hwhole⟩
  | timeout =>
    by_cases htimer : s.charTimeoutTimer = true
    · obtain ⟨rx, hrx, -, -⟩ := onCharTimeout_cases s.modbusRtu
      simp only [step, htimer, if_true]
      refine ⟨rest, ?_, fun _ hwhole => hwhole⟩
      rw [hrx]
      exact ⟨fun h => absurd rfl h, h.sends.congr rfl rfl rfl, h.write, h.cuts⟩
    · exact ⟨rest, by simpa [step, htimer] using h,
        fun _ hwhole => by simpa [step, htimer] using hwhole⟩
  | sendPacket slaveAddr pdu write =>
    obtain ⟨hidle, hmoves⟩ := hlegal
    have hnothing : rest = [] := h.sends.hasDataToSend.1 hidle
    subst hnothing
    by_cases hfit : pdu.dataSize.toNat + 4 ≤ s.modbusRtu.txBufSize.toNat
    · obtain ⟨hframes, rest', hholds, htakes⟩ := sendPacket_holds h hmoves slaveAddr hfit
      refine ⟨rest', hholds, fun hunfailed hwhole => (htakes hunfailed).trans ?_⟩
      rw [List.append_nil] at hwhole
      simp only [step]
      rw [hframes, hwhole]
      simp
    · simp only [step, sendPacket_refused s slaveAddr write hfit]
      exact ⟨[], h, fun _ hwhole => hwhole⟩

theorem run_holds : ∀ (ins : List SerialInput) {s : EmbRtuViaSerial} {rest : List Byte},
    s.Holds rest → Along step Legal s ins →
    ∃ rest', (run step s ins).1.Holds rest'
      ∧ ((∀ i ∈ ins, Unfailed i) → s.taken ++ rest = s.frames.flatten →
        (run step s ins).1.taken ++ rest' = (run step s ins).1.frames.flatten)
  | [], s, rest, h, _ => ⟨rest, h, fun _ hwhole => hwhole⟩
  | i :: ins, s, rest, h, hlegal => by
    obtain ⟨rest₁, hstep, hwhole₁⟩ := step_holds h i hlegal.1
    obtain ⟨rest₂, hrun, hwhole₂⟩ := run_holds ins hstep hlegal.2
    refine ⟨rest₂, hrun, fun hunfailed hwhole => ?_⟩
    obtain ⟨hi, hins⟩ := List.forall_mem_cons.1 hunfailed
    exact hwhole₂ hins (hwhole₁ hi hwhole)

/-! ## The device goes on -/

theorem run_writable_idle (hidle : s.writeEvent = false) (writes : List PortWrite) :
    (run step s (writes.map .writable)).1 = s := by
  induction writes with
  | nil => rfl
  | cons write writes ih =>
    rw [List.map_cons, run_cons, step_idle hidle]
    exact ih

/-- A device that goes on taking gets all that is left, and then the event is taken away. -/
theorem run_writable : ∀ (writes : List PortWrite) {s : EmbRtuViaSerial} {rest : List Byte},
    s.Holds rest → (∀ write ∈ writes, write.Takes) → rest.length < writes.length →
    (run step s (writes.map .writable)).1.taken = s.taken ++ rest
      ∧ (run step s (writes.map .writable)).1.modbusRtu.Sends []
      ∧ (run step s (writes.map .writable)).1.writeEvent = false
  | [], _, _, _, _, hlen => by simp at hlen
  | write :: writes, s, rest, h, htakes, hlen => by
    obtain ⟨hwrite, hwrites⟩ := List.forall_mem_cons.1 htakes
    rw [List.length_cons] at hlen
    have hmoves : write.Moves := fun bytes hbytes => (hwrite bytes hbytes).ne'
    rw [List.map_cons, run_cons]
    by_cases hevent : s.writeEvent = true
    · rw [step_writable hevent]
      obtain ⟨-, rest', hholds, htook⟩ := dataSent_holds h hmoves
      obtain ⟨htaken, hless | ⟨rfl, hidle⟩⟩ := htook hwrite
      · obtain ⟨htaken', hsends, hidle⟩ := run_writable writes hholds hwrites (by omega)
        exact ⟨htaken'.trans htaken, hsends, hidle⟩
      · dsimp only
        rw [run_writable_idle hidle]
        exact ⟨by rw [← htaken, List.append_nil], hholds.sends, hidle⟩
    · have hidle : s.writeEvent = false := by simpa using hevent
      have hnothing : rest = [] := by
        by_contra hrest
        exact hevent (h.write hrest)
      subst hnothing
      rw [step_idle hidle]
      dsimp only
      rw [run_writable_idle hidle, List.append_nil]
      exact ⟨rfl, h.sends, hidle⟩

/-- In every run in which packets are sent when there is nothing left to send and every write takes
something or fails: what has been received waits for the timer and what is to be sent for the
device, which has got the frames of the accepted packets in their order, each of them whole or cut
off, and whole unless a write has failed.  A device that goes on taking gets the rest, and then
`write_event` is taken away. -/
theorem serial_port_keeps_order (transport : EmbTransport) (ins : List SerialInput)
    (hlegal : Along step Legal (create transport) ins) :
    let s := (run step (create transport) ins).1
    s.Armed ∧ Outbox.Cuts s.frames ⟨s.taken, s.modbusRtu.unsent⟩
      ∧ ((∀ i ∈ ins, Unfailed i) → s.taken ++ s.modbusRtu.unsent = s.frames.flatten)
      ∧ ∀ writes : List PortWrite, (∀ write ∈ writes, write.Takes) →
        s.modbusRtu.unsent.length < writes.length →
        let s' := (run step s (writes.map .writable)).1
        s'.taken = s.taken ++ s.modbusRtu.unsent ∧ s'.modbusRtu.unsent = []
          ∧ s'.writeEvent = false := by
  obtain ⟨rest, hholds, hwhole⟩ := run_holds ins (create_holds transport) hlegal
  have hunsent := hholds.sends.unsent
  dsimp only
  rw [hunsent]
  refine ⟨hholds.armed, hholds.cuts, fun hunfailed => hwhole hunfailed rfl, ?_⟩
  intro writes htakes hlen
  obtain ⟨htaken, hsends, hevent⟩ := run_writable writes hholds htakes hlen
  exact ⟨htaken, hsends.unsent, hevent⟩

/-- A device that takes `n` bytes at a time. -/
def taking (n : ℕ) : PortWrite where
  send bytes := min n bytes.length
  le_length bytes := by
    norm_cast
    exact Nat.min_le_right _ _

theorem taking_moves {n : ℕ} (hn : 0 < n) : (taking n).Moves := by
  intro bytes hbytes
  have hpos : 0 < bytes.length := List.length_pos_of_ne_nil hbytes
  simp only [taking, ne_eq]
  omega

/-- Two packets: the device takes three bytes of the first and then the other two, and two of the
second. -/
def twoPackets : List SerialInput :=
  [.sendPacket 17 oneByteReq (taking 3), .writable (taking 9), .writable (taking 9),
    .sendPacket 18 oneByteReq (taking 2)]

theorem twoPackets_legal : Along step Legal (create ⟨none, true⟩) twoPackets := by
  refine ⟨⟨rfl, taking_moves (by simp)⟩, taking_moves (by simp), taking_moves (by simp),
    ⟨?_, taking_moves (by simp)⟩, trivial⟩
  decide

theorem serial_port_keeps_order_two :
    let s := (run step (create ⟨none, true⟩) twoPackets).1
    s.Armed ∧ Outbox.Cuts s.frames ⟨s.taken, s.modbusRtu.unsent⟩
      ∧ ((∀ i ∈ twoPackets, Unfailed i) → s.taken ++ s.modbusRtu.unsent = s.frames.flatten)
      ∧ ∀ writes : List PortWrite, (∀ write ∈ writes, write.Takes) →
        s.modbusRtu.unsent.length < writes.length →
        let s' := (run step s (writes.map .writable)).1
        s'.taken = s.taken ++ s.modbusRtu.unsent ∧ s'.modbusRtu.unsent = []
          ∧ s'.writeEvent = false :=
  serial_port_keeps_order ⟨none, true⟩ twoPackets twoPackets_legal

end EmbRtuViaSerial

end Emodbus
