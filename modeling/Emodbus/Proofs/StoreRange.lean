import Emodbus.Proofs.Registry
import Emodbus.Proofs.Server
import Emodbus.Proofs.SrvCases

/-!
# The callbacks of a block are called inside it

Three handlers make no check of the address themselves: the lookup gives them a block that has it.
The others check that the block has the last address as well.
-/

namespace Emodbus

open Octets Mealy AddrRange

variable {σ : Type}

/-- Every block of the table has an address, and none beyond the sixteen bits. -/
def AllOccupied {β : Type} [AddrRange β] (bs : List β) : Prop :=
  ∀ b ∈ bs, FitsSpace b ∧ 1 ≤ (size b).toNat

structure ServerTables.Occupied (t : ServerTables σ) : Prop where
  coils : AllOccupied t.coils
  discreteInputs : AllOccupied t.discreteInputs
  holdings : AllOccupied t.holdings
  inputRegs : AllOccupied t.inputRegs

section Table

variable {β : Type} [AddrRange β] {bs : List β} {b : β}

theorem AllOccupied.addBlock (h : AllOccupied bs) (hb : FitsSpace b) (hpos : 1 ≤ (size b).toNat) :
    AllOccupied (addBlock bs b).1 := by
  unfold Emodbus.addBlock
  split_ifs
  · exact h
  · intro c hc
    rcases List.mem_append.1 hc with hc | hc
    · exact h c hc
    · rw [List.mem_singleton.1 hc]
      exact ⟨hb, hpos⟩

/-- A block that a lookup finds has the address. -/
theorem AllOccupied.found (h : AllOccupied bs) {s : σ} {addr : Word}
    (hfind : lookUp (some fun addr (_ : σ) => getBlock bs addr) addr s = .ok b) :
    b ∈ bs ∧ (start b).toNat ≤ addr.toNat
      ∧ addr.toNat < (start b).toNat + (size b).toNat := by
  unfold lookUp at hfind
  dsimp only at hfind
  cases hget : getBlock bs addr with
  | none =>
    rw [hget] at hfind
    cases hfind
  | some c =>
    rw [hget] at hfind
    cases hfind
    have hb : b ∈ bs := List.mem_of_find?_eq_some hget
    have hit : inBlock b addr = true := List.find?_some (p := fun i => inBlock i addr) hget
    obtain ⟨hfits, hpos⟩ := h b hb
    have hz : ¬ (start b = 0 ∧ size b = 0) := by
      rintro ⟨-, hz⟩
      rw [hz] at hpos
      exact absurd hpos (by simp)
    have hmem := (inBlock_iff hfits hz addr).1 hit
    exact ⟨hb, hmem.1, hmem.2⟩

end Table

theorem ServerTables.Occupied.start : (ServerTables.empty : ServerTables σ).Occupied :=
  ⟨by simp [AllOccupied, ServerTables.empty], by simp [AllOccupied, ServerTables.empty],
    by simp [AllOccupied, ServerTables.empty], by simp [AllOccupied, ServerTables.empty]⟩

theorem ServerTables.Occupied.add {t : ServerTables σ} (h : t.Occupied) (c : AddCall σ)
    (hfit : c.Fits) (hpos : c.Occupied) : (t.add c).1.Occupied := by
  cases c with
  | coils block =>
    exact ⟨h.coils.addBlock hfit hpos, h.discreteInputs, h.holdings, h.inputRegs⟩
  | discreteInputs block =>
    exact ⟨h.coils, h.discreteInputs.addBlock hfit hpos, h.holdings, h.inputRegs⟩
  | holdingRegs block =>
    exact ⟨h.coils, h.discreteInputs, h.holdings.addBlock hfit hpos, h.inputRegs⟩
  | inputRegs block =>
    exact ⟨h.coils, h.discreteInputs, h.holdings, h.inputRegs.addBlock hfit hpos⟩
  | file file =>
    obtain ⟨h1, h2, h3, h4⟩ := addFile_tables t file
    refine ⟨?_, ?_, ?_, ?_⟩
    · exact h1 ▸ h.coils
    · exact h2 ▸ h.discreteInputs
    · exact h3 ▸ h.holdings
    · exact h4 ▸ h.inputRegs

theorem registered_occupied {calls : List (AddCall σ)}
    (h : ∀ c ∈ calls, c.Fits ∧ c.Occupied) : (registered calls).1.Occupied :=
  run_inv (Q := fun _ c => AddCall.Fits c ∧ AddCall.Occupied c)
    (fun _ c ht hc => ht.add c hc.1 hc.2) calls _ ServerTables.Occupied.start (along_of_forall h)

/-! ## Inside a block -/

section Within

variable {start size addr n : Word}

theorem toNat_offset (h : start.toNat ≤ addr.toNat) :
    (addr - start).toNat = addr.toNat - start.toNat := by
  have := addr.isLt
  have := start.isLt
  rw [BitVec.toNat_sub]
  omega

theorem withinBlock (hle : start.toNat ≤ addr.toNat) (hpos : 1 ≤ n.toNat)
    (hfits : addr.toNat + n.toNat ≤ start.toNat + size.toNat) :
    WithinBlock start size (addr - start) n addr where
  pos := hpos
  fits := by
    rw [toNat_offset hle]
    omega
  addr := by
    rw [toNat_offset hle]
    omega

end Within

/-! ## The handlers -/

section Handlers

variable {t : ServerTables σ} {readFifo : Option (Word → σ → Byte × List Word × Byte × σ)}
  {r : SrvRun σ}

/-- The calls a handler has made are all in range. -/
def InRangeCalls (t : ServerTables σ) (r : SrvRun σ) (res : Byte × SrvRun σ) : Prop :=
  ∃ made, res.2.calls = r.calls ++ made
    ∧ ∀ c ∈ made, c.InRange t r.rxPdu r.txPdu.maxSize.toNat

theorem Refused.inRange {res : Byte × SrvRun σ} (h : Refused r res) : InRangeCalls t r res :=
  ⟨[], by rw [h.calls, List.append_nil], by simp⟩

theorem Called.inRange_one {res : Byte × SrvRun σ} {call : StoreCall} {store : σ}
    (h : Called r res [call] store) (hcall : call.InRange t r.rxPdu r.txPdu.maxSize.toNat) :
    InRangeCalls t r res :=
  ⟨[call], h.calls, by simpa using hcall⟩

theorem Called.inRange_two {res : Byte × SrvRun σ} {c1 c2 : StoreCall} {store : σ}
    (h : Called r res [c1, c2] store) (h1 : c1.InRange t r.rxPdu r.txPdu.maxSize.toNat)
    (h2 : c2.InRange t r.rxPdu r.txPdu.maxSize.toNat) : InRangeCalls t r res := by
  refine ⟨[c1, c2], h.calls, fun c hc => ?_⟩
  simp only [List.mem_cons, List.not_mem_nil, or_false] at hc
  rcases hc with rfl | rfl
  · exact h1
  · exact h2

/-- A block that a lookup of bits finds is one of the tables, and has the address. -/
theorem Occupied.bits (ht : t.Occupied) {addr : Word} {block : EmbSrvBits σ}
    (h : lookUp (bitsGetter (t.server readFifo) r.rxPdu.function) addr r.store = .ok block) :
    block ∈ t.coils ++ t.discreteInputs ∧ block.start.toNat ≤ addr.toNat := by
  unfold bitsGetter at h
  split_ifs at h
  · obtain ⟨hb, hle, -⟩ := ht.coils.found h
    exact ⟨List.mem_append_left _ hb, hle⟩
  · obtain ⟨hb, hle, -⟩ := ht.discreteInputs.found h
    exact ⟨List.mem_append_right _ hb, hle⟩
  · cases h

theorem Occupied.regs (ht : t.Occupied) {addr : Word} {block : EmbSrvRegs σ}
    (h : lookUp (regsGetter (t.server readFifo) r.rxPdu.function) addr r.store = .ok block) :
    block ∈ t.holdings ++ t.inputRegs ∧ block.start.toNat ≤ addr.toNat := by
  unfold regsGetter at h
  split_ifs at h
  · obtain ⟨hb, hle, -⟩ := ht.holdings.found h
    exact ⟨List.mem_append_left _ hb, hle⟩
  · obtain ⟨hb, hle, -⟩ := ht.inputRegs.found h
    exact ⟨List.mem_append_right _ hb, hle⟩
  · cases h

theorem embSrvReadBits_inRange (ht : t.Occupied) :
    InRangeCalls t r (embSrvReadBits (t.server readFifo) r) := by
  rcases embSrvReadBits_cases (t.server readFifo) rfl rfl rfl with
    h | ⟨block, _, hreach, -, hroom, h, -⟩
  · exact h.inRange
  obtain ⟨hmem, hle⟩ := Occupied.bits ht hreach.found
  exact h.inRange_one ⟨⟨block, hmem, rfl, rfl⟩, withinBlock hle hreach.pos hreach.fits, rfl, hroom⟩

theorem writeAddr_eq (h : r.rxPdu.function ≠ 0x17) :
    r.rxPdu.writeAddr = getBigEnd16 r.rxPdu.data 0 := by
  unfold EmbPdu.writeAddr
  rw [if_neg h]

theorem embSrvWriteCoil_inRange (ht : t.Occupied) (hf : r.rxPdu.function ≠ 0x17) :
    InRangeCalls t r (embSrvWriteCoil (t.server readFifo) r) := by
  rcases embSrvWriteCoil_cases (t.server readFifo) rfl rfl with h | ⟨block, _, hfind, -, -, h, -⟩
  · exact h.inRange
  obtain ⟨hmem, hle, hlt⟩ := ht.coils.found hfind
  refine h.inRange_one ⟨⟨block, hmem, rfl, rfl⟩, ?_⟩
  rw [writeAddr_eq hf]
  exact withinBlock hle le_rfl hlt

theorem embSrvWriteCoils_inRange (ht : t.Occupied) (hf : r.rxPdu.function ≠ 0x17) :
    InRangeCalls t r (embSrvWriteCoils (t.server readFifo) r) := by
  rcases embSrvWriteCoils_cases (t.server readFifo) rfl rfl with
    h | ⟨block, _, _, hreach, -, -, h, -⟩
  · exact h.inRange
  obtain ⟨hmem, hle, -⟩ := ht.coils.found hreach.found
  refine h.inRange_one ⟨⟨block, hmem, rfl, rfl⟩, ?_⟩
  rw [writeAddr_eq hf]
  exact withinBlock hle hreach.pos hreach.fits

theorem embSrvReadRegs_inRange (ht : t.Occupied) :
    InRangeCalls t r (embSrvReadRegs (t.server readFifo) r) := by
  rcases embSrvReadRegs_cases (t.server readFifo) rfl rfl rfl with
    h | ⟨block, _, hreach, -, hroom, h, -⟩
  · exact h.inRange
  obtain ⟨hmem, hle⟩ := Occupied.regs ht hreach.found
  refine h.inRange_one ⟨⟨block, hmem, rfl, rfl⟩, withinBlock hle hreach.pos hreach.fits, rfl, ?_⟩
  omega

theorem embSrvWriteReg_inRange (ht : t.Occupied) (hf : r.rxPdu.function ≠ 0x17) :
    InRangeCalls t r (embSrvWriteReg (t.server readFifo) r) := by
  rcases embSrvWriteReg_cases (t.server readFifo) rfl rfl with ⟨h, -⟩ | ⟨block, _, hfind, -, h, -⟩
  · exact h.inRange
  obtain ⟨hmem, hle, hlt⟩ := ht.holdings.found hfind
  refine h.inRange_one ⟨⟨block, hmem, rfl, rfl⟩, ?_, rfl⟩
  rw [writeAddr_eq hf]
  exact withinBlock hle le_rfl hlt

theorem embSrvWriteRegs_inRange (ht : t.Occupied) (hf : r.rxPdu.function ≠ 0x17) :
    InRangeCalls t r (embSrvWriteRegs (t.server readFifo) r) := by
  rcases embSrvWriteRegs_cases (t.server readFifo) rfl rfl with
    h | ⟨block, _, _, hreach, -, hlen, -, h, -⟩
  · exact h.inRange
  obtain ⟨hmem, hle, -⟩ := ht.holdings.found hreach.found
  refine h.inRange_one ⟨⟨block, hmem, rfl, rfl⟩, ?_, hlen⟩
  rw [writeAddr_eq hf]
  exact withinBlock hle hreach.pos hreach.fits

theorem embSrvMaskReg_inRange (ht : t.Occupied) (hf : r.rxPdu.function ≠ 0x17) :
    InRangeCalls t r (embSrvMaskReg (t.server readFifo) r) := by
  rcases embSrvMaskReg_cases (t.server readFifo) rfl rfl rfl with
    ⟨h, -⟩ | ⟨block, _, _, hfind, -, -, hdone⟩
  · exact h.inRange
  obtain ⟨hmem, hle, hlt⟩ := ht.holdings.found hfind
  have hin := withinBlock hle (n := 1) le_rfl hlt
  rcases hdone with ⟨-, -, h⟩ | ⟨-, h, -⟩
  · exact h.inRange_one ⟨⟨block, List.mem_append_left _ hmem, rfl, rfl⟩, hin, rfl⟩
  · refine h.inRange_two ⟨⟨block, List.mem_append_left _ hmem, rfl, rfl⟩, hin, rfl⟩
      ⟨⟨block, hmem, rfl, rfl⟩, ?_, rfl⟩
    rw [writeAddr_eq hf]
    exact hin

theorem embSrvReadWriteRegs_inRange (ht : t.Occupied) (hf : r.rxPdu.function = 0x17) :
    InRangeCalls t r (embSrvReadWriteRegs (t.server readFifo) r) := by
  rcases embSrvReadWriteRegs_cases (t.server readFifo) rfl rfl rfl rfl with
    h | ⟨wrRegs, rdRegs, _, _, _, hwr, hrd, -, -, hlen, hroom, hdone⟩
  · exact h.inRange
  obtain ⟨hwmem, hwle, -⟩ := ht.holdings.found hwr.found
  obtain ⟨hmem, hle, -⟩ := ht.holdings.found hrd.found
  have hwaddr : r.rxPdu.writeAddr = getBigEnd16 r.rxPdu.data 4 := by
    unfold EmbPdu.writeAddr
    rw [if_pos hf]
  have hwin : WithinBlock wrRegs.start wrRegs.size (getBigEnd16 r.rxPdu.data 4 - wrRegs.start)
      (getBigEnd16 r.rxPdu.data 6) r.rxPdu.writeAddr := by
    rw [hwaddr]
    exact withinBlock hwle hwr.pos hwr.fits
  have hin := withinBlock hle hrd.pos hrd.fits
  rcases hdone with ⟨-, -, h⟩ | ⟨-, -, h, -⟩
  · exact h.inRange_one ⟨⟨wrRegs, hwmem, rfl, rfl⟩, hwin, hlen⟩
  · exact h.inRange_two ⟨⟨wrRegs, hwmem, rfl, rfl⟩, hwin, hlen⟩
      ⟨⟨rdRegs, List.mem_append_left _ hmem, rfl, rfl⟩, hin, rfl, by omega⟩

variable (readFifo)

theorem getFunction_inRange (ht : t.Occupied) {func : EmbSrvFunction σ}
    (hfunc : getFunction r.rxPdu.function = some func) :
    InRangeCalls t r (func.call (t.server readFifo) r) := by
  refine getFunction_elim (P := fun func => InRangeCalls t r (func.call (t.server readFifo) r))
    hfunc ?_ ?_ ?_ ?_ ?_ ?_ ?_ ?_
  · exact fun _ => embSrvReadBits_inRange ht
  · exact fun h5 => embSrvWriteCoil_inRange ht (by simp [h5])
  · exact fun hF => embSrvWriteCoils_inRange ht (by simp [hF])
  · exact fun _ => embSrvReadRegs_inRange ht
  · exact fun h6 => embSrvWriteReg_inRange ht (by simp [h6])
  · exact fun h10 => embSrvWriteRegs_inRange ht (by simp [h10])
  · exact fun h16 => embSrvMaskReg_inRange ht (by simp [h16])
  · exact fun h17 => embSrvReadWriteRegs_inRange ht h17

/-- The calls of whatever a server makes of a request. -/
theorem callFunction_inRange (ht : t.Occupied) (isBroadcast : Bool) :
    ∃ made, (callFunction { t.server readFifo with
          getFunction := some getFunction
          isBroadcast := isBroadcast } r).1.calls = r.calls ++ made
      ∧ ∀ c ∈ made, c.InRange t r.rxPdu r.txPdu.maxSize.toNat := by
  unfold callFunction
  dsimp only
  split
  · exact ⟨[], by simp [answerException], by simp⟩
  · rename_i func hfunc
    have hin := getFunction_inRange readFifo ht hfunc
    split_ifs
    · exact hin
    · exact hin

end Handlers

/-- Whatever blocks a server was given and whatever request comes in, the callbacks of its blocks
are called inside the blocks, and what they read has room in the response. -/
theorem store_calls_in_range (calls : List (AddCall σ)) (hcalls : ∀ c ∈ calls, c.Fits ∧ c.Occupied)
    (readFifo : Option (Word → σ → Byte × List Word × Byte × σ)) (isBroadcast : Bool)
    (address : Byte) (slaveAddr : ℤ) (r : SrvRun σ) :
    ∃ made, (embSuperServerOnReceiveReq
          ((registered calls).1.superServer readFifo isBroadcast address) slaveAddr r).run.calls
        = r.calls ++ made
      ∧ ∀ c ∈ made, c.InRange (registered calls).1 r.rxPdu r.txPdu.maxSize.toNat := by
  have hocc := registered_occupied hcalls
  unfold embSuperServerOnReceiveReq ServerTables.superServer
  dsimp only
  split
  · exact ⟨[], by simp, by simp⟩
  · rename_i srv hsrv
    split_ifs at hsrv with haddr
    cases hsrv
    have hin := callFunction_inRange readFifo (r := r) hocc isBroadcast
    split_ifs
    · exact hin
    · exact hin

/-- A block of two holding registers that are never failed. -/
def pairBlock : EmbSrvRegs Unit :=
  ⟨0xFFFE, 2, some fun _ n _ => (0, List.replicate n.toNat 7, ()), some fun _ _ _ _ => (0, ())⟩

/-- The registers at the two last addresses are read. -/
def readLastTwo : SrvRun Unit :=
  ⟨⟨3, 4, 253, fun i => [0xFF, 0xFE, 0, 2].getD i 0⟩, ⟨0, 0, 253, fun _ => 0⟩, (), []⟩

theorem store_calls_in_range_last :
    ∃ made, (embSuperServerOnReceiveReq
          ((registered [.holdingRegs pairBlock]).1.superServer none false 1) 1
          readLastTwo).run.calls
        = readLastTwo.calls ++ made
      ∧ ∀ c ∈ made, c.InRange (registered [.holdingRegs pairBlock]).1 readLastTwo.rxPdu
          readLastTwo.txPdu.maxSize.toNat := by
  refine store_calls_in_range [.holdingRegs pairBlock] (fun c hc => ?_) none false 1 1 readLastTwo
  rw [List.mem_singleton.1 hc]
  exact ⟨show (0xFFFE : Word).toNat + (2 : Word).toNat ≤ 65536 by simp,
    show 1 ≤ (2 : Word).toNat by simp⟩

end Emodbus
