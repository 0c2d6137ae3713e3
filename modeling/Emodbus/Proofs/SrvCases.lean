import Emodbus.AnswerForm
import Emodbus.Proofs.ServerBits
import Emodbus.Proofs.ServerRegs
import Emodbus.WriteAtomic

/-!
# What a handler can do

A handler for bits or registers either refuses the request before it has called the store, or it
calls the callbacks of blocks that its lookups found, and what they return decides what it returns.
Each lemma lists all of it: the checks that were passed, the calls, the code and the response.
-/

namespace Emodbus

open Octets

variable {σ : Type}

/-- The handler has returned a code, and neither changed the store nor called it. -/
structure Refused (r : SrvRun σ) (res : Byte × SrvRun σ) : Prop where
  code : res.1 ≠ 0
  store : res.2.store = r.store
  calls : res.2.calls = r.calls
  rxPdu : res.2.rxPdu = r.rxPdu

/-- The handler has made these calls and left this store. -/
structure Called (r : SrvRun σ) (res : Byte × SrvRun σ) (calls : List StoreCall) (store : σ) :
    Prop where
  calls : res.2.calls = r.calls ++ calls
  store : res.2.store = store
  function : res.2.rxPdu.function = r.rxPdu.function

/-- The lookup has found a block, and it has all the addresses that are asked for. -/
structure Reaches {β : Type} (stop : β → ℕ) (found : Except Byte β) (addr n : Word) (block : β) :
    Prop where
  found : found = .ok block
  pos : 1 ≤ n.toNat
  fits : addr.toNat + n.toNat ≤ stop block

theorem mbeSlaveFailure_ne : mbeSlaveFailure ≠ 0 := by decide

theorem mbeIllegalFunction_ne : mbeIllegalFunction ≠ 0 := by decide

theorem mbeIllegalDataAddr_ne : mbeIllegalDataAddr ≠ 0 := by decide

theorem mbeIllegalDataValue_ne : mbeIllegalDataValue ≠ 0 := by decide

theorem lookUp_error_ne {β : Type} {get : Option (Word → σ → Option β)} {addr : Word} {s : σ}
    {code : Byte} (h : lookUp get addr s = .error code) : code ≠ 0 := by
  unfold lookUp at h
  split at h
  · cases h
    exact mbeSlaveFailure_ne
  · split at h
    · cases h
      exact mbeIllegalDataAddr_ne
    · cases h

theorem refused_of_code {r r' : SrvRun σ} {code : Byte} (h : code ≠ 0)
    (hstore : r'.store = r.store) (hcalls : r'.calls = r.calls) (hrx : r'.rxPdu = r.rxPdu) :
    Refused r (code, r') := ⟨h, hstore, hcalls, hrx⟩

variable (srv : EmbServer σ) {r : SrvRun σ} {f : Byte} {a n : Word}

/-! ## Bits -/

theorem embSrvReadBits_cases (hf : r.rxPdu.function = f) (ha : getBigEnd16 r.rxPdu.data 0 = a)
    (hn : getBigEnd16 r.rxPdu.data 2 = n) :
    Refused r (embSrvReadBits srv r) ∨ ∃ block readBits,
      Reaches EmbSrvBits.stop (lookUp (bitsGetter srv f) a r.store) a n block
      ∧ block.readBits = some readBits
      ∧ 1 + (n.toNat + 7) / 8 ≤ r.txPdu.maxSize.toNat
      ∧ Called r (embSrvReadBits srv r)
          [.readBits block.start block.size (a - block.start) n 1]
          (readBits (a - block.start) n r.store).2.2
      ∧ (embSrvReadBits srv r).1 = (readBits (a - block.start) n r.store).1
      ∧ Counted (embSrvReadBits srv r).2.txPdu f ((n.toNat + 7) / 8) := by
  unfold embSrvReadBits
  dsimp only
  rw [hf, ha, hn]
  by_cases hq : 1 ≤ n.toNat ∧ n.toNat ≤ 0x07D0
  swap
  · rw [if_pos hq]
    exact Or.inl (refused_of_code mbeIllegalDataValue_ne rfl rfl rfl)
  rw [if_neg (not_not.2 hq)]
  cases hfind : lookUp (bitsGetter srv f) a r.store with
  | error code => exact Or.inl (refused_of_code (lookUp_error_ne hfind) rfl rfl rfl)
  | ok block =>
    dsimp only
    by_cases hfit : block.start.toNat + block.size.toNat < a.toNat + n.toNat
    · rw [if_pos hfit]
      exact Or.inl (refused_of_code mbeIllegalDataAddr_ne rfl rfl rfl)
    rw [if_neg hfit]
    cases hread : block.readBits with
    | none => exact Or.inl (refused_of_code mbeIllegalDataAddr_ne rfl rfl rfl)
    | some readBits =>
      dsimp only
      have hcount := toNat_bitsByteCount hq.2
      have hsize : (BitVec.ofNat 8 (readCoilsAnsSize (bitsByteCount n).toNat)).toNat
          = 1 + (n.toNat + 7) / 8 := by
        rw [hcount]
        exact dataSize_of_lt (by unfold readCoilsAnsSize; omega)
      by_cases hroom : r.txPdu.maxSize.toNat
          < (BitVec.ofNat 8 (readCoilsAnsSize (bitsByteCount n).toNat)).toNat
      · rw [if_pos hroom]
        exact Or.inl (refused_of_code mbeSlaveFailure_ne rfl rfl rfl)
      rw [if_neg hroom]
      refine Or.inr ⟨block, readBits, ⟨rfl, hq.1, by unfold EmbSrvBits.stop; omega⟩, hread,
        by omega, ⟨rfl, rfl, rfl⟩, rfl, ⟨rfl, hsize, ?_⟩⟩
      dsimp only
      rw [Mem.blit_of_lt _ _ Nat.zero_lt_one, Mem.blit_singleton, if_pos rfl, hcount]

theorem embSrvWriteCoil_cases {value : Word} (ha : getBigEnd16 r.rxPdu.data 0 = a)
    (hv : getBigEnd16 r.rxPdu.data 2 = value) :
    Refused r (embSrvWriteCoil srv r) ∨ ∃ block writeBits,
      lookUp srv.getCoils a r.store = .ok block
      ∧ block.writeBits = some writeBits
      ∧ writeCoilAnsSize ≤ r.txPdu.maxSize.toNat
      ∧ Called r (embSrvWriteCoil srv r)
          [.writeBits block.start block.size (a - block.start) 1 [if value = 0x0000 then 0 else 1]]
          (writeBits (a - block.start) 1 [if value = 0x0000 then 0 else 1] r.store).2
      ∧ (embSrvWriteCoil srv r).1
        = (writeBits (a - block.start) 1 [if value = 0x0000 then 0 else 1] r.store).1
      ∧ (embSrvWriteCoil srv r).2.txPdu.Carries 0x05 (Mem.be [a, value]) := by
  unfold embSrvWriteCoil
  dsimp only
  rw [ha, hv]
  by_cases hvalue : value = 0x0000 ∨ value = 0xFF00
  swap
  · rw [if_pos hvalue]
    exact Or.inl (refused_of_code mbeIllegalDataValue_ne rfl rfl rfl)
  rw [if_neg (not_not.2 hvalue)]
  cases hfind : lookUp srv.getCoils a r.store with
  | error code => exact Or.inl (refused_of_code (lookUp_error_ne hfind) rfl rfl rfl)
  | ok block =>
    dsimp only
    cases hwrite : block.writeBits with
    | none => exact Or.inl (refused_of_code mbeIllegalDataAddr_ne rfl rfl rfl)
    | some writeBits =>
      dsimp only
      have hsize : (BitVec.ofNat 8 writeCoilAnsSize).toNat = writeCoilAnsSize := rfl
      by_cases hroom : r.txPdu.maxSize.toNat < (BitVec.ofNat 8 writeCoilAnsSize).toNat
      · rw [if_pos hroom]
        exact Or.inl (refused_of_code mbeSlaveFailure_ne rfl rfl rfl)
      rw [if_neg hroom]
      exact Or.inr ⟨block, writeBits, rfl, hwrite, by omega, ⟨rfl, rfl, rfl⟩, rfl, rfl,
        slice_two _ _ _⟩

theorem embSrvWriteCoils_cases (ha : getBigEnd16 r.rxPdu.data 0 = a)
    (hn : getBigEnd16 r.rxPdu.data 2 = n) :
    Refused r (embSrvWriteCoils srv r) ∨ ∃ block writeBits values,
      Reaches EmbSrvBits.stop (lookUp srv.getCoils a r.store) a n block
      ∧ block.writeBits = some writeBits
      ∧ writeCoilsAnsSize ≤ r.txPdu.maxSize.toNat
      ∧ Called r (embSrvWriteCoils srv r)
          [.writeBits block.start block.size (a - block.start) n values]
          (writeBits (a - block.start) n values r.store).2
      ∧ (embSrvWriteCoils srv r).1 = (writeBits (a - block.start) n values r.store).1
      ∧ (embSrvWriteCoils srv r).2.txPdu.Carries 0x0F (Mem.be [a, n]) := by
  unfold embSrvWriteCoils
  dsimp only
  rw [ha, hn]
  by_cases hq : 1 ≤ n.toNat ∧ n.toNat ≤ 0x07B0
  swap
  · rw [if_pos hq]
    exact Or.inl (refused_of_code mbeIllegalDataValue_ne rfl rfl rfl)
  rw [if_neg (not_not.2 hq)]
  by_cases hcount : (r.rxPdu.dataSize.toNat : ℤ) - 5 ≠ (r.rxPdu.data 4).toNat
  · rw [if_pos hcount]
    exact Or.inl (refused_of_code mbeIllegalDataValue_ne rfl rfl rfl)
  rw [if_neg hcount]
  cases hfind : lookUp srv.getCoils a r.store with
  | error code => exact Or.inl (refused_of_code (lookUp_error_ne hfind) rfl rfl rfl)
  | ok block =>
    dsimp only
    by_cases hfit : block.start.toNat + block.size.toNat < a.toNat + n.toNat
    · rw [if_pos hfit]
      exact Or.inl (refused_of_code mbeIllegalDataAddr_ne rfl rfl rfl)
    rw [if_neg hfit]
    cases hwrite : block.writeBits with
    | none => exact Or.inl (refused_of_code mbeIllegalDataAddr_ne rfl rfl rfl)
    | some writeBits =>
      dsimp only
      have hsize : (BitVec.ofNat 8 writeCoilsAnsSize).toNat = writeCoilsAnsSize := rfl
      by_cases hroom : r.txPdu.maxSize.toNat < (BitVec.ofNat 8 writeCoilsAnsSize).toNat
      · rw [if_pos hroom]
        exact Or.inl (refused_of_code mbeSlaveFailure_ne rfl rfl rfl)
      rw [if_neg hroom]
      exact Or.inr ⟨block, writeBits, Mem.slice r.rxPdu.data 5 (bitsBytes n),
        ⟨rfl, hq.1, by unfold EmbSrvBits.stop; omega⟩, hwrite, by omega, ⟨rfl, rfl, rfl⟩, rfl,
        rfl, slice_two _ _ _⟩

/-! ## Registers -/

theorem embSrvReadRegs_cases (hf : r.rxPdu.function = f) (ha : getBigEnd16 r.rxPdu.data 0 = a)
    (hn : getBigEnd16 r.rxPdu.data 2 = n) :
    Refused r (embSrvReadRegs srv r) ∨ ∃ block readRegs,
      Reaches EmbSrvRegs.stop (lookUp (regsGetter srv f) a r.store) a n block
      ∧ block.readRegs = some readRegs
      ∧ 1 + n.toNat * 2 ≤ r.txPdu.maxSize.toNat
      ∧ Called r (embSrvReadRegs srv r)
          [.readRegs block.start block.size (a - block.start) n (some 1)]
          (readRegs (a - block.start) n r.store).2.2
      ∧ (embSrvReadRegs srv r).1 = (readRegs (a - block.start) n r.store).1
      ∧ ((embSrvReadRegs srv r).1 = 0 →
          Counted (embSrvReadRegs srv r).2.txPdu f (n.toNat * 2)) := by
  unfold embSrvReadRegs
  dsimp only
  rw [hf, ha, hn]
  cases hfind : lookUp (regsGetter srv f) a r.store with
  | error code => exact Or.inl (refused_of_code (lookUp_error_ne hfind) rfl rfl rfl)
  | ok block =>
    dsimp only
    by_cases hq : 1 ≤ n.toNat ∧ n.toNat ≤ 0x007D
    swap
    · rw [if_pos hq]
      exact Or.inl (refused_of_code mbeIllegalDataValue_ne rfl rfl rfl)
    rw [if_neg (not_not.2 hq)]
    by_cases hfit : block.start.toNat + block.size.toNat < a.toNat + n.toNat
    · rw [if_pos hfit]
      exact Or.inl (refused_of_code mbeIllegalDataAddr_ne rfl rfl rfl)
    rw [if_neg hfit]
    cases hread : block.readRegs with
    | none => exact Or.inl (refused_of_code mbeIllegalDataAddr_ne rfl rfl rfl)
    | some readRegs =>
      dsimp only
      have hsize : (BitVec.ofNat 8 (readHoldingsAnsSize n.toNat)).toNat = 1 + n.toNat * 2 :=
        dataSize_of_lt (by unfold readHoldingsAnsSize; omega)
      by_cases hroom : r.txPdu.maxSize.toNat
          < (BitVec.ofNat 8 (readHoldingsAnsSize n.toNat)).toNat
      · rw [if_pos hroom]
        exact Or.inl (refused_of_code mbeSlaveFailure_ne rfl rfl rfl)
      rw [if_neg hroom]
      refine Or.inr ⟨block, readRegs, ⟨rfl, hq.1, by unfold EmbSrvRegs.stop; omega⟩, hread,
        by omega, ?_⟩
      by_cases hcode : (readRegs (a - block.start) n r.store).1 ≠ 0
      · rw [if_pos hcode]
        exact ⟨⟨rfl, rfl, rfl⟩, rfl, fun h => absurd h hcode⟩
      · rw [if_neg hcode]
        refine ⟨⟨rfl, rfl, rfl⟩, (not_not.1 hcode).symm, fun _ => ⟨rfl, hsize, ?_⟩⟩
        dsimp only
        rw [Mem.swapWords_apply, if_neg (by omega), Mem.blit_of_lt _ _ Nat.zero_lt_one,
          Mem.blit_singleton, if_pos rfl, dataSize_of_lt (by omega)]

theorem embSrvWriteReg_cases {value : Word} (ha : getBigEnd16 r.rxPdu.data 0 = a)
    (hv : getBigEnd16 r.rxPdu.data 2 = value) :
    (Refused r (embSrvWriteReg srv r)
        ∧ ∀ block, lookUp srv.getHoldingRegs a r.store = .ok block → block.writeRegs = none)
      ∨ ∃ block writeRegs,
      lookUp srv.getHoldingRegs a r.store = .ok block
      ∧ block.writeRegs = some writeRegs
      ∧ Called r (embSrvWriteReg srv r)
          [.writeRegs block.start block.size (a - block.start) 1 [value]]
          (writeRegs (a - block.start) 1 [value] r.store).2
      ∧ (embSrvWriteReg srv r).1
        = (if (writeRegs (a - block.start) 1 [value] r.store).1 ≠ 0 then
            (writeRegs (a - block.start) 1 [value] r.store).1
          else if r.txPdu.maxSize.toNat < writeRegisterAnsSize then mbeSlaveFailure else 0)
      ∧ ((embSrvWriteReg srv r).1 = 0 →
          (embSrvWriteReg srv r).2.txPdu.Carries 0x06 (Mem.be [a, value])) := by
  unfold embSrvWriteReg
  dsimp only
  rw [ha, hv]
  cases hfind : lookUp srv.getHoldingRegs a r.store with
  | error code =>
    exact Or.inl ⟨refused_of_code (lookUp_error_ne hfind) rfl rfl rfl, fun _ h => by cases h⟩
  | ok block =>
    dsimp only
    cases hwrite : block.writeRegs with
    | none =>
      refine Or.inl ⟨refused_of_code mbeIllegalDataAddr_ne rfl rfl rfl, fun block' h => ?_⟩
      cases h
      exact hwrite
    | some writeRegs =>
      dsimp only
      refine Or.inr ⟨block, writeRegs, rfl, hwrite, ?_⟩
      split_ifs with hcode hroom
      · exact ⟨⟨rfl, rfl, rfl⟩, rfl, fun h => absurd h hcode⟩
      · exact ⟨⟨rfl, rfl, rfl⟩, rfl, fun h => absurd h mbeSlaveFailure_ne⟩
      · exact ⟨⟨rfl, rfl, rfl⟩, rfl, fun _ => ⟨rfl, slice_bigEnd _ _ _⟩⟩

theorem embSrvWriteRegs_cases (ha : getBigEnd16 r.rxPdu.data 0 = a)
    (hn : getBigEnd16 r.rxPdu.data 2 = n) :
    Refused r (embSrvWriteRegs srv r) ∨ ∃ block writeRegs values,
      Reaches EmbSrvRegs.stop (lookUp srv.getHoldingRegs a r.store) a n block
      ∧ block.writeRegs = some writeRegs ∧ values.length = n.toNat
      ∧ writeRegistersAnsSize ≤ r.txPdu.maxSize.toNat
      ∧ Called r (embSrvWriteRegs srv r)
          [.writeRegs block.start block.size (a - block.start) n values]
          (writeRegs (a - block.start) n values r.store).2
      ∧ (embSrvWriteRegs srv r).1 = (writeRegs (a - block.start) n values r.store).1
      ∧ ((embSrvWriteRegs srv r).1 = 0 →
          (embSrvWriteRegs srv r).2.txPdu.Carries 0x10 (Mem.be [a, n])) := by
  unfold embSrvWriteRegs
  dsimp only
  rw [ha, hn]
  by_cases hq : ¬ (1 ≤ n.toNat ∧ n.toNat ≤ 0x007B) ∨ (r.rxPdu.data 4).toNat ≠ n.toNat * 2
  · rw [if_pos hq]
    exact Or.inl (refused_of_code mbeIllegalDataValue_ne rfl rfl rfl)
  rw [if_neg hq]
  cases hfind : lookUp srv.getHoldingRegs a r.store with
  | error code => exact Or.inl (refused_of_code (lookUp_error_ne hfind) rfl rfl rfl)
  | ok block =>
    dsimp only
    by_cases hfit : block.start.toNat + block.size.toNat < a.toNat + n.toNat
    · rw [if_pos hfit]
      exact Or.inl (refused_of_code mbeIllegalDataAddr_ne rfl rfl rfl)
    rw [if_neg hfit]
    cases hwrite : block.writeRegs with
    | none => exact Or.inl (refused_of_code mbeIllegalDataAddr_ne rfl rfl rfl)
    | some writeRegs =>
      dsimp only
      by_cases hroom : r.txPdu.maxSize.toNat < writeRegistersAnsSize
      · rw [if_pos hroom]
        exact Or.inl (refused_of_code mbeSlaveFailure_ne rfl rfl rfl)
      rw [if_neg hroom]
      refine Or.inr ⟨block, writeRegs,
        Mem.leWords (Mem.swapWords r.rxPdu.data 5 n.toNat) 5 n.toNat,
        ⟨rfl, by omega, by unfold EmbSrvRegs.stop; omega⟩, hwrite, by simp [Mem.leWords], by omega,
        ?_⟩
      split_ifs with hcode
      · exact ⟨⟨rfl, rfl, rfl⟩, rfl, fun h => absurd h hcode⟩
      · exact ⟨⟨rfl, rfl, rfl⟩, (not_not.1 hcode).symm, fun _ => ⟨rfl, slice_bigEnd _ _ _⟩⟩

/-- The three words of a request to mask, echoed. -/
theorem slice_three (d : Mem Byte) (a b c : Word) :
    Mem.slice (storeWord (storeWord (storeWord d 0 (swapBytes a)) 2 (swapBytes b)) 4
      (swapBytes c)) 0 6 = Mem.be [a, b, c] := by
  rw [storeWord_swapBytes _ 4]
  exact Mem.slice_blit_append _ (Mem.be [c]) (slice_two d a b) rfl

theorem embSrvMaskReg_cases {andMask orMask : Word} (ha : getBigEnd16 r.rxPdu.data 0 = a)
    (hand : getBigEnd16 r.rxPdu.data 2 = andMask) (hor : getBigEnd16 r.rxPdu.data 4 = orMask) :
    (Refused r (embSrvMaskReg srv r)
        ∧ ∀ block, lookUp srv.getHoldingRegs a r.store = .ok block →
          block.readRegs = none ∨ block.writeRegs = none)
      ∨ ∃ block readRegs writeRegs,
      lookUp srv.getHoldingRegs a r.store = .ok block
      ∧ block.readRegs = some readRegs ∧ block.writeRegs = some writeRegs
      ∧ let read := readRegs (a - block.start) 1 r.store
        let value := masked (read.2.1.headD 0) andMask orMask
        let written := writeRegs (a - block.start) 1 [value] read.2.2
        (read.1 ≠ 0 ∧ (embSrvMaskReg srv r).1 = read.1
          ∧ Called r (embSrvMaskReg srv r)
              [.readRegs block.start block.size (a - block.start) 1 none] read.2.2)
        ∨ (read.1 = 0
          ∧ Called r (embSrvMaskReg srv r)
              [.readRegs block.start block.size (a - block.start) 1 none,
                .writeRegs block.start block.size (a - block.start) 1 [value]] written.2
          ∧ (embSrvMaskReg srv r).1 = (if written.1 ≠ 0 then written.1
              else if r.txPdu.maxSize.toNat < maskRegisterAnsSize then mbeSlaveFailure else 0)
          ∧ ((embSrvMaskReg srv r).1 = 0 →
              (embSrvMaskReg srv r).2.txPdu.Carries 0x16 (Mem.be [a, andMask, orMask]))) := by
  unfold embSrvMaskReg
  dsimp only
  rw [ha, hand, hor]
  cases hfind : lookUp srv.getHoldingRegs a r.store with
  | error code =>
    exact Or.inl ⟨refused_of_code (lookUp_error_ne hfind) rfl rfl rfl, fun _ h => by cases h⟩
  | ok block =>
    dsimp only
    cases hread : block.readRegs with
    | none =>
      refine Or.inl ⟨refused_of_code mbeIllegalDataAddr_ne rfl rfl rfl, fun block' h => ?_⟩
      cases h
      exact Or.inl hread
    | some readRegs =>
      cases hwrite : block.writeRegs with
      | none =>
        refine Or.inl ⟨refused_of_code mbeIllegalDataAddr_ne rfl rfl rfl, fun block' h => ?_⟩
        cases h
        exact Or.inr hwrite
      | some writeRegs =>
        dsimp only
        refine Or.inr ⟨block, readRegs, writeRegs, rfl, hread, hwrite, ?_⟩
        by_cases hcode : (readRegs (a - block.start) 1 r.store).1 ≠ 0
        · rw [if_pos hcode]
          exact Or.inl ⟨hcode, rfl, ⟨rfl, rfl, rfl⟩⟩
        rw [if_neg hcode]
        refine Or.inr ⟨not_not.1 hcode, ?_⟩
        unfold masked
        split_ifs with hwcode hroom
        · exact ⟨⟨List.append_assoc _ _ _, rfl, rfl⟩, rfl, fun h => absurd h hwcode⟩
        · exact ⟨⟨List.append_assoc _ _ _, rfl, rfl⟩, rfl, fun h => absurd h mbeSlaveFailure_ne⟩
        · exact ⟨⟨List.append_assoc _ _ _, rfl, rfl⟩, rfl,
            fun _ => ⟨rfl, slice_three _ _ _ _⟩⟩

/-- The second half, where the blocks and their callbacks have been found. -/
theorem writeThenRead_cases {wrRegs rdRegs : EmbSrvRegs σ}
    {writeRegs : Word → Word → List Word → σ → Byte × σ}
    {readRegs : Word → Word → σ → Byte × List Word × σ} {wa wn : Word}
    (hn : n.toNat ≤ embSrvRdwrRegsMaxReadRegs) :
    let res := writeThenRead r wrRegs rdRegs writeRegs readRegs wa wn a n
    let values := Mem.leWords (Mem.swapWords r.rxPdu.data 9 wn.toNat) 9 wn.toNat
    let written := writeRegs (wa - wrRegs.start) wn values r.store
    let read := readRegs (a - rdRegs.start) n written.2
    let write := StoreCall.writeRegs wrRegs.start wrRegs.size (wa - wrRegs.start) wn values
    (written.1 ≠ 0 ∧ res.1 = written.1 ∧ Called r res [write] written.2)
      ∨ (written.1 = 0 ∧ res.1 = read.1
        ∧ Called r res
            [write, .readRegs rdRegs.start rdRegs.size (a - rdRegs.start) n (some 1)] read.2.2
        ∧ (res.1 = 0 → Counted res.2.txPdu 0x17 (n.toNat * 2))) := by
  unfold embSrvRdwrRegsMaxReadRegs at hn
  unfold writeThenRead
  dsimp only
  split_ifs with hwcode hcode
  · exact Or.inl ⟨hwcode, rfl, ⟨rfl, rfl, rfl⟩⟩
  · exact Or.inr ⟨not_not.1 hwcode, rfl, ⟨List.append_assoc _ _ _, rfl, rfl⟩,
      fun h => absurd h hcode⟩
  · refine Or.inr ⟨not_not.1 hwcode, (not_not.1 hcode).symm,
      ⟨List.append_assoc _ _ _, rfl, rfl⟩, fun _ => ⟨rfl, ?_, ?_⟩⟩
    · exact dataSize_of_lt (by unfold readWriteRegsAnsSize; omega)
    · dsimp only
      rw [Mem.swapWords_apply, if_neg (by omega), Mem.blit_of_lt _ _ Nat.zero_lt_one,
        Mem.blit_singleton, if_pos rfl]
      exact dataSize_of_lt (by omega)

theorem embSrvReadWriteRegs_cases {wa wn : Word} (ha : getBigEnd16 r.rxPdu.data 0 = a)
    (hn : getBigEnd16 r.rxPdu.data 2 = n) (hwa : getBigEnd16 r.rxPdu.data 4 = wa)
    (hwn : getBigEnd16 r.rxPdu.data 6 = wn) :
    Refused r (embSrvReadWriteRegs srv r) ∨ ∃ wrRegs rdRegs writeRegs readRegs values,
      Reaches EmbSrvRegs.stop (lookUp srv.getHoldingRegs wa r.store) wa wn wrRegs
      ∧ Reaches EmbSrvRegs.stop (lookUp srv.getHoldingRegs a r.store) a n rdRegs
      ∧ wrRegs.writeRegs = some writeRegs ∧ rdRegs.readRegs = some readRegs
      ∧ values.length = wn.toNat
      ∧ 1 + n.toNat * 2 ≤ r.txPdu.maxSize.toNat
      ∧ let written := writeRegs (wa - wrRegs.start) wn values r.store
        let read := readRegs (a - rdRegs.start) n written.2
        let write := StoreCall.writeRegs wrRegs.start wrRegs.size (wa - wrRegs.start) wn values
        (written.1 ≠ 0 ∧ (embSrvReadWriteRegs srv r).1 = written.1
          ∧ Called r (embSrvReadWriteRegs srv r) [write] written.2)
        ∨ (written.1 = 0 ∧ (embSrvReadWriteRegs srv r).1 = read.1
          ∧ Called r (embSrvReadWriteRegs srv r)
              [write, .readRegs rdRegs.start rdRegs.size (a - rdRegs.start) n (some 1)] read.2.2
          ∧ ((embSrvReadWriteRegs srv r).1 = 0 →
              Counted (embSrvReadWriteRegs srv r).2.txPdu 0x17 (n.toNat * 2))) := by
  unfold embSrvReadWriteRegs
  dsimp only
  rw [ha, hn, hwa, hwn]
  by_cases hq : 1 ≤ n.toNat ∧ n.toNat ≤ embSrvRdwrRegsMaxReadRegs
  swap
  · rw [if_pos hq]
    exact Or.inl (refused_of_code mbeIllegalDataValue_ne rfl rfl rfl)
  rw [if_neg (not_not.2 hq)]
  by_cases hwq : 1 ≤ wn.toNat ∧ wn.toNat ≤ embSrvRdwrRegsMaxWriteRegs
  swap
  · rw [if_pos hwq]
    exact Or.inl (refused_of_code mbeIllegalDataValue_ne rfl rfl rfl)
  rw [if_neg (not_not.2 hwq)]
  by_cases hcount : (r.rxPdu.data 8).toNat ≠ wn.toNat * 2
  · rw [if_pos hcount]
    exact Or.inl (refused_of_code mbeIllegalDataValue_ne rfl rfl rfl)
  rw [if_neg hcount]
  cases hwr : lookUp srv.getHoldingRegs wa r.store with
  | error code => exact Or.inl (refused_of_code (lookUp_error_ne hwr) rfl rfl rfl)
  | ok wrRegs =>
    dsimp only
    by_cases hwfit : wrRegs.start.toNat + wrRegs.size.toNat < wa.toNat + wn.toNat
    · rw [if_pos hwfit]
      exact Or.inl (refused_of_code mbeIllegalDataAddr_ne rfl rfl rfl)
    rw [if_neg hwfit]
    cases hwrite : wrRegs.writeRegs with
    | none => exact Or.inl (refused_of_code mbeIllegalFunction_ne rfl rfl rfl)
    | some writeRegs =>
      dsimp only
      cases hrd : lookUp srv.getHoldingRegs a r.store with
      | error code => exact Or.inl (refused_of_code (lookUp_error_ne hrd) rfl rfl rfl)
      | ok rdRegs =>
        dsimp only
        by_cases hfit : rdRegs.start.toNat + rdRegs.size.toNat < a.toNat + n.toNat
        · rw [if_pos hfit]
          exact Or.inl (refused_of_code mbeIllegalDataAddr_ne rfl rfl rfl)
        rw [if_neg hfit]
        cases hread : rdRegs.readRegs with
        | none => exact Or.inl (refused_of_code mbeIllegalFunction_ne rfl rfl rfl)
        | some readRegs =>
          dsimp only
          by_cases hroom : r.txPdu.maxSize.toNat < readWriteRegsAnsSize n.toNat
          · rw [if_pos hroom]
            exact Or.inl (refused_of_code mbeSlaveFailure_ne rfl rfl rfl)
          rw [if_neg hroom]
          have hroom' : 1 + n.toNat * 2 ≤ r.txPdu.maxSize.toNat := by
            unfold readWriteRegsAnsSize at hroom
            omega
          exact Or.inr ⟨wrRegs, rdRegs, writeRegs, readRegs,
            Mem.leWords (Mem.swapWords r.rxPdu.data 9 wn.toNat) 9 wn.toNat,
            ⟨rfl, hwq.1, by unfold EmbSrvRegs.stop; omega⟩,
            ⟨rfl, hq.1, by unfold EmbSrvRegs.stop; omega⟩, hwrite, hread,
            by simp [Mem.leWords], hroom', writeThenRead_cases hq.2⟩

/-! ## Which handler -/

theorem of_ite_some {α : Type} {c : Prop} [Decidable c] {a x : α} {rest : Option α} {P : α → Prop}
    (h : (if c then some a else rest) = some x) (hthen : c → P a) (helse : rest = some x → P x) :
    P x := by
  by_cases hc : c
  · rw [if_pos hc] at h
    rw [← Option.some.inj h]
    exact hthen hc
  · rw [if_neg hc] at h
    exact helse h

/-- What holds of each handler for its functions holds of the handler that is found. -/
theorem getFunction_elim {func : Byte} {handler : EmbSrvFunction σ} {P : EmbSrvFunction σ → Prop}
    (h : getFunction func = some handler)
    (readBits : func = 0x01 ∨ func = 0x02 → P ⟨embSrvReadBits, embSrvReadBits_sameMax⟩)
    (writeCoil : func = 0x05 → P ⟨embSrvWriteCoil, embSrvWriteCoil_sameMax⟩)
    (writeCoils : func = 0x0F → P ⟨embSrvWriteCoils, embSrvWriteCoils_sameMax⟩)
    (readRegs : func = 0x03 ∨ func = 0x04 → P ⟨embSrvReadRegs, embSrvReadRegs_sameMax⟩)
    (writeReg : func = 0x06 → P ⟨embSrvWriteReg, embSrvWriteReg_sameMax⟩)
    (writeRegs : func = 0x10 → P ⟨embSrvWriteRegs, embSrvWriteRegs_sameMax⟩)
    (maskReg : func = 0x16 → P ⟨embSrvMaskReg, embSrvMaskReg_sameMax⟩)
    (readWriteRegs : func = 0x17 → P ⟨embSrvReadWriteRegs, embSrvReadWriteRegs_sameMax⟩) :
    P handler := by
  unfold getFunction at h
  refine of_ite_some h readBits fun h => ?_
  refine of_ite_some h writeCoil fun h => ?_
  refine of_ite_some h writeCoils fun h => ?_
  refine of_ite_some h readRegs fun h => ?_
  refine of_ite_some h writeReg fun h => ?_
  refine of_ite_some h writeRegs fun h => ?_
  refine of_ite_some h maskReg fun h => ?_
  exact of_ite_some h readWriteRegs fun h => nomatch h

end Emodbus
