import Emodbus.SuperServerT

/-!
# Handlers on a part of the store

A handler uses the store through the callbacks only.  So where these work on a part of it, the
handler does to the part what it would do to it alone, and nothing to the rest (`Local`).
-/

namespace Emodbus

open Octets

variable {σ τ : Type}

section Through

variable (L : Lens τ σ)

@[simp] theorem SrvRun.put_part (r : SrvRun τ) : (r.part L).put L r.store = r := by
  simp [SrvRun.part, SrvRun.put]

theorem lookUp_through {β γ : Type} (get : Option (Word → σ → Option β)) (f : β → γ) (addr : Word)
    (t : τ) :
    lookUp (getThrough L get f) addr t = (lookUp get addr (L.get t)).map f := by
  unfold lookUp getThrough
  cases get with
  | none => rfl
  | some get =>
    dsimp only [Option.map_some]
    cases get addr (L.get t) <;> rfl

theorem bitsGetter_through (srv : EmbServer σ) (function : Byte) :
    bitsGetter (srv.through L) function
      = getThrough L (bitsGetter srv function) (EmbSrvBits.through L) := by
  unfold bitsGetter
  split_ifs <;> rfl

theorem regsGetter_through (srv : EmbServer σ) (function : Byte) :
    regsGetter (srv.through L) function
      = getThrough L (regsGetter srv function) (EmbSrvRegs.through L) := by
  unfold regsGetter
  split_ifs <;> rfl

theorem getCoils_through (srv : EmbServer σ) :
    (srv.through L).getCoils = getThrough L srv.getCoils (EmbSrvBits.through L) := rfl

theorem getHoldingRegs_through (srv : EmbServer σ) :
    (srv.through L).getHoldingRegs = getThrough L srv.getHoldingRegs (EmbSrvRegs.through L) := rfl

end Through

/-- The handler works on a part of the store as it does on the part alone. -/
def Local (func : (σ : Type) → SrvHandler σ) : Prop :=
  ∀ {σ τ : Type} (L : Lens τ σ) (srv : EmbServer σ) (r : SrvRun τ),
    func τ (srv.through L) r
      = ((func σ srv (r.part L)).1, (func σ srv (r.part L)).2.put L r.store)

/-! ## Bits -/

theorem embSrvReadBits_local : Local @embSrvReadBits := by
  intro σ τ L srv r
  unfold embSrvReadBits
  dsimp only [SrvRun.part, SrvRun.put]
  rw [bitsGetter_through, lookUp_through]
  cases lookUp (bitsGetter srv r.rxPdu.function) (getBigEnd16 r.rxPdu.data 0) (L.get r.store) with
  | error code =>
    dsimp only [Except.map]
    split_ifs <;> simp
  | ok coils =>
    obtain ⟨start, size, readBits, writeBits⟩ := coils
    cases readBits with
    | none =>
      dsimp only [EmbSrvBits.through, Except.map, Option.map_none]
      split_ifs <;> simp
    | some readBits =>
      dsimp only [EmbSrvBits.through, Except.map, Option.map_some]
      split_ifs <;> simp

theorem embSrvWriteCoil_local : Local @embSrvWriteCoil := by
  intro σ τ L srv r
  unfold embSrvWriteCoil
  dsimp only [SrvRun.part, SrvRun.put]
  rw [getCoils_through, lookUp_through]
  cases lookUp srv.getCoils (getBigEnd16 r.rxPdu.data 0) (L.get r.store) with
  | error code =>
    dsimp only [Except.map]
    split_ifs <;> simp
  | ok coils =>
    obtain ⟨start, size, readBits, writeBits⟩ := coils
    cases writeBits with
    | none =>
      dsimp only [EmbSrvBits.through, Except.map, Option.map_none]
      split_ifs <;> simp
    | some writeBits =>
      dsimp only [EmbSrvBits.through, Except.map, Option.map_some]
      split_ifs <;> simp

theorem embSrvWriteCoils_local : Local @embSrvWriteCoils := by
  intro σ τ L srv r
  unfold embSrvWriteCoils
  dsimp only [SrvRun.part, SrvRun.put]
  rw [getCoils_through, lookUp_through]
  cases lookUp srv.getCoils (getBigEnd16 r.rxPdu.data 0) (L.get r.store) with
  | error code =>
    dsimp only [Except.map]
    split_ifs <;> simp [*]
  | ok coils =>
    obtain ⟨start, size, readBits, writeBits⟩ := coils
    cases writeBits with
    | none =>
      dsimp only [EmbSrvBits.through, Except.map, Option.map_none]
      split_ifs <;> simp [*]
    | some writeBits =>
      dsimp only [EmbSrvBits.through, Except.map, Option.map_some]
      split_ifs <;> simp [*]

/-! ## Registers -/

theorem embSrvReadRegs_local : Local @embSrvReadRegs := by
  intro σ τ L srv r
  unfold embSrvReadRegs
  dsimp only [SrvRun.part, SrvRun.put]
  rw [regsGetter_through, lookUp_through]
  cases lookUp (regsGetter srv r.rxPdu.function) (getBigEnd16 r.rxPdu.data 0) (L.get r.store) with
  | error code => simp [Except.map]
  | ok block =>
    obtain ⟨start, size, readRegs, writeRegs⟩ := block
    cases readRegs with
    | none =>
      dsimp only [EmbSrvRegs.through, Except.map, Option.map_none]
      split_ifs <;> simp
    | some readRegs =>
      dsimp only [EmbSrvRegs.through, Except.map, Option.map_some]
      split_ifs <;> simp

theorem embSrvWriteReg_local : Local @embSrvWriteReg := by
  intro σ τ L srv r
  unfold embSrvWriteReg
  dsimp only [SrvRun.part, SrvRun.put]
  rw [getHoldingRegs_through, lookUp_through]
  cases lookUp srv.getHoldingRegs (getBigEnd16 r.rxPdu.data 0) (L.get r.store) with
  | error code => simp [Except.map]
  | ok block =>
    obtain ⟨start, size, readRegs, writeRegs⟩ := block
    cases writeRegs with
    | none => simp [EmbSrvRegs.through, Except.map]
    | some writeRegs =>
      dsimp only [EmbSrvRegs.through, Except.map, Option.map_some]
      split_ifs <;> rfl

theorem embSrvWriteRegs_local : Local @embSrvWriteRegs := by
  intro σ τ L srv r
  unfold embSrvWriteRegs
  dsimp only [SrvRun.part, SrvRun.put]
  rw [getHoldingRegs_through, lookUp_through]
  cases lookUp srv.getHoldingRegs (getBigEnd16 r.rxPdu.data 0) (L.get r.store) with
  | error code =>
    dsimp only [Except.map]
    split_ifs <;> simp [*]
  | ok block =>
    obtain ⟨start, size, readRegs, writeRegs⟩ := block
    cases writeRegs with
    | none =>
      dsimp only [EmbSrvRegs.through, Except.map, Option.map_none]
      split_ifs <;> simp [*]
    | some writeRegs =>
      dsimp only [EmbSrvRegs.through, Except.map, Option.map_some]
      split_ifs <;> simp [*]

theorem embSrvMaskReg_local : Local @embSrvMaskReg := by
  intro σ τ L srv r
  unfold embSrvMaskReg
  dsimp only [SrvRun.part, SrvRun.put]
  rw [getHoldingRegs_through, lookUp_through]
  cases lookUp srv.getHoldingRegs (getBigEnd16 r.rxPdu.data 0) (L.get r.store) with
  | error code => simp [Except.map]
  | ok block =>
    obtain ⟨start, size, readRegs, writeRegs⟩ := block
    cases readRegs with
    | none => simp [EmbSrvRegs.through, Except.map]
    | some readRegs =>
      cases writeRegs with
      | none => simp [EmbSrvRegs.through, Except.map]
      | some writeRegs =>
        dsimp only [EmbSrvRegs.through, Except.map, Option.map_some]
        simp only [Lens.get_set]
        split_ifs <;> simp

theorem writeThenRead_through (L : Lens τ σ) (r : SrvRun τ) (wrRegs rdRegs : EmbSrvRegs σ)
    (write : Word → Word → List Word → σ → Byte × σ)
    (read : Word → Word → σ → Byte × List Word × σ) (wa wn ra rn : Word) :
    writeThenRead r (wrRegs.through L) (rdRegs.through L)
        (fun offset quantity values t =>
          let res := write offset quantity values (L.get t)
          (res.1, L.set res.2 t))
        (fun offset quantity t =>
          let res := read offset quantity (L.get t)
          (res.1, res.2.1, L.set res.2.2 t)) wa wn ra rn
      = let x := writeThenRead (r.part L) wrRegs rdRegs write read wa wn ra rn
        (x.1, x.2.put L r.store) := by
  unfold writeThenRead
  dsimp only [SrvRun.part, SrvRun.put, EmbSrvRegs.through]
  simp only [Lens.get_set]
  split_ifs <;> simp

theorem embSrvReadWriteRegs_local : Local @embSrvReadWriteRegs := by
  intro σ τ L srv r
  unfold embSrvReadWriteRegs
  dsimp only
  rw [getHoldingRegs_through, lookUp_through, lookUp_through]
  have hpart : (r.part L).store = L.get r.store := rfl
  have hrx : (r.part L).rxPdu = r.rxPdu := rfl
  have htx : (r.part L).txPdu = r.txPdu := rfl
  rw [hpart, hrx, htx]
  cases lookUp srv.getHoldingRegs (getBigEnd16 r.rxPdu.data 4) (L.get r.store) with
  | error code =>
    dsimp only [Except.map]
    split_ifs <;> simp
  | ok wrRegs =>
    obtain ⟨start, size, readRegs, writeRegs⟩ := wrRegs
    cases writeRegs with
    | none =>
      dsimp only [EmbSrvRegs.through, Except.map, Option.map_none]
      split_ifs <;> simp
    | some write =>
      cases lookUp srv.getHoldingRegs (getBigEnd16 r.rxPdu.data 0) (L.get r.store) with
      | error code =>
        dsimp only [EmbSrvRegs.through, Except.map, Option.map_some]
        split_ifs <;> simp
      | ok rdRegs =>
        obtain ⟨start', size', readRegs', writeRegs'⟩ := rdRegs
        cases readRegs' with
        | none =>
          dsimp only [EmbSrvRegs.through, Except.map, Option.map_some, Option.map_none]
          split_ifs <;> simp
        | some read =>
          have hend := writeThenRead_through L r ⟨start, size, readRegs, some write⟩
            ⟨start', size', some read, writeRegs'⟩ write read (getBigEnd16 r.rxPdu.data 4)
            (getBigEnd16 r.rxPdu.data 6) (getBigEnd16 r.rxPdu.data 0) (getBigEnd16 r.rxPdu.data 2)
          dsimp only [EmbSrvRegs.through, Except.map, Option.map_some] at hend ⊢
          rw [hend]
          split_ifs <;> simp

/-! ## What `get_function` finds -/

/-- The same function is found for the whole store and for a part of it, and it is local. -/
theorem getFunction_local (func : Byte) :
    (∀ σ : Type, getFunction (σ := σ) func = none)
      ∨ ∃ (h : (σ : Type) → SrvHandler σ) (hmax : ∀ σ srv r, (h σ srv r).2.SameMax r), Local h
        ∧ ∀ σ : Type, getFunction (σ := σ) func = some ⟨h σ, hmax σ⟩ := by
  unfold getFunction
  split_ifs
  · exact .inr ⟨_, fun _ => embSrvReadBits_sameMax, embSrvReadBits_local, fun _ => rfl⟩
  · exact .inr ⟨_, fun _ => embSrvWriteCoil_sameMax, embSrvWriteCoil_local, fun _ => rfl⟩
  · exact .inr ⟨_, fun _ => embSrvWriteCoils_sameMax, embSrvWriteCoils_local, fun _ => rfl⟩
  · exact .inr ⟨_, fun _ => embSrvReadRegs_sameMax, embSrvReadRegs_local, fun _ => rfl⟩
  · exact .inr ⟨_, fun _ => embSrvWriteReg_sameMax, embSrvWriteReg_local, fun _ => rfl⟩
  · exact .inr ⟨_, fun _ => embSrvWriteRegs_sameMax, embSrvWriteRegs_local, fun _ => rfl⟩
  · exact .inr ⟨_, fun _ => embSrvMaskReg_sameMax, embSrvMaskReg_local, fun _ => rfl⟩
  · exact .inr ⟨_, fun _ => embSrvReadWriteRegs_sameMax, embSrvReadWriteRegs_local, fun _ => rfl⟩
  · exact .inl fun _ => rfl

end Emodbus
