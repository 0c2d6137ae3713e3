import Emodbus.ServerT

/-!
# What the callbacks keep, the handlers keep

Whatever is true of the store before a request is true of it afterwards, if the callbacks that the
handler may call leave it true.  The handlers for registers call those of registers only, the ones
for bits those of bits.
-/

namespace Emodbus

open Octets

/-! ## Registers -/

variable {σ : Type} {P : σ → Prop} {srv : EmbServer σ} {r : SrvRun σ}

/-- The callbacks of the block keep what `P` says of the store. -/
structure EmbSrvRegs.Keeps (block : EmbSrvRegs σ) (P : σ → Prop) : Prop where
  read : ∀ {readRegs}, block.readRegs = some readRegs →
    ∀ offset quantity s, P s → P (readRegs offset quantity s).2.2
  write : ∀ {writeRegs}, block.writeRegs = some writeRegs →
    ∀ offset quantity values s, P s → P (writeRegs offset quantity values s).2

/-- The callbacks of the blocks of registers do. -/
structure EmbServer.RegsKeep (srv : EmbServer σ) (P : σ → Prop) : Prop where
  holding : ∀ {a s block}, lookUp srv.getHoldingRegs a s = .ok block → block.Keeps P
  input : ∀ {a s block}, lookUp srv.getInputRegs a s = .ok block → block.Keeps P

theorem embSrvReadRegs_keeps (h : srv.RegsKeep P) (hr : P r.store) :
    P (embSrvReadRegs srv r).2.store := by
  unfold embSrvReadRegs
  dsimp only
  split
  · exact hr
  · next block hfind =>
    have hblock : block.Keeps P := by
      unfold regsGetter at hfind
      split_ifs at hfind
      · exact h.holding hfind
      · exact h.input hfind
      · cases hfind
    split
    · exact hr
    · split
      · exact hr
      · split
        · exact hr
        · next readRegs hread =>
          have hstore := hblock.read hread
          split
          · exact hr
          · split <;> exact hstore _ _ _ hr

theorem embSrvWriteReg_keeps (h : srv.RegsKeep P) (hr : P r.store) :
    P (embSrvWriteReg srv r).2.store := by
  unfold embSrvWriteReg
  dsimp only
  split
  · exact hr
  · next block hfind =>
    split
    · exact hr
    · next writeRegs hwrite =>
      have hstore := (h.holding hfind).write hwrite
      split_ifs <;> exact hstore _ _ _ _ hr

theorem embSrvWriteRegs_keeps (h : srv.RegsKeep P) (hr : P r.store) :
    P (embSrvWriteRegs srv r).2.store := by
  unfold embSrvWriteRegs
  dsimp only
  split
  · exact hr
  · split
    · exact hr
    · next block hfind =>
      split
      · exact hr
      · split
        · exact hr
        · next writeRegs hwrite =>
          have hstore := (h.holding hfind).write hwrite
          split
          · exact hr
          · split <;> exact hstore _ _ _ _ hr

theorem embSrvMaskReg_keeps (h : srv.RegsKeep P) (hr : P r.store) :
    P (embSrvMaskReg srv r).2.store := by
  unfold embSrvMaskReg
  dsimp only
  split
  · exact hr
  · next block hfind =>
    split
    · next readRegs writeRegs hread hwrite =>
      have hblock := h.holding hfind
      have hstore := hblock.read hread
      split_ifs
      · exact hstore _ _ _ hr
      · exact hblock.write hwrite _ _ _ _ (hstore _ _ _ hr)
      · exact hblock.write hwrite _ _ _ _ (hstore _ _ _ hr)
      · exact hblock.write hwrite _ _ _ _ (hstore _ _ _ hr)
    · exact hr

theorem writeThenRead_keeps {wrRegs rdRegs : EmbSrvRegs σ}
    {writeRegs : Word → Word → List Word → σ → Byte × σ}
    {readRegs : Word → Word → σ → Byte × List Word × σ} {wa wn ra rn : Word}
    (hwrite : ∀ offset quantity values s, P s → P (writeRegs offset quantity values s).2)
    (hread : ∀ offset quantity s, P s → P (readRegs offset quantity s).2.2) (hr : P r.store) :
    P (writeThenRead r wrRegs rdRegs writeRegs readRegs wa wn ra rn).2.store := by
  unfold writeThenRead
  dsimp only
  split
  · exact hwrite _ _ _ _ hr
  · split <;> exact hread _ _ _ (hwrite _ _ _ _ hr)

theorem embSrvReadWriteRegs_keeps (h : srv.RegsKeep P) (hr : P r.store) :
    P (embSrvReadWriteRegs srv r).2.store := by
  unfold embSrvReadWriteRegs
  dsimp only
  split
  · exact hr
  split
  · exact hr
  split
  · exact hr
  split
  · exact hr
  next wrRegs hwr =>
    split
    · exact hr
    split
    · exact hr
    next writeRegs hwrite =>
      split
      · exact hr
      next rdRegs hrd =>
        split
        · exact hr
        split
        · exact hr
        next readRegs hread =>
          split
          · exact hr
          · exact writeThenRead_keeps ((h.holding hwr).write hwrite) ((h.holding hrd).read hread) hr

/-! ## Bits -/

structure EmbSrvBits.Keeps (block : EmbSrvBits σ) (P : σ → Prop) : Prop where
  read : ∀ {readBits}, block.readBits = some readBits →
    ∀ offset quantity s, P s → P (readBits offset quantity s).2.2
  write : ∀ {writeBits}, block.writeBits = some writeBits →
    ∀ offset quantity values s, P s → P (writeBits offset quantity values s).2

/-- The callbacks of the blocks of bits do. -/
structure EmbServer.BitsKeep (srv : EmbServer σ) (P : σ → Prop) : Prop where
  coil : ∀ {a s block}, lookUp srv.getCoils a s = .ok block → block.Keeps P
  input : ∀ {a s block}, lookUp srv.getDiscreteInputs a s = .ok block → block.Keeps P

theorem embSrvReadBits_keeps (h : srv.BitsKeep P) (hr : P r.store) :
    P (embSrvReadBits srv r).2.store := by
  unfold embSrvReadBits
  dsimp only
  split
  · exact hr
  split
  · exact hr
  next block hfind =>
    have hblock : block.Keeps P := by
      unfold bitsGetter at hfind
      split_ifs at hfind
      · exact h.coil hfind
      · exact h.input hfind
      · cases hfind
    split
    · exact hr
    split
    · exact hr
    next readBits hread =>
      split
      · exact hr
      · exact hblock.read hread _ _ _ hr

theorem embSrvWriteCoil_keeps (h : srv.BitsKeep P) (hr : P r.store) :
    P (embSrvWriteCoil srv r).2.store := by
  unfold embSrvWriteCoil
  dsimp only
  split
  · exact hr
  split
  · exact hr
  next block hfind =>
    split
    · exact hr
    next writeBits hwrite =>
      split
      · exact hr
      · exact (h.coil hfind).write hwrite _ _ _ _ hr

theorem embSrvWriteCoils_keeps (h : srv.BitsKeep P) (hr : P r.store) :
    P (embSrvWriteCoils srv r).2.store := by
  unfold embSrvWriteCoils
  dsimp only
  split
  · exact hr
  split
  · exact hr
  split
  · exact hr
  next block hfind =>
    split
    · exact hr
    split
    · exact hr
    next writeBits hwrite =>
      split
      · exact hr
      · exact (h.coil hfind).write hwrite _ _ _ _ hr

/-! ## The blocks of a server_t -/

theorem lookUp_map {β γ : Type} {find : Word → σ → Option γ} {f : γ → β} {a : Word} {s : σ}
    {block : β} (h : lookUp (some fun a s => (find a s).map f) a s = .ok block) :
    ∃ c, block = f c := by
  unfold lookUp at h
  dsimp only at h
  cases hfind : find a s with
  | none =>
    rw [hfind] at h
    cases h
  | some c =>
    rw [hfind] at h
    exact ⟨c, (Except.ok.inj h).symm⟩

/-- What is true of the bits stays so while registers are read and written. -/
theorem serverT_regsKeep (Q : List (SrvBlock Bool) → List (SrvBlock Bool) → Prop) :
    serverT.toEmbServer.RegsKeep fun s => Q s.coils s.discreteInputs where
  holding h := by
    obtain ⟨c, rfl⟩ := lookUp_map h
    refine ⟨fun hread offset quantity s hs => ?_, fun hwrite offset quantity values s hs => ?_⟩
    · obtain rfl := Option.some.inj hread
      exact hs
    · obtain rfl := Option.some.inj hwrite
      exact hs
  input h := by
    obtain ⟨c, rfl⟩ := lookUp_map h
    refine ⟨fun hread offset quantity s hs => ?_, nofun⟩
    obtain rfl := Option.some.inj hread
    exact hs

theorem serverT_bitsKeep (Q : List (SrvBlock Word) → List (SrvBlock Word) → Prop) :
    serverT.toEmbServer.BitsKeep fun s => Q s.holdings s.inputRegs where
  coil h := by
    obtain ⟨c, rfl⟩ := lookUp_map h
    refine ⟨fun hread offset quantity s hs => ?_, fun hwrite offset quantity values s hs => ?_⟩
    · obtain rfl := Option.some.inj hread
      exact hs
    · obtain rfl := Option.some.inj hwrite
      exact hs
  input h := by
    obtain ⟨c, rfl⟩ := lookUp_map h
    refine ⟨fun hread offset quantity s hs => ?_, nofun⟩
    obtain rfl := Option.some.inj hread
    exact hs

end Emodbus
