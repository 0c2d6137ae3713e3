import Emodbus.Registry

/-!
# Which blocks a server can take

Blocks that do not cross are disjoint, with one exception: two blocks of the same range do not
cross.  A lookup finds the addresses of a block, with one exception: the end of the empty block at
address zero is the last address there is.  A table is right exactly as long as neither comes in.
-/

namespace Emodbus

open Octets Mealy AddrRange Lookup

section Table

variable {β : Type} [AddrRange β] {bs : List β} {b b' : β}

/-- The crossing test of two blocks of a table. -/
def BlocksCross (b b' : β) : Prop := embIsRangesCross (start b) (size b) (start b') (size b')

theorem blocksCross_iff : BlocksCross b b' ↔
    Crosses (start b).toNat ((start b).toNat + (size b).toNat)
      (start b').toNat ((start b').toNat + (size b').toNat) := by
  unfold BlocksCross embIsRangesCross isPointInRange Crosses
  simp only [Bool.or_eq_true, Bool.and_eq_true, decide_eq_true_eq, or_assoc]

theorem BlocksCross.symm (h : BlocksCross b b') : BlocksCross b' b := by
  rw [blocksCross_iff] at *
  exact h.symm

theorem blocksCross_congr {c : β} (hs : start b = start c) (hz : size b = size c) :
    BlocksCross b b' ↔ BlocksCross c b' := by
  unfold BlocksCross
  rw [hs, hz]

theorem addBlock_refused (h : ∃ i ∈ bs, BlocksCross i b) : addBlock bs b = (bs, false) := by
  unfold addBlock
  rw [if_pos]
  rw [List.any_eq_true]
  exact h

theorem addBlock_accepted (h : ∀ i ∈ bs, ¬ BlocksCross i b) :
    addBlock bs b = (bs ++ [b], true) := by
  unfold addBlock
  rw [if_neg]
  rw [List.any_eq_true]
  rintro ⟨i, hi, hcross⟩
  exact h i hi hcross

/-- No two blocks of the table cross, and each fits. -/
structure TableInv (bs : List β) : Prop where
  uncrossed : bs.Pairwise fun b b' => ¬ BlocksCross b b'
  fits : ∀ b ∈ bs, FitsSpace b

theorem TableInv.nil : TableInv ([] : List β) := ⟨List.Pairwise.nil, by simp⟩

theorem TableInv.addBlock (h : TableInv bs) (hb : FitsSpace b) : TableInv (addBlock bs b).1 := by
  by_cases hcross : ∃ i ∈ bs, BlocksCross i b
  · rw [addBlock_refused hcross]
    exact h
  · have hnone : ∀ i ∈ bs, ¬ BlocksCross i b := fun i hi hc => hcross ⟨i, hi, hc⟩
    rw [addBlock_accepted hnone]
    refine ⟨List.pairwise_append.2 ⟨h.uncrossed, by simp, ?_⟩, ?_⟩
    · intro i hi c hc
      rw [List.mem_singleton.1 hc]
      exact hnone i hi
    · intro c hc
      rcases List.mem_append.1 hc with hc | hc
      · exact h.fits c hc
      · rw [List.mem_singleton.1 hc]
        exact hb

theorem TableInv.perm (h : TableInv bs) {bs' : List β} (hperm : bs'.Perm bs) : TableInv bs' where
  uncrossed := (hperm.pairwise_iff fun hn hc => hn hc.symm).2 h.uncrossed
  fits b hb := h.fits b (hperm.mem_iff.1 hb)

/-- Two blocks of a table that cross are none. -/
theorem TableInv.not_cross (h : TableInv bs) (hb : b ∈ bs) (hb' : b' ∈ bs) :
    ¬ BlocksCross b b' := by
  by_cases he : b = b'
  · subst he
    rw [blocksCross_iff]
    exact not_crosses_self
  · have hsymm : Std.Symm fun b b' : β => ¬ BlocksCross b b' := ⟨fun _ _ hn hc => hn hc.symm⟩
    exact List.Pairwise.forall h.uncrossed hb hb' he

/-- Blocks that do not cross are all taken, in whatever order they come. -/
theorem addAll_eq (h : TableInv bs) : addAll bs = bs := by
  have hfold : ∀ (front back : List β), TableInv (front ++ back) →
      back.foldl (fun bs b => (Emodbus.addBlock bs b).1) front = front ++ back := by
    intro front back
    induction back generalizing front with
    | nil => simp
    | cons b back ih =>
      intro hall
      have hnone : ∀ i ∈ front, ¬ BlocksCross i b := by
        intro i hi
        exact hall.not_cross (by simp [hi]) (by simp)
      have hall' : TableInv ((front ++ [b]) ++ back) := by
        rw [List.append_assoc]
        exact hall
      rw [List.foldl_cons, addBlock_accepted hnone, ih _ hall', List.append_assoc]
      rfl
  exact hfold [] bs h

/-! ## Lookups -/

theorem inBlock_iff (hb : FitsSpace b) (hz : ¬ (start b = 0 ∧ size b = 0)) (addr : Word) :
    inBlock b addr ↔ addr.toNat ∈ addresses b := by
  have ha := addr.isLt
  have hs := (start b).isLt
  have hne : (start b).toNat ≠ 0 ∨ (size b).toNat ≠ 0 := by
    by_contra hcon
    push Not at hcon
    exact hz ⟨BitVec.eq_of_toNat_eq hcon.1, BitVec.eq_of_toNat_eq hcon.2⟩
  have hend : (start b + size b - 1).toNat = (start b).toNat + (size b).toNat - 1 := by
    unfold FitsSpace at hb
    have h1 : (1 : Word).toNat = 1 := rfl
    rw [BitVec.toNat_sub, BitVec.toNat_add, h1]
    omega
  unfold inBlock addresses
  rw [Bool.and_eq_true, decide_eq_true_eq, decide_eq_true_eq, BitVec.le_def, BitVec.le_def, hend,
    Set.mem_Ico]
  omega

theorem inBlock_zero (hs : start b = 0) (hz : size b = 0) (addr : Word) : inBlock b addr := by
  have ha := addr.isLt
  unfold inBlock
  rw [Bool.and_eq_true, decide_eq_true_eq, decide_eq_true_eq, BitVec.le_def, BitVec.le_def, hs, hz]
  have hend : ((0 : Word) + 0 - 1).toNat = 65535 := rfl
  have h0 : (0 : Word).toNat = 0 := rfl
  rw [hend, h0]
  omega

theorem not_mem_addresses (hz : size b = 0) (n : ℕ) : n ∉ addresses b := by
  unfold addresses
  rw [hz]
  simp

/-- What `Exact` asks of a table that is looked up itself. -/
theorem exact_iff (h : TableInv bs) : Exact bs (getBlock bs) ↔
    (bs.Pairwise fun b b' => Disjoint (addresses b) (addresses b'))
      ∧ ∀ b ∈ bs, ¬ (start b = 0 ∧ size b = 0) := by
  constructor
  · intro hex
    refine ⟨hex.apart, fun b hb hz => ?_⟩
    -- with the empty block first, the lookup of address zero finds it
    obtain ⟨front, back, rfl⟩ := List.append_of_mem hb
    have hperm : (b :: (front ++ back)).Perm (front ++ b :: back) := List.perm_middle.symm
    have horder := hex.order _ hperm 0
    rw [addAll_eq (h.perm hperm)] at horder
    have hfirst : getBlock (b :: (front ++ back)) 0 = some b := by
      unfold getBlock
      exact List.find?_cons_of_pos (inBlock_zero hz.1 hz.2 0)
    have hmem := (hex.found 0 b (horder.symm.trans hfirst)).2
    exact not_mem_addresses hz.2 _ hmem
  · rintro ⟨hapart, hnz⟩
    have hin : ∀ b ∈ bs, ∀ addr, inBlock b addr ↔ addr.toNat ∈ addresses b :=
      fun b hb addr => inBlock_iff (h.fits b hb) (hnz b hb) addr
    refine ⟨hapart, ?_, ?_, ?_⟩
    · intro addr b hfind
      have hb := List.mem_of_find?_eq_some hfind
      have hit : inBlock b addr = true := List.find?_some (p := fun i => inBlock i addr) hfind
      exact ⟨hb, (hin b hb addr).1 hit⟩
    · intro addr hnone b hb hmem
      exact (List.find?_eq_none.1 hnone) b hb ((hin b hb addr).2 hmem)
    · intro bs' hperm addr
      rw [addAll_eq (h.perm hperm)]
      have hone : Exclusive (fun i => inBlock i addr) bs := by
        refine hapart.imp_of_mem fun {b b'} hb hb' hdis hboth => ?_
        exact Set.disjoint_left.1 hdis ((hin b hb addr).1 hboth.1) ((hin b' hb' addr).1 hboth.2)
      exact hone.find?_perm hperm

/-- A table that is right stays right with a block exactly if it can take the block. -/
theorem exact_addBlock_iff (h : TableInv bs) (hex : Exact bs (getBlock bs)) (hb : FitsSpace b) :
    Exact (addBlock bs b).1 (getBlock (addBlock bs b).1) ↔ Addable bs b := by
  obtain ⟨hapart, hnz⟩ := (exact_iff h).1 hex
  have hsame : ∀ c ∈ bs, start c = start b → size c = size b → ∀ i ∈ bs, ¬ BlocksCross i b := by
    intro c hc hs hz i hi hcross
    exact h.not_cross hc hi ((blocksCross_congr hs hz).2 hcross.symm)
  rw [exact_iff (h.addBlock hb)]
  by_cases hcross : ∃ i ∈ bs, BlocksCross i b
  · rw [addBlock_refused hcross]
    obtain ⟨i, hi, hib⟩ := hcross
    refine ⟨fun _ => ⟨?_, ?_⟩, fun _ => ⟨hapart, hnz⟩⟩
    · rintro ⟨hs, hz⟩
      rw [blocksCross_iff, hs, hz] at hib
      unfold Crosses at hib
      have h0 : (0 : Word).toNat = 0 := rfl
      omega
    · intro _ c hc hcb
      exact hsame c hc hcb.1 hcb.2 i hi hib
  · have hnone : ∀ i ∈ bs, ¬ BlocksCross i b := fun i hi hc => hcross ⟨i, hi, hc⟩
    rw [addBlock_accepted hnone]
    constructor
    · rintro ⟨hall, hnz'⟩
      refine ⟨hnz' b (by simp), fun hpos c hc hcb => ?_⟩
      have hdis := (List.pairwise_append.1 hall).2.2 c hc b (by simp)
      unfold addresses at hdis
      rw [hcb.1, hcb.2] at hdis
      have hpos' : (size b).toNat ≠ 0 := fun h0 => hpos (BitVec.eq_of_toNat_eq h0)
      exact not_disjoint_self (by omega) hdis
    · rintro ⟨hb0, hother⟩
      refine ⟨List.pairwise_append.2 ⟨hapart, by simp, fun i hi c hc => ?_⟩, fun c hc => ?_⟩
      · rw [List.mem_singleton.1 hc]
        have hib := hnone i hi
        rw [blocksCross_iff] at hib
        refine disjoint_of_not_crosses hib ?_
        -- the same range, and then empty
        by_cases hz : size b = 0
        · by_cases hiz : (size i).toNat = 0
          · exact Or.inr (by omega)
          · have h0 : (size b).toNat = 0 := by rw [hz]; rfl
            exact Or.inl (by omega)
        · refine Or.inl fun hsame => hother hz i hi ⟨BitVec.eq_of_toNat_eq hsame.1, ?_⟩
          exact BitVec.eq_of_toNat_eq (by omega)
      · rcases List.mem_append.1 hc with hc | hc
        · exact hnz c hc
        · rw [List.mem_singleton.1 hc]
          exact hb0

end Table

/-! ## All four tables -/

variable {σ : Type}

/-- What the calls keep true of a `server_t`. -/
structure ServerTables.Inv (t : ServerTables σ) : Prop where
  coils : TableInv t.coils
  discreteInputs : TableInv t.discreteInputs
  holdings : TableInv t.holdings
  inputRegs : TableInv t.inputRegs

/-- Every table is right about its own blocks. -/
structure ServerTables.AllExact (t : ServerTables σ) : Prop where
  coils : Exact t.coils (getBlock t.coils)
  discreteInputs : Exact t.discreteInputs (getBlock t.discreteInputs)
  holdings : Exact t.holdings (getBlock t.holdings)
  inputRegs : Exact t.inputRegs (getBlock t.inputRegs)

theorem addFile_tables (t : ServerTables σ) (file : EmbSrvFile σ) :
    (t.addFile file).1.coils = t.coils ∧ (t.addFile file).1.discreteInputs = t.discreteInputs
      ∧ (t.addFile file).1.holdings = t.holdings ∧ (t.addFile file).1.inputRegs = t.inputRegs := by
  unfold ServerTables.addFile
  split_ifs <;> exact ⟨rfl, rfl, rfl, rfl⟩

theorem ServerTables.Inv.add {t : ServerTables σ} (h : t.Inv) (c : AddCall σ) (hc : c.Fits) :
    (t.add c).1.Inv := by
  cases c with
  | coils block => exact ⟨h.coils.addBlock hc, h.discreteInputs, h.holdings, h.inputRegs⟩
  | discreteInputs block => exact ⟨h.coils, h.discreteInputs.addBlock hc, h.holdings, h.inputRegs⟩
  | holdingRegs block => exact ⟨h.coils, h.discreteInputs, h.holdings.addBlock hc, h.inputRegs⟩
  | inputRegs block => exact ⟨h.coils, h.discreteInputs, h.holdings, h.inputRegs.addBlock hc⟩
  | file file =>
    obtain ⟨h1, h2, h3, h4⟩ := addFile_tables t file
    refine ⟨?_, ?_, ?_, ?_⟩
    · exact h1 ▸ h.coils
    · exact h2 ▸ h.discreteInputs
    · exact h3 ▸ h.holdings
    · exact h4 ▸ h.inputRegs

theorem allExact_add_iff {t : ServerTables σ} (h : t.Inv) (hex : t.AllExact) (c : AddCall σ)
    (hc : c.Fits) : (t.add c).1.AllExact ↔ c.Sound t := by
  cases c with
  | coils block =>
    have hiff := exact_addBlock_iff h.coils hex.coils hc
    exact ⟨fun hall => hiff.1 hall.coils,
      fun hs => ⟨hiff.2 hs, hex.discreteInputs, hex.holdings, hex.inputRegs⟩⟩
  | discreteInputs block =>
    have hiff := exact_addBlock_iff h.discreteInputs hex.discreteInputs hc
    exact ⟨fun hall => hiff.1 hall.discreteInputs,
      fun hs => ⟨hex.coils, hiff.2 hs, hex.holdings, hex.inputRegs⟩⟩
  | holdingRegs block =>
    have hiff := exact_addBlock_iff h.holdings hex.holdings hc
    exact ⟨fun hall => hiff.1 hall.holdings,
      fun hs => ⟨hex.coils, hex.discreteInputs, hiff.2 hs, hex.inputRegs⟩⟩
  | inputRegs block =>
    have hiff := exact_addBlock_iff h.inputRegs hex.inputRegs hc
    exact ⟨fun hall => hiff.1 hall.inputRegs,
      fun hs => ⟨hex.coils, hex.discreteInputs, hex.holdings, hiff.2 hs⟩⟩
  | file file =>
    obtain ⟨h1, h2, h3, h4⟩ := addFile_tables t file
    refine ⟨fun _ => trivial, fun _ => ⟨?_, ?_, ?_, ?_⟩⟩
    · exact h1 ▸ hex.coils
    · exact h2 ▸ hex.discreteInputs
    · exact h3 ▸ hex.holdings
    · exact h4 ▸ hex.inputRegs

/-! ## The accepted blocks -/

/-- The calls with such a block work on this table, and the others leave it. -/
structure IsTable {β : Type} [AddrRange β] (table : ServerTables σ → List β)
    (block : AddCall σ → Option β) : Prop where
  taken : ∀ t c b, block c = some b → addBlock (table t) b = (table (t.add c).1, (t.add c).2)
  other : ∀ t c, block c = none → table (t.add c).1 = table t

theorem isTable_coils : IsTable (σ := σ) ServerTables.coils AddCall.coils? where
  taken t c b h := by
    cases c <;> cases h
    rfl
  other t c h := by
    cases c with
    | coils block => cases h
    | file file => exact (addFile_tables t file).1
    | _ => rfl

theorem isTable_discreteInputs :
    IsTable (σ := σ) ServerTables.discreteInputs AddCall.discreteInputs? where
  taken t c b h := by
    cases c <;> cases h
    rfl
  other t c h := by
    cases c with
    | discreteInputs block => cases h
    | file file => exact (addFile_tables t file).2.1
    | _ => rfl

theorem isTable_holdings : IsTable (σ := σ) ServerTables.holdings AddCall.holdingRegs? where
  taken t c b h := by
    cases c <;> cases h
    rfl
  other t c h := by
    cases c with
    | holdingRegs block => cases h
    | file file => exact (addFile_tables t file).2.2.1
    | _ => rfl

theorem isTable_inputRegs : IsTable (σ := σ) ServerTables.inputRegs AddCall.inputRegs? where
  taken t c b h := by
    cases c <;> cases h
    rfl
  other t c h := by
    cases c with
    | inputRegs block => cases h
    | file file => exact (addFile_tables t file).2.2.2
    | _ => rfl

section Accepted

variable {β : Type} [AddrRange β] {table : ServerTables σ → List β} {block : AddCall σ → Option β}

theorem IsTable.add (h : IsTable table block) (t : ServerTables σ) (c : AddCall σ) :
    table (t.add c).1 = table t ++ AddCall.accepted block [(c, (t.add c).2)] := by
  unfold AddCall.accepted
  rw [List.filterMap_cons, List.filterMap_nil]
  cases hb : block c with
  | none =>
    rw [h.other t c hb]
    cases (t.add c).2 <;> simp
  | some b =>
    have htaken := h.taken t c b hb
    by_cases hcross : ∃ i ∈ table t, BlocksCross i b
    · rw [addBlock_refused hcross, Prod.mk.injEq] at htaken
      rw [← htaken.1, ← htaken.2]
      simp
    · rw [addBlock_accepted fun i hi hc => hcross ⟨i, hi, hc⟩, Prod.mk.injEq] at htaken
      rw [← htaken.1, ← htaken.2]
      simp

/-- A table holds the blocks for which a call has returned true, in their order. -/
theorem IsTable.run_add (h : IsTable table block) (calls : List (AddCall σ)) (t : ServerTables σ) :
    table (run ServerTables.add t calls).1
      = table t ++ AddCall.accepted block (calls.zip (run ServerTables.add t calls).2) := by
  induction calls generalizing t with
  | nil => simp [AddCall.accepted]
  | cons c calls ih =>
    rw [run_cons, List.zip_cons_cons]
    dsimp only
    rw [ih, h.add t c, List.append_assoc]
    unfold AddCall.accepted
    rw [← List.filterMap_append, List.singleton_append]

theorem IsTable.registered (h : IsTable table block) (hempty : table ServerTables.empty = [])
    (calls : List (AddCall σ)) :
    AddCall.accepted block (calls.zip (registered calls).2) = table (registered calls).1 := by
  unfold Emodbus.registered
  rw [h.run_add, hempty, List.nil_append]

end Accepted

theorem exactFor_iff (calls : List (AddCall σ)) :
    (registered calls).1.ExactFor (calls.zip (registered calls).2)
      ↔ (registered calls).1.AllExact := by
  have h1 : Exact (AddCall.accepted AddCall.coils? (calls.zip (registered calls).2))
      (registered calls).1.getCoils ↔ _ :=
    iff_of_eq (congrArg (Exact · _) (isTable_coils.registered rfl calls))
  have h2 : Exact (AddCall.accepted AddCall.discreteInputs? (calls.zip (registered calls).2))
      (registered calls).1.getDiscreteInputs ↔ _ :=
    iff_of_eq (congrArg (Exact · _) (isTable_discreteInputs.registered rfl calls))
  have h3 : Exact (AddCall.accepted AddCall.holdingRegs? (calls.zip (registered calls).2))
      (registered calls).1.getHoldingRegs ↔ _ :=
    iff_of_eq (congrArg (Exact · _) (isTable_holdings.registered rfl calls))
  have h4 : Exact (AddCall.accepted AddCall.inputRegs? (calls.zip (registered calls).2))
      (registered calls).1.getInputRegs ↔ _ :=
    iff_of_eq (congrArg (Exact · _) (isTable_inputRegs.registered rfl calls))
  constructor
  · rintro ⟨e1, e2, e3, e4⟩
    exact ⟨h1.1 e1, h2.1 e2, h3.1 e3, h4.1 e4⟩
  · rintro ⟨e1, e2, e3, e4⟩
    exact ⟨h1.2 e1, h2.2 e2, h3.2 e3, h4.2 e4⟩

theorem ServerTables.Inv.start : (ServerTables.empty : ServerTables σ).Inv :=
  ⟨TableInv.nil, TableInv.nil, TableInv.nil, TableInv.nil⟩

theorem exact_nil {β : Type} [AddrRange β] : Exact ([] : List β) (getBlock []) :=
  (exact_iff TableInv.nil).2 ⟨List.Pairwise.nil, by simp⟩

/-- After every number of the calls the accepted blocks are disjoint and exactly looked up, if and
only if every call's block is one that its table can take. -/
theorem registered_exact_iff (calls : List (AddCall σ)) (hfit : ∀ c ∈ calls, c.Fits) :
    (∀ pre, pre <+: calls → (registered pre).1.ExactFor (pre.zip (registered pre).2))
      ↔ Along ServerTables.add (fun t c => c.Sound t) ServerTables.empty calls := by
  have hiff := run_states_iff (A := AddCall.Fits) (I := ServerTables.Inv)
    (P := ServerTables.AllExact) (fun t c hc ht => ht.add c hc)
    (fun t c hc ht hex => allExact_add_iff ht hex c hc) calls ServerTables.empty hfit
    ServerTables.Inv.start ⟨exact_nil, exact_nil, exact_nil, exact_nil⟩
  refine Iff.trans ?_ hiff
  constructor
  · intro h pre hpre
    exact (exactFor_iff pre).1 (h pre hpre)
  · intro h pre hpre
    exact (exactFor_iff pre).2 (h pre hpre)

/-- A block of coils without callbacks. -/
def bareCoils (start size : Word) : EmbSrvBits Unit := ⟨start, size, none, none⟩

theorem registered_exact_apart :
    (registered [.coils (bareCoils 0 8), .coils (bareCoils 8 8)]).1.ExactFor
      ([.coils (bareCoils 0 8), .coils (bareCoils 8 8)].zip
        (registered [.coils (bareCoils 0 8), .coils (bareCoils 8 8)]).2) := by
  have hfit : ∀ c ∈ [AddCall.coils (bareCoils 0 8), AddCall.coils (bareCoils 8 8)], c.Fits := by
    intro c hc
    simp only [List.mem_cons, List.not_mem_nil, or_false] at hc
    rcases hc with rfl | rfl
    · exact show (0 : ℕ) + 8 ≤ 65536 by simp
    · exact show (8 : ℕ) + 8 ≤ 65536 by simp
  refine (registered_exact_iff _ hfit).2 ⟨⟨?_, ?_⟩, ⟨?_, ?_⟩, trivial⟩ _ List.prefix_rfl
  · exact fun h => absurd h.2 (by decide)
  · intro _ b hb
    exact absurd hb (List.not_mem_nil)
  · exact fun h => absurd h.2 (by decide)
  · intro _ b hb
    have hb' : b ∈ [bareCoils 0 8] := hb
    rw [List.mem_singleton.1 hb']
    exact fun h => absurd h.1 (by decide)

/-- The same range twice, and both calls return true. -/
theorem equal_blocks_both_accepted :
    ¬ (registered [.coils (bareCoils 0 8), .coils (bareCoils 0 8)]).1.ExactFor
      ([.coils (bareCoils 0 8), .coils (bareCoils 0 8)].zip
        (registered [.coils (bareCoils 0 8), .coils (bareCoils 0 8)]).2) := by
  intro h
  have hapart := h.coils.apart
  have hlog : AddCall.accepted AddCall.coils?
      ([.coils (bareCoils 0 8), .coils (bareCoils 0 8)].zip
        (registered [.coils (bareCoils 0 8), .coils (bareCoils 0 8)]).2)
      = [bareCoils 0 8, bareCoils 0 8] := rfl
  rw [hlog, List.pairwise_cons] at hapart
  exact not_disjoint_self (by decide) (hapart.1 (bareCoils 0 8) (by simp))

end Emodbus
