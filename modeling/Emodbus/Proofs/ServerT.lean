import Emodbus.Proofs.Registry

/-!
# The lookups of a server and its flat memory

Where the blocks are laid out well, a lookup finds the block a range starts in, and the range is
inside one single block exactly when it ends in that one.  Reading and writing there is reading and
writing the flat memory.
-/

namespace Emodbus

open Octets

section Laid

variable {α : Type} {blocks : List (SrvBlock α)} {ranges : Ranges} {m : Mem α}

theorem contains_iff {b : SrvBlock α} (hpos : 1 ≤ b.size.toNat)
    (hstop : b.start.toNat + b.size.toNat ≤ 65536) (addr : Word) :
    b.contains addr = true
      ↔ b.start.toNat ≤ addr.toNat ∧ addr.toNat < b.start.toNat + b.size.toNat := by
  have hz : ¬ (AddrRange.start b = 0 ∧ AddrRange.size b = 0) := by
    rintro ⟨-, hz⟩
    have h0 : b.size = 0 := hz
    rw [h0] at hpos
    exact absurd hpos (by simp)
  have hfit : FitsSpace b := hstop
  exact inBlock_iff hfit hz addr

theorem findBlock_some {addr : Word} {b : SrvBlock α} {k : ℕ}
    (h : findBlock blocks addr = some (b, k)) :
    blocks[k]? = some b ∧ b.contains addr = true := by
  unfold findBlock at h
  have hmem := List.mem_of_find?_eq_some h
  have hc := List.find?_some h
  exact ⟨List.mem_zipIdx_iff_getElem?.1 hmem, hc⟩

theorem findBlock_none {addr : Word} (h : findBlock blocks addr = none) :
    ∀ b ∈ blocks, b.contains addr = false := by
  intro b hb
  obtain ⟨k, hk, rfl⟩ := List.getElem_of_mem hb
  unfold findBlock at h
  rw [List.find?_eq_none] at h
  have hmem : (blocks[k], k) ∈ blocks.zipIdx := by
    rw [List.mem_zipIdx_iff_getElem?]
    exact List.getElem?_eq_getElem hk
  simpa using h _ hmem

theorem inside_iff (hl : Laid blocks ranges m) (a n : ℕ) :
    ranges.inside a n = true
      ↔ ∃ b ∈ blocks, b.start.toNat ≤ a ∧ a + n ≤ b.start.toNat + b.size.toNat := by
  unfold Ranges.inside
  rw [← hl.ranges_eq, rangesOf, List.any_map, List.any_eq_true]
  simp only [Function.comp_apply, Bool.and_eq_true, decide_eq_true_iff]

theorem covers_flat {b : SrvBlock α} {a n : ℕ} (h1 : b.start.toNat ≤ a)
    (h2 : a + n ≤ b.start.toNat + b.size.toNat) : b.flat.Covers a n := by
  refine ⟨h1, ?_⟩
  change a + n ≤ b.start.toNat + b.values.length
  rwa [b.length_values]

/-- The block an address is in is the one that its lookup finds. -/
theorem findBlock_eq (hl : LaidOut blocks) {b : SrvBlock α} (hb : b ∈ blocks) (addr : Word)
    (h1 : b.start.toNat ≤ addr.toNat) (h2 : addr.toNat < b.start.toNat + b.size.toNat) :
    ∃ k, findBlock blocks addr = some (b, k) ∧ blocks[k]? = some b := by
  have hc : b.contains addr = true :=
    (contains_iff (hl.size_pos b hb) (hl.stop_le b hb) addr).2 ⟨h1, h2⟩
  cases hf : findBlock blocks addr with
  | none =>
    have hfalse := findBlock_none hf b hb
    rw [hc] at hfalse
    exact absurd hfalse (by simp)
  | some p =>
    obtain ⟨b', k⟩ := p
    obtain ⟨hk, hc'⟩ := findBlock_some hf
    have hb' := List.mem_of_getElem? hk
    have hin' := (contains_iff (hl.size_pos b' hb') (hl.stop_le b' hb') addr).1 hc'
    obtain ⟨i, hi, rfl⟩ := List.getElem_of_mem hb
    obtain ⟨hklt, rfl⟩ := List.getElem?_eq_some_iff.1 hk
    have hi' : i < (blocks.map SrvBlock.flat).length := by rwa [List.length_map]
    have hk' : k < (blocks.map SrvBlock.flat).length := by rwa [List.length_map]
    have hci : (blocks.map SrvBlock.flat)[i].Covers addr.toNat 1 := by
      rw [List.getElem_map]
      exact covers_flat h1 (by omega)
    have hck : (blocks.map SrvBlock.flat)[k].Covers addr.toNat 1 := by
      rw [List.getElem_map]
      exact covers_flat hin'.1 (by omega)
    have hik : i = k := hl.apart.index_eq hi' hk' hci hck le_rfl le_rfl
    subst hik
    exact ⟨i, rfl, hk⟩

/-- Blocks that are laid out well are one flat memory. -/
theorem LaidOut.laid (hl : LaidOut blocks) (default : α) :
    Laid blocks (rangesOf blocks) (flatMem blocks default) where
  toLaidOut := hl
  ranges_eq := rfl
  hold := by
    intro b' hb'
    obtain ⟨b, hb, rfl⟩ := List.mem_map.1 hb'
    refine List.ext_getElem (by rw [Mem.length_slice]) fun i h1 h2 => ?_
    have hstop := hl.stop_le b hb
    change i < b.values.length at h1
    have hi : i < b.size.toNat := by rwa [← b.length_values]
    have haddr : (BitVec.ofNat 16 (b.start.toNat + i)).toNat = b.start.toNat + i := by
      rw [BitVec.toNat_ofNat]
      omega
    obtain ⟨k, hfind, -⟩ := findBlock_eq hl hb (BitVec.ofNat 16 (b.start.toNat + i))
      (by omega) (by omega)
    rw [Mem.getElem_slice]
    change b.values[i] = flatMem blocks default (b.start.toNat + i)
    unfold flatMem
    rw [hfind]
    dsimp only
    rw [Nat.add_sub_cancel_left, List.getD_eq_getElem?_getD, List.getElem?_eq_getElem h1,
      Option.getD_some]

/-- The block a range is inside of is the one that the lookup of its first address finds. -/
theorem findBlock_inside (hl : Laid blocks ranges m) {addr : Word} {n : ℕ} (hn : 1 ≤ n)
    (h : ranges.inside addr.toNat n = true) :
    ∃ b k, findBlock blocks addr = some (b, k) ∧ blocks[k]? = some b
      ∧ b.start.toNat ≤ addr.toNat ∧ addr.toNat + n ≤ b.start.toNat + b.size.toNat := by
  obtain ⟨b, hb, hstart, hstop⟩ := (inside_iff hl _ _).1 h
  obtain ⟨k, hfind, hk⟩ := findBlock_eq hl.toLaidOut hb addr hstart (by omega)
  exact ⟨b, k, hfind, hk, hstart, hstop⟩

/-- The lookup of a range that is in no single block finds none, or one that ends too early. -/
theorem findBlock_outside (hl : Laid blocks ranges m) {addr : Word} {n : ℕ}
    (h : ranges.inside addr.toNat n = false) :
    findBlock blocks addr = none ∨ ∃ b k, findBlock blocks addr = some (b, k)
      ∧ b.start.toNat + b.size.toNat < addr.toNat + n := by
  cases hf : findBlock blocks addr with
  | none => exact .inl rfl
  | some p =>
    obtain ⟨b, k⟩ := p
    obtain ⟨hk, hc⟩ := findBlock_some hf
    have hb := List.mem_of_getElem? hk
    have hin := (contains_iff (hl.size_pos b hb) (hl.stop_le b hb) addr).1 hc
    refine .inr ⟨b, k, rfl, ?_⟩
    by_contra hle
    have htrue : ranges.inside addr.toNat n = true :=
      (inside_iff hl _ _).2 ⟨b, hb, hin.1, by omega⟩
    rw [h] at htrue
    exact absurd htrue (by simp)

/-! ## The lookups of a server -/

section LookUp

variable {β σ : Type} (blocksOf : σ → List (SrvBlock α)) {s : σ} {addr : Word} {n : ℕ}

theorem lookUp_inside (mk : SrvBlock α × ℕ → β) (hl : Laid (blocksOf s) ranges m) (hn : 1 ≤ n)
    (h : ranges.inside addr.toNat n = true) :
    ∃ b k, lookUp (some fun addr s => (findBlock (blocksOf s) addr).map mk) addr s = .ok (mk (b, k))
      ∧ (blocksOf s)[k]? = some b ∧ b.start.toNat ≤ addr.toNat
      ∧ addr.toNat + n ≤ b.start.toNat + b.size.toNat := by
  obtain ⟨b, k, hfind, hk, hstart, hstop⟩ := findBlock_inside hl hn h
  refine ⟨b, k, ?_, hk, hstart, hstop⟩
  unfold lookUp
  dsimp only
  rw [hfind, Option.map_some]

theorem lookUp_outside (mk : SrvBlock α × ℕ → β) (hl : Laid (blocksOf s) ranges m)
    (h : ranges.inside addr.toNat n = false) :
    let found := lookUp (some fun addr s => (findBlock (blocksOf s) addr).map mk) addr s
    found = .error mbeIllegalDataAddr ∨ ∃ b k, found = .ok (mk (b, k))
      ∧ b.start.toNat + b.size.toNat < addr.toNat + n := by
  unfold lookUp
  dsimp only
  rcases findBlock_outside hl h with hnone | ⟨b, k, hfind, hlt⟩
  · left
    rw [hnone, Option.map_none]
  · right
    refine ⟨b, k, ?_, hlt⟩
    rw [hfind, Option.map_some]

/-- Where one address is asked for, the lookup finds no block at all. -/
theorem lookUp_outside_one (mk : SrvBlock α × ℕ → β) (hl : Laid (blocksOf s) ranges m)
    (h : ranges.inside addr.toNat 1 = false) :
    lookUp (some fun addr s => (findBlock (blocksOf s) addr).map mk) addr s
      = .error mbeIllegalDataAddr := by
  unfold lookUp
  dsimp only
  rcases findBlock_outside hl h with hnone | ⟨b, k, hfind, hlt⟩
  · rw [hnone, Option.map_none]
  · obtain ⟨hk, hc⟩ := findBlock_some hfind
    have hb := List.mem_of_getElem? hk
    have hin := (contains_iff (hl.size_pos b hb) (hl.stop_le b hb) addr).1 hc
    omega

end LookUp

/-! ## Reading and writing a block -/

variable {b : SrvBlock α} {k : ℕ} {addr : Word}

theorem offset_toNat (h : b.start.toNat ≤ addr.toNat) :
    (addr - b.start).toNat = addr.toNat - b.start.toNat := by
  have h1 := addr.isLt
  have h2 := b.start.isLt
  rw [BitVec.toNat_sub]
  omega

theorem askBlock_eq {β : Type} (hk : blocks[k]? = some b) (f : SrvBlock α → List β) :
    askBlock blocks k f = f b := by
  unfold askBlock
  rw [hk]

theorem Laid.holds (hl : Laid blocks ranges m) (hk : blocks[k]? = some b) : b.flat.Holds m :=
  hl.hold _ (List.mem_map_of_mem (List.mem_of_getElem? hk))

/-- In a store whose blocks are at the same addresses, the block at the same place is at the same
address. -/
theorem Laid.place {blocks' : List (SrvBlock α)} {m' : Mem α} (hl : Laid blocks ranges m)
    (hl' : Laid blocks' ranges m') (hk : blocks[k]? = some b) :
    ∃ b', blocks'[k]? = some b' ∧ b'.start = b.start ∧ b'.size = b.size := by
  have hmap := hl'.ranges_eq.trans hl.ranges_eq.symm
  have hat := congrArg (fun xs => xs[k]?) hmap
  unfold rangesOf at hat
  rw [List.getElem?_map, List.getElem?_map, hk] at hat
  cases hk' : blocks'[k]? with
  | none =>
    rw [hk'] at hat
    exact absurd hat (by simp)
  | some b' =>
    rw [hk'] at hat
    simp only [Option.map_some, Option.some.injEq, Prod.mk.injEq] at hat
    exact ⟨b', rfl, BitVec.eq_of_toNat_eq hat.1, BitVec.eq_of_toNat_eq hat.2⟩

/-- A block that is changed into one with the same place and size. -/
theorem Laid.change (hl : Laid blocks ranges m) (hk : blocks[k]? = some b)
    {f : SrvBlock α → SrvBlock α} {ys : List α} (hstart : (f b).start = b.start)
    (hsize : (f b).size = b.size)
    (hvalues : (f b).values = overwrite b.values (addr.toNat - b.start.toNat) ys)
    (h1 : b.start.toNat ≤ addr.toNat)
    (h2 : addr.toNat + ys.length ≤ b.start.toNat + b.size.toNat) :
    Laid (changeBlock blocks k f) ranges (Mem.blit m addr.toNat ys) := by
  have hset : changeBlock blocks k f = blocks.set k (f b) := by
    unfold changeBlock
    rw [hk]
  obtain ⟨hklt, rfl⟩ := List.getElem?_eq_some_iff.1 hk
  have hsame : ∀ {γ : Type} (g : SrvBlock α → γ), g (f blocks[k]) = g blocks[k] →
      (blocks.set k (f blocks[k])).map g = blocks.map g := by
    intro γ g hg
    rw [List.map_set, hg, ← List.getElem_map g (h := by rwa [List.length_map]),
      List.set_getElem_self]
  have hranges : rangesOf (blocks.set k (f blocks[k])) = ranges := by
    unfold rangesOf
    rw [hsame _ (by rw [hstart, hsize])]
    exact hl.ranges_eq
  have hmem : ∀ c ∈ blocks.set k (f blocks[k]), ∃ c' ∈ blocks, c.start = c'.start
      ∧ c.size = c'.size := by
    intro c hc
    rcases List.mem_or_eq_of_mem_set hc with hc | rfl
    · exact ⟨c, hc, rfl, rfl⟩
    · exact ⟨blocks[k], List.getElem_mem hklt, hstart, hsize⟩
  have hk' : k < (blocks.map SrvBlock.flat).length := by rwa [List.length_map]
  have hb : (blocks.map SrvBlock.flat)[k] = blocks[k].flat := List.getElem_map _
  have hflat : (blocks.set k (f blocks[k])).map SrvBlock.flat
      = (blocks.map SrvBlock.flat).set k ⟨(blocks.map SrvBlock.flat)[k].start,
        overwrite (blocks.map SrvBlock.flat)[k].values
          (addr.toNat - (blocks.map SrvBlock.flat)[k].start) ys⟩ := by
    rw [List.map_set, hb]
    unfold SrvBlock.flat
    rw [hstart, hvalues]
  have hcovers : (blocks.map SrvBlock.flat)[k].Covers addr.toNat ys.length := by
    rw [hb]
    exact covers_flat h1 h2
  rw [hset]
  refine ⟨⟨?_, ?_, ?_⟩, hranges, ?_⟩
  · intro c hc
    obtain ⟨c', hc', -, hsz⟩ := hmem c hc
    rw [hsz]
    exact hl.size_pos c' hc'
  · intro c hc
    obtain ⟨c', hc', hst, hsz⟩ := hmem c hc
    rw [hst, hsz]
    exact hl.stop_le c' hc'
  · rw [hflat]
    exact hl.apart.set hk' (length_overwrite _ _ _)
  · rw [hflat]
    exact hl.hold.overwrite hl.apart hk' hcovers

end Laid

section Words

variable {blocks : List (SrvBlock Word)} {ranges : Ranges} {m : Mem Word} {b : SrvBlock Word}
  {k : ℕ} {addr quantity : Word}

theorem Laid.onReadRegs (hl : Laid blocks ranges m) (hk : blocks[k]? = some b)
    (h1 : b.start.toNat ≤ addr.toNat)
    (h2 : addr.toNat + quantity.toNat ≤ b.start.toNat + b.size.toNat) :
    askBlock blocks k (·.onReadRegs (addr - b.start) quantity)
      = Mem.slice m addr.toNat quantity.toNat := by
  rw [askBlock_eq hk]
  unfold SrvBlock.onReadRegs SrvBlock.copyOut
  rw [offset_toNat h1]
  exact (hl.holds hk).read (covers_flat h1 h2)

theorem Laid.onWriteRegs (hl : Laid blocks ranges m) (hk : blocks[k]? = some b) {ys : List Word}
    (hlen : ys.length = quantity.toNat) (h1 : b.start.toNat ≤ addr.toNat)
    (h2 : addr.toNat + quantity.toNat ≤ b.start.toNat + b.size.toNat) :
    Laid (changeBlock blocks k (·.onWriteRegs (addr - b.start) quantity ys)) ranges
      (Mem.blit m addr.toNat ys) := by
  refine hl.change hk rfl rfl ?_ h1 (by rwa [hlen])
  change overwrite b.values (addr - b.start).toNat (ys.take quantity.toNat) = _
  rw [offset_toNat h1, ← hlen, List.take_length]

end Words

end Emodbus
