import Emodbus.ServerRequest
import Mathlib.Tactic.IntervalCases

/-!
# What a handler reads of its request

For each handler three facts: requests that pass and agree in front of `span` get the same
reaction (`Footprint.within`), so do requests that do not pass (`refused`), and a server that
records everything tells two requests apart wherever the handler reads them (`told`).  From these,
bytes behind the request make no difference exactly where the handler does not read them.
-/

namespace Emodbus

open Octets

variable {σ : Type}

/-- What can be seen of a handler's run. -/
def SrvRun.seen (x : Byte × SrvRun σ) : Byte × EmbPdu × σ × List StoreCall :=
  (x.1, x.2.txPdu, x.2.store, x.2.calls)

/-- A request in the receive buffer. -/
abbrev request (function dataSize maxSize : Byte) (d : Mem Byte) (tx : EmbPdu) (s : σ)
    (calls : List StoreCall) : SrvRun σ :=
  ⟨⟨function, dataSize, maxSize, d⟩, tx, s, calls⟩

/-- Two requests to which the handler's runs look the same. -/
def SrvHandlerKind.SeenAlike (k : SrvHandlerKind) (function dataSize : Byte) (d d' : Mem Byte) :
    Prop :=
  ∀ (σ : Type) (srv : EmbServer σ) (maxSize : Byte) (tx : EmbPdu) (s : σ) (calls : List StoreCall),
    SrvRun.seen (k.handler srv (request function dataSize maxSize d tx s calls))
      = SrvRun.seen (k.handler srv (request function dataSize maxSize d' tx s calls))

theorem SrvHandlerKind.SeenAlike.alike {k : SrvHandlerKind} {function dataSize : Byte}
    {d d' : Mem Byte} (h : k.SeenAlike function dataSize d d') :
    k.Alike function dataSize d d' := by
  intro σ srv maxSize tx s calls
  have heq := h σ srv maxSize tx s calls
  simp only [SrvRun.seen, Prod.mk.injEq] at heq
  obtain ⟨hcode, htx, hstore, hcalls⟩ := heq
  refine ⟨hcode, ?_, hstore, hcalls⟩
  rw [htx]
  exact ⟨rfl, rfl, rfl⟩

/-- The facts about one handler. -/
structure Footprint (k : SrvHandlerKind) : Prop where
  within : ∀ {function dataSize : Byte} {d d' : Mem Byte}, Mem.Agree dataSize.toNat d d' →
    k.passes function dataSize d → k.passes function dataSize d' →
    k.span function dataSize d ≤ dataSize.toNat → k.SeenAlike function dataSize d d'
  refused : ∀ {function dataSize : Byte} {d d' : Mem Byte}, Mem.Agree dataSize.toNat d d' →
    k.Enclosed function dataSize d → ¬ k.passes function dataSize d →
    ¬ k.passes function dataSize d' → k.SeenAlike function dataSize d d'
  told : ∀ {function dataSize : Byte} {d d' : Mem Byte}, Mem.Agree dataSize.toNat d d' →
    k.Alike function dataSize d d' → k.passes function dataSize d →
    k.passes function dataSize d' ∧
      (dataSize.toNat < k.span function dataSize d →
        (d dataSize.toNat = 6 ↔ d' dataSize.toNat = 6))

section General

variable {k : SrvHandlerKind} {function dataSize : Byte} {d : Mem Byte}

/-- The memory with one byte made a 6, or no longer a 6. -/
def toggle (d : Mem Byte) (n : ℕ) : Mem Byte := Mem.blit d n [if d n = 6 then 0 else 6]

theorem agree_toggle (d : Mem Byte) (n : ℕ) : Mem.Agree n d (toggle d n) :=
  fun _ hi => (Mem.blit_of_lt d _ hi).symm

theorem toggle_eq_iff (d : Mem Byte) (n : ℕ) : ¬ (d n = 6 ↔ toggle d n n = 6) := by
  unfold toggle
  rw [Mem.blit_singleton, if_pos rfl]
  split_ifs with h
  · exact fun hiff => absurd (hiff.1 h) (by simp)
  · exact fun hiff => h (hiff.2 rfl)

theorem Footprint.alike_iff (hk : Footprint k) :
    (∀ d₁ d₂, Mem.Agree dataSize.toNat d d₁ → Mem.Agree dataSize.toNat d d₂ →
      k.Alike function dataSize d₁ d₂) ↔ k.Enclosed function dataSize d := by
  constructor
  · intro h d₁ d₂ h₁ h₂ hpass
    have h12 : Mem.Agree dataSize.toNat d₁ d₂ := h₁.symm.trans h₂
    refine ⟨(hk.told h12 (h d₁ d₂ h₁ h₂) hpass).1, ?_⟩
    -- a byte that is read behind the request can be told from another one there
    by_contra hlt
    have htog := agree_toggle d₁ dataSize.toNat
    obtain ⟨-, hbyte⟩ := hk.told htog (h d₁ _ h₁ (h₁.trans htog)) hpass
    exact toggle_eq_iff d₁ _ (hbyte (by omega))
  · intro h d₁ d₂ h₁ h₂
    have h12 : Mem.Agree dataSize.toNat d₁ d₂ := h₁.symm.trans h₂
    refine SrvHandlerKind.SeenAlike.alike ?_
    by_cases hpass : k.passes function dataSize d₁
    · obtain ⟨hpass', hspan⟩ := h d₁ d₂ h₁ h₂ hpass
      exact hk.within h12 hpass hpass' hspan
    · have hpass' : ¬ k.passes function dataSize d₂ := fun hp => hpass (h d₂ d₁ h₂ h₁ hp).1
      exact hk.refused h12 (fun e₁ e₂ he₁ he₂ => h e₁ e₂ (h₁.trans he₁) (h₁.trans he₂)) hpass hpass'

end General

/-! ## Fields -/

section Fields

variable {n : ℕ} {d d' : Mem Byte}

theorem agree_big16 (h : Mem.Agree n d d') {off : ℕ} (ho : off + 2 ≤ n) :
    getBigEnd16 d off = getBigEnd16 d' off := by
  rw [getBigEnd16_eq, getBigEnd16_eq]
  exact h.beWord_eq ho

theorem bytes_of_big16 {off : ℕ} (h : getBigEnd16 d off = getBigEnd16 d' off) :
    d off = d' off ∧ d (off + 1) = d' (off + 1) := by
  rw [getBigEnd16_eq, getBigEnd16_eq] at h
  exact Word.ofBytes_inj.1 h

end Fields

/-- A block of bits with every address in it, whose callbacks return 0. -/
def wholeBits : EmbSrvBits Unit :=
  ⟨65535, 65535, some fun _ _ s => (0, [], s), some fun _ _ _ s => (0, s)⟩

/-- A block of registers with every address in it, whose callbacks return 0. -/
def wholeRegs : EmbSrvRegs Unit :=
  ⟨65535, 65535, some fun _ _ s => (0, [], s), some fun _ _ _ s => (0, s)⟩

/-- A server that takes everything and so lets its calls tell what the request was. -/
def recorder : EmbServer Unit where
  getCoils := some fun _ _ => some wholeBits
  getDiscreteInputs := some fun _ _ => some wholeBits
  getHoldingRegs := some fun _ _ => some wholeRegs
  getInputRegs := some fun _ _ => some wholeRegs
  getFile := some fun fileno _ => some
    ⟨fileno, some fun _ _ s => (0, [], s), some fun _ _ _ s => (0, s)⟩
  readFifo := some fun _ s => (0, [], 0, s)

/-- A response PDU with room for everything. -/
def roomyPdu : EmbPdu := ⟨0, 0, 255, fun _ => 0⟩

theorem roomyPdu_room (b : Byte) : ¬ roomyPdu.maxSize.toNat < b.toNat := by
  have hlt := b.isLt
  change ¬ 255 < b.toNat
  omega

theorem whole_inside (addr quantity : Word) (h : quantity.toNat ≤ 2000) :
    ¬ (65535 : Word).toNat + (65535 : Word).toNat < addr.toNat + quantity.toNat := by
  have hlt := addr.isLt
  have h65535 : (65535 : Word).toNat = 65535 := rfl
  omega

/-- The handler's run on the recorder. -/
def SrvHandlerKind.recorded (k : SrvHandlerKind) (function dataSize : Byte) (d : Mem Byte) :
    Byte × SrvRun Unit :=
  k.handler recorder (request function dataSize 0 d roomyPdu () [])

section Told

variable {k : SrvHandlerKind} {function dataSize : Byte} {d d' : Mem Byte}

theorem SrvHandlerKind.Alike.recorded (h : k.Alike function dataSize d d') :
    (k.recorded function dataSize d).1 = (k.recorded function dataSize d').1
      ∧ (k.recorded function dataSize d).2.txPdu.Same (k.recorded function dataSize d').2.txPdu
      ∧ (k.recorded function dataSize d).2.calls = (k.recorded function dataSize d').2.calls := by
  obtain ⟨hcode, htx, -, hcalls⟩ := h Unit recorder 0 roomyPdu () []
  exact ⟨hcode, htx, hcalls⟩

theorem six_iff_of_eq {n : ℕ} (h : ∀ i < n, d i = d' i) (m : ℕ) (hm : m < n) :
    d m = 6 ↔ d' m = 6 := by rw [h m hm]

theorem offset_inj {a b : Word} (h : a - 65535 = b - 65535) : a = b := by bv_omega

theorem header_eq (h0 : getBigEnd16 d 0 = getBigEnd16 d' 0)
    (h2 : getBigEnd16 d 2 = getBigEnd16 d' 2) : ∀ i < 4, d i = d' i := by
  obtain ⟨b0, b1⟩ := bytes_of_big16 h0
  obtain ⟨b2, b3⟩ := bytes_of_big16 h2
  intro i hi
  interval_cases i
  · exact b0
  · exact b1
  · exact b2
  · exact b3

end Told

/-! ## Coils and discrete inputs -/

section Bits

variable {function dataSize : Byte} {d d' : Mem Byte}

theorem recorded_readBits (hfn : function = 0x01 ∨ function = 0x02)
    (hp : SrvHandlerKind.readBits.passes function dataSize d) :
    (SrvHandlerKind.readBits.recorded function dataSize d).1 = 0
      ∧ (SrvHandlerKind.readBits.recorded function dataSize d).2.calls
        = [.readBits 65535 65535 (getBigEnd16 d 0 - 65535) (getBigEnd16 d 2) 1] := by
  have hlook : lookUp (bitsGetter recorder function) (getBigEnd16 d 0) () = .ok wholeBits := by
    rcases hfn with rfl | rfl <;> rfl
  simp only [SrvHandlerKind.passes] at hp
  simp only [SrvHandlerKind.recorded, SrvHandlerKind.handler, embSrvReadBits]
  rw [if_neg (not_not.2 hp), hlook]
  dsimp only [wholeBits]
  rw [if_neg (whole_inside _ _ hp.2), if_neg (roomyPdu_room _)]
  exact ⟨rfl, rfl⟩

theorem readBits_refused (hp : ¬ SrvHandlerKind.readBits.passes function dataSize d)
    (srv : EmbServer σ) (maxSize : Byte) (tx : EmbPdu) (s : σ) (calls : List StoreCall) :
    embSrvReadBits srv (request function dataSize maxSize d tx s calls)
      = (mbeIllegalDataValue, request function dataSize maxSize d tx s calls) := by
  simp only [SrvHandlerKind.passes] at hp
  simp only [embSrvReadBits]
  rw [if_pos hp]

/-- A function that is neither of the two has no block. -/
theorem readBits_other (hfn : ¬ (function = 0x01 ∨ function = 0x02))
    (hp : SrvHandlerKind.readBits.passes function dataSize d) (srv : EmbServer σ)
    (maxSize : Byte) (tx : EmbPdu) (s : σ) (calls : List StoreCall) :
    embSrvReadBits srv (request function dataSize maxSize d tx s calls)
      = (mbeIllegalDataAddr, request function dataSize maxSize d tx s calls) := by
  have hnone : bitsGetter srv function = some fun _ _ => none := by
    unfold bitsGetter
    rw [not_or] at hfn
    rw [if_neg hfn.1, if_neg hfn.2]
  simp only [SrvHandlerKind.passes] at hp
  simp only [embSrvReadBits]
  rw [if_neg (not_not.2 hp), hnone]
  rfl

theorem readBits_footprint : Footprint .readBits where
  within := by
    intro function dataSize d d' hd hp hp' hspan σ srv maxSize tx s calls
    simp only [SrvHandlerKind.span] at hspan
    simp only [SrvHandlerKind.handler]
    split_ifs at hspan with hfn
    · simp only [SrvHandlerKind.passes] at hp hp'
      simp only [embSrvReadBits]
      rw [if_neg (not_not.2 hp), if_neg (not_not.2 hp'), agree_big16 hd (show 0 + 2 ≤ _ by omega),
        agree_big16 hd (show 2 + 2 ≤ _ by omega)]
      cases lookUp (bitsGetter srv function) (getBigEnd16 d' 0) s with
      | error code => rfl
      | ok coils =>
        obtain ⟨start, size, readBits, writeBits⟩ := coils
        cases readBits with
        | none => dsimp only; split_ifs <;> rfl
        | some readBits => dsimp only; split_ifs <;> rfl
    · rw [readBits_other hfn hp, readBits_other hfn hp']
      rfl
  refused := by
    intro function dataSize d d' hd _ hp hp' σ srv maxSize tx s calls
    simp only [SrvHandlerKind.handler]
    rw [readBits_refused hp, readBits_refused hp']
    rfl
  told := by
    intro function dataSize d d' hd halike hp
    obtain ⟨hcode, -, hcalls⟩ := halike.recorded
    by_cases hp' : SrvHandlerKind.readBits.passes function dataSize d'
    · refine ⟨hp', ?_⟩
      simp only [SrvHandlerKind.span]
      split_ifs with hfn
      · rw [(recorded_readBits hfn hp).2, (recorded_readBits hfn hp').2] at hcalls
        simp only [List.cons.injEq, StoreCall.readBits.injEq, and_true, true_and] at hcalls
        exact six_iff_of_eq (header_eq (offset_inj hcalls.1) hcalls.2) _
      · exact fun hlt => absurd hlt (Nat.not_lt_zero _)
    · have hcode' :
          (SrvHandlerKind.readBits.recorded function dataSize d').1 = mbeIllegalDataValue :=
        congrArg Prod.fst (readBits_refused hp' recorder 0 roomyPdu () [])
      by_cases hfn : function = 0x01 ∨ function = 0x02
      · rw [(recorded_readBits hfn hp).1, hcode'] at hcode
        exact absurd hcode (by decide)
      · have hother :
            (SrvHandlerKind.readBits.recorded function dataSize d).1 = mbeIllegalDataAddr :=
          congrArg Prod.fst (readBits_other hfn hp recorder 0 roomyPdu () [])
        rw [hother, hcode'] at hcode
        exact absurd hcode (by decide)

theorem recorded_writeCoil (hp : SrvHandlerKind.writeCoil.passes function dataSize d) :
    (SrvHandlerKind.writeCoil.recorded function dataSize d).1 = 0
      ∧ (SrvHandlerKind.writeCoil.recorded function dataSize d).2.calls
        = [.writeBits 65535 65535 (getBigEnd16 d 0 - 65535) 1
          [if getBigEnd16 d 2 = 0x0000 then 0 else 1]] := by
  simp only [SrvHandlerKind.passes] at hp
  simp only [SrvHandlerKind.recorded, SrvHandlerKind.handler, embSrvWriteCoil]
  rw [if_neg (not_not.2 hp)]
  dsimp only [recorder, lookUp, wholeBits]
  rw [if_neg (roomyPdu_room _)]
  exact ⟨rfl, rfl⟩

theorem writeCoil_refused (hp : ¬ SrvHandlerKind.writeCoil.passes function dataSize d)
    (srv : EmbServer σ) (maxSize : Byte) (tx : EmbPdu) (s : σ) (calls : List StoreCall) :
    embSrvWriteCoil srv (request function dataSize maxSize d tx s calls)
      = (mbeIllegalDataValue, request function dataSize maxSize d tx s calls) := by
  simp only [SrvHandlerKind.passes] at hp
  simp only [embSrvWriteCoil]
  rw [if_pos hp]

theorem writeCoil_footprint : Footprint .writeCoil where
  within := by
    intro function dataSize d d' hd hp hp' hspan σ srv maxSize tx s calls
    simp only [SrvHandlerKind.span] at hspan
    simp only [SrvHandlerKind.passes] at hp hp'
    simp only [SrvHandlerKind.handler, embSrvWriteCoil]
    rw [if_neg (not_not.2 hp), if_neg (not_not.2 hp'), agree_big16 hd (show 0 + 2 ≤ _ by omega),
      agree_big16 hd (show 2 + 2 ≤ _ by omega)]
    cases lookUp srv.getCoils (getBigEnd16 d' 0) s with
    | error code => rfl
    | ok coils =>
      obtain ⟨start, size, readBits, writeBits⟩ := coils
      cases writeBits with
      | none => rfl
      | some writeBits => dsimp only; split_ifs <;> rfl
  refused := by
    intro function dataSize d d' hd _ hp hp' σ srv maxSize tx s calls
    simp only [SrvHandlerKind.handler]
    rw [writeCoil_refused hp, writeCoil_refused hp']
    rfl
  told := by
    intro function dataSize d d' hd halike hp
    obtain ⟨hcode, -, hcalls⟩ := halike.recorded
    by_cases hp' : SrvHandlerKind.writeCoil.passes function dataSize d'
    · refine ⟨hp', six_iff_of_eq ?_ _⟩
      rw [(recorded_writeCoil hp).2, (recorded_writeCoil hp').2] at hcalls
      simp only [List.cons.injEq, StoreCall.writeBits.injEq, and_true, true_and] at hcalls
      refine header_eq (offset_inj hcalls.1) ?_
      simp only [SrvHandlerKind.passes] at hp hp'
      rcases hp with h | h <;> rcases hp' with h' | h'
      · rw [h, h']
      · exact absurd hcalls.2 (by rw [h, h']; decide)
      · exact absurd hcalls.2 (by rw [h, h']; decide)
      · rw [h, h']
    · have hcode' : (SrvHandlerKind.writeCoil.recorded function dataSize d').1
          = mbeIllegalDataValue :=
        congrArg Prod.fst (writeCoil_refused hp' recorder 0 roomyPdu () [])
      rw [(recorded_writeCoil hp).1, hcode'] at hcode
      exact absurd hcode (by decide)

theorem recorded_writeCoils (hp : SrvHandlerKind.writeCoils.passes function dataSize d) :
    (SrvHandlerKind.writeCoils.recorded function dataSize d).1 = 0
      ∧ (SrvHandlerKind.writeCoils.recorded function dataSize d).2.calls
        = [.writeBits 65535 65535 (getBigEnd16 d 0 - 65535) (getBigEnd16 d 2)
          (Mem.slice d 5 (bitsBytes (getBigEnd16 d 2)))] := by
  simp only [SrvHandlerKind.passes] at hp
  simp only [SrvHandlerKind.recorded, SrvHandlerKind.handler, embSrvWriteCoils]
  rw [if_neg (not_not.2 hp.1), if_neg (not_not.2 hp.2)]
  dsimp only [recorder, lookUp, wholeBits]
  rw [if_neg (whole_inside _ _ (by omega)), if_neg (roomyPdu_room _)]
  exact ⟨rfl, rfl⟩

theorem writeCoils_refused (hp : ¬ SrvHandlerKind.writeCoils.passes function dataSize d)
    (srv : EmbServer σ) (maxSize : Byte) (tx : EmbPdu) (s : σ) (calls : List StoreCall) :
    embSrvWriteCoils srv (request function dataSize maxSize d tx s calls)
      = (mbeIllegalDataValue, request function dataSize maxSize d tx s calls) := by
  simp only [SrvHandlerKind.passes] at hp
  simp only [embSrvWriteCoils]
  by_cases hq : 1 ≤ (getBigEnd16 d 2).toNat ∧ (getBigEnd16 d 2).toNat ≤ 0x07B0
  · rw [if_neg (not_not.2 hq), if_pos fun hbc => hp ⟨hq, hbc⟩]
  · rw [if_pos hq]

theorem writeCoils_footprint : Footprint .writeCoils where
  within := by
    intro function dataSize d d' hd hp hp' hspan σ srv maxSize tx s calls
    simp only [SrvHandlerKind.span] at hspan
    simp only [SrvHandlerKind.passes] at hp hp'
    simp only [SrvHandlerKind.handler, embSrvWriteCoils]
    rw [if_neg (not_not.2 hp.1), if_neg (not_not.2 hp.2), if_neg (not_not.2 hp'.1),
      if_neg (not_not.2 hp'.2), hd.slice_eq hspan, agree_big16 hd (show 0 + 2 ≤ _ by omega),
      agree_big16 hd (show 2 + 2 ≤ _ by omega)]
    cases lookUp srv.getCoils (getBigEnd16 d' 0) s with
    | error code => rfl
    | ok coils =>
      obtain ⟨start, size, readBits, writeBits⟩ := coils
      cases writeBits with
      | none => dsimp only; split_ifs <;> rfl
      | some writeBits => dsimp only; split_ifs <;> rfl
  refused := by
    intro function dataSize d d' hd _ hp hp' σ srv maxSize tx s calls
    simp only [SrvHandlerKind.handler]
    rw [writeCoils_refused hp, writeCoils_refused hp']
    rfl
  told := by
    intro function dataSize d d' hd halike hp
    obtain ⟨hcode, -, hcalls⟩ := halike.recorded
    by_cases hp' : SrvHandlerKind.writeCoils.passes function dataSize d'
    · refine ⟨hp', six_iff_of_eq ?_ _⟩
      rw [(recorded_writeCoils hp).2, (recorded_writeCoils hp').2] at hcalls
      simp only [List.cons.injEq, StoreCall.writeBits.injEq, and_true, true_and] at hcalls
      obtain ⟨haddr, hq, hvalues⟩ := hcalls
      have hhead := header_eq (offset_inj haddr) hq
      rw [← hq] at hvalues
      simp only [SrvHandlerKind.passes] at hp hp'
      intro i hi
      simp only [SrvHandlerKind.span] at hi
      rcases Nat.lt_or_ge i 4 with h4 | h4
      · exact hhead i h4
      rcases Nat.lt_or_ge i 5 with h5 | h5
      · have hi4 : i = 4 := by omega
        subst hi4
        exact BitVec.eq_of_toNat_eq (by omega)
      · obtain ⟨j, rfl⟩ := Nat.exists_eq_add_of_le h5
        exact Mem.eq_of_slice_eq hvalues (by omega)
    · have hcode' : (SrvHandlerKind.writeCoils.recorded function dataSize d').1
          = mbeIllegalDataValue :=
        congrArg Prod.fst (writeCoils_refused hp' recorder 0 roomyPdu () [])
      rw [(recorded_writeCoils hp).1, hcode'] at hcode
      exact absurd hcode (by decide)

end Bits

end Emodbus
