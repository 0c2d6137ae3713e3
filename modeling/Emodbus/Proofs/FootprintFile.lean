import Emodbus.Proofs.FootprintRegs

/-!
# What the handlers for files and FIFOs read, and the theorem about all handlers
-/

namespace Emodbus

open Octets

variable {σ : Type} {function dataSize : Byte} {d d' : Mem Byte}

theorem readFifo_footprint : Footprint .readFifo where
  within := by
    intro function dataSize d d' hd _ _ hspan σ srv maxSize tx s calls
    simp only [SrvHandlerKind.span] at hspan
    simp only [SrvHandlerKind.handler, embSrvReadFifo]
    rw [agree_big16 hd (show 0 + 2 ≤ _ by omega)]
    cases srv.readFifo with
    | none => rfl
    | some readFifo => dsimp only; split_ifs <;> rfl
  refused := fun _ _ hp => absurd trivial hp
  told := by
    intro function dataSize d d' hd halike _
    obtain ⟨-, -, hcalls⟩ := halike.recorded
    have hcalls' : ∀ e : Mem Byte,
        (SrvHandlerKind.readFifo.recorded function dataSize e).2.calls
          = [.readFifo (getBigEnd16 e 0) 4] := fun _ => rfl
    rw [hcalls' d, hcalls' d'] at hcalls
    simp only [List.cons.injEq, StoreCall.readFifo.injEq, and_true] at hcalls
    obtain ⟨b0, b1⟩ := bytes_of_big16 hcalls
    refine ⟨trivial, six_iff_of_eq (fun i hi => ?_) _⟩
    simp only [SrvHandlerKind.span] at hi
    interval_cases i
    · exact b0
    · exact b1

/-! ## emb_srv_read_file -/

section ReadFile

variable (srv : EmbServer σ)

/-- A sub-request reads nothing of the request but itself. -/
theorem readFileSub_rx (pos txPos : ℕ) (counter : Byte) (r : SrvRun σ) (p : EmbPdu)
    (href : r.rxPdu.data pos = p.data pos)
    (hfields : r.rxPdu.data pos = embFileRefType →
      ∀ i, pos < i → i < pos + 7 → r.rxPdu.data i = p.data i) :
    readFileSub srv pos txPos counter { r with rxPdu := p }
      = ((readFileSub srv pos txPos counter r).1,
        { (readFileSub srv pos txPos counter r).2 with rxPdu := p }) := by
  by_cases h6 : r.rxPdu.data pos = embFileRefType
  · have hword : ∀ off, pos < off → off + 1 < pos + 7 →
        getBigEnd16 p.data off = getBigEnd16 r.rxPdu.data off := by
      intro off h1 h2
      rw [getBigEnd16_eq, getBigEnd16_eq]
      exact Mem.beWord_congr (hfields h6 off h1 (by omega)).symm
        (hfields h6 (off + 1) (by omega) h2).symm
    unfold readFileSub
    dsimp only
    rw [← href, hword (pos + 1) (by omega) (by omega), hword (pos + 3) (by omega) (by omega),
      hword (pos + 5) (by omega) (by omega)]
    cases srv.getFile with
    | none => rfl
    | some getFile =>
      dsimp only
      cases getFile (getBigEnd16 r.rxPdu.data (pos + 1)) r.store with
      | none => rfl
      | some file =>
        obtain ⟨fileno, readFile, writeFile⟩ := file
        cases readFile with
        | none => dsimp only; split_ifs <;> rfl
        | some readFile => dsimp only; split_ifs <;> rfl
  · unfold readFileSub
    dsimp only
    rw [← href]
    cases srv.getFile with
    | none => rfl
    | some getFile =>
      dsimp only
      cases getFile (getBigEnd16 r.rxPdu.data (pos + 1)) r.store with
      | none =>
        cases getFile (getBigEnd16 p.data (pos + 1)) r.store with
        | none => rfl
        | some file => dsimp only; rw [if_pos h6]
      | some file =>
        dsimp only
        rw [if_pos h6]
        cases getFile (getBigEnd16 p.data (pos + 1)) r.store with
        | none => rfl
        | some file => dsimp only; rw [if_pos h6]

theorem readFileSub_rxPdu (pos txPos : ℕ) (counter : Byte) (r : SrvRun σ) :
    (readFileSub srv pos txPos counter r).2.rxPdu = r.rxPdu := by
  unfold readFileSub
  dsimp only
  cases srv.getFile with
  | none => rfl
  | some getFile =>
    dsimp only
    cases getFile (getBigEnd16 r.rxPdu.data (pos + 1)) r.store with
    | none => rfl
    | some file =>
      obtain ⟨fileno, readFile, writeFile⟩ := file
      cases readFile with
      | none => dsimp only; split_ifs <;> rfl
      | some readFile => dsimp only; split_ifs <;> rfl

/-- A sub-request of any other reference type ends the loop, and nothing has been called for it. -/
theorem readFileSub_other (pos txPos : ℕ) (counter : Byte) (r : SrvRun σ)
    (h6 : r.rxPdu.data pos ≠ embFileRefType) :
    ∃ code, code ≠ mbeIllegalDataValue
      ∧ readFileSub srv pos txPos counter r = (.error code, r) := by
  unfold readFileSub
  dsimp only
  cases srv.getFile with
  | none => exact ⟨mbeSlaveFailure, by decide, rfl⟩
  | some getFile =>
    dsimp only
    cases getFile (getBigEnd16 r.rxPdu.data (pos + 1)) r.store with
    | none => exact ⟨mbeIllegalDataAddr, by decide, rfl⟩
    | some file =>
      dsimp only
      rw [if_pos h6]
      exact ⟨mbeIllegalDataAddr, by decide, rfl⟩

theorem le_readFileSpan (d : Mem Byte) : ∀ turns pos, pos ≤ readFileSpan d turns pos
  | 0, _ => le_rfl
  | turns + 1, pos => by
    unfold readFileSpan
    split_ifs
    · exact (Nat.le_add_right pos 7).trans (le_readFileSpan d turns (pos + 7))
    · exact Nat.le_succ pos

theorem readFileLoop_rx (turns pos txPos : ℕ) (counter : Byte) (r : SrvRun σ) (p : EmbPdu)
    (h : ∀ i, pos ≤ i → i < readFileSpan r.rxPdu.data turns pos → r.rxPdu.data i = p.data i) :
    readFileLoop srv turns pos txPos counter { r with rxPdu := p }
      = ((readFileLoop srv turns pos txPos counter r).1,
        { (readFileLoop srv turns pos txPos counter r).2 with rxPdu := p }) := by
  induction turns generalizing pos txPos counter r with
  | zero => rfl
  | succ turns ih =>
    have hle := le_readFileSpan r.rxPdu.data turns (pos + 7)
    unfold readFileSpan at h
    have hsub := readFileSub_rx srv pos txPos counter r p
      (h pos le_rfl (by split_ifs <;> omega))
      (fun h6 i h1 h2 => h i (by omega) (by rw [if_pos h6]; omega))
    have hrx := readFileSub_rxPdu srv pos txPos counter r
    unfold readFileLoop
    rw [hsub]
    rcases hres : readFileSub srv pos txPos counter r with ⟨res | ⟨txPos', counter'⟩, r'⟩
    · rfl
    · have h6 : r.rxPdu.data pos = embFileRefType := by
        by_contra h6
        obtain ⟨code, -, hcode⟩ := readFileSub_other srv pos txPos counter r h6
        rw [hcode] at hres
        simp at hres
      rw [if_pos h6] at h
      rw [hres] at hrx
      change r'.rxPdu = r.rxPdu at hrx
      rw [← hrx] at h
      exact ih (pos + 7) txPos' counter' r' fun i h1 h2 => h i (by omega) h2

end ReadFile

section ReadFileTold

/-- What the recorder is called for by the loop. -/
def readFileCalls (d : Mem Byte) : ℕ → ℕ → ℕ → List StoreCall
  | 0, _, _ => []
  | turns + 1, pos, txPos =>
    if d pos = embFileRefType then
      .readFile (getBigEnd16 d (pos + 1)) (getBigEnd16 d (pos + 3)) (getBigEnd16 d (pos + 5))
          (txPos + 2)
        :: readFileCalls d turns (pos + 7)
          (txPos + 2 + 2 * (getBigEnd16 d (pos + 5)).toNat)
    else []

/-- Loops that call for the same read the same reference types. -/
theorem six_of_readFileCalls (turns pos txPos : ℕ)
    (h : readFileCalls d turns pos txPos = readFileCalls d' turns pos txPos) (i : ℕ) (hi : pos ≤ i)
    (hlt : i < readFileSpan d turns pos) : d i = 6 ↔ d' i = 6 := by
  induction turns generalizing pos txPos with
  | zero => exact absurd hlt (Nat.not_lt.2 hi)
  | succ turns ih =>
    unfold readFileCalls at h
    unfold readFileSpan at hlt
    by_cases h6 : d pos = embFileRefType
    · by_cases h6' : d' pos = embFileRefType
      · rw [if_pos h6, if_pos h6', List.cons.injEq, StoreCall.readFile.injEq] at h
        obtain ⟨⟨hfile, haddr, hcount, -⟩, hrest⟩ := h
        rw [if_pos h6] at hlt
        obtain ⟨b1, b2⟩ := bytes_of_big16 hfile
        obtain ⟨b3, b4⟩ := bytes_of_big16 haddr
        obtain ⟨b5, b6⟩ := bytes_of_big16 hcount
        rcases Nat.lt_or_ge i (pos + 7) with h7 | h7
        · obtain ⟨j, rfl⟩ := Nat.exists_eq_add_of_le hi
          have hj : j < 7 := by omega
          interval_cases j
          · exact ⟨fun _ => h6', fun _ => h6⟩
          · rw [b1]
          · rw [b2]
          · rw [b3]
          · rw [b4]
          · rw [b5]
          · rw [b6]
        · rw [hcount] at hrest
          exact ih (pos + 7) _ hrest h7 hlt
      · rw [if_pos h6, if_neg h6'] at h
        exact absurd h (by simp)
    · rw [if_neg h6] at h hlt
      have hpos : i = pos := by omega
      subst hpos
      by_cases h6' : d' i = embFileRefType
      · rw [if_pos h6'] at h
        exact absurd h (by simp)
      · exact ⟨fun h => absurd h h6, fun h => absurd h h6'⟩

theorem recorder_readFileSub (pos txPos : ℕ) (counter : Byte) (r : SrvRun Unit)
    (h6 : r.rxPdu.data pos = embFileRefType) (hroom : r.txPdu.maxSize = 255) :
    ∃ counter' tx, tx.maxSize = 255 ∧ readFileSub recorder pos txPos counter r
      = (.ok (txPos + 2 + 2 * (getBigEnd16 r.rxPdu.data (pos + 5)).toNat, counter'),
        { r with
          txPdu := tx
          calls := r.calls ++ [.readFile (getBigEnd16 r.rxPdu.data (pos + 1))
            (getBigEnd16 r.rxPdu.data (pos + 3)) (getBigEnd16 r.rxPdu.data (pos + 5))
            (txPos + 2)] }) := by
  have hfit : ∀ b : Byte, ¬ r.txPdu.maxSize.toNat < b.toNat := by
    intro b
    rw [hroom]
    exact roomyPdu_room b
  unfold readFileSub
  dsimp only [recorder]
  rw [if_neg (not_not.2 h6), if_neg (hfit _), if_neg (not_not.2 rfl)]
  refine ⟨_, _, ?_, rfl⟩
  exact hroom

theorem recorder_readFileLoop (turns pos txPos : ℕ) (counter : Byte) (r : SrvRun Unit)
    (hroom : r.txPdu.maxSize = 255) :
    (readFileLoop recorder turns pos txPos counter r).2.calls
        = r.calls ++ readFileCalls r.rxPdu.data turns pos txPos
      ∧ (readFileLoop recorder turns pos txPos counter r).1 ≠ .error mbeIllegalDataValue := by
  induction turns generalizing pos txPos counter r with
  | zero => exact ⟨(List.append_nil _).symm, by simp [readFileLoop]⟩
  | succ turns ih =>
    unfold readFileLoop readFileCalls
    by_cases h6 : r.rxPdu.data pos = embFileRefType
    · obtain ⟨counter', tx, htx, hsub⟩ := recorder_readFileSub pos txPos counter r h6 hroom
      rw [hsub, if_pos h6]
      dsimp only
      obtain ⟨hcalls, hcode⟩ := ih (pos + 7) _ counter' { r with
        txPdu := tx
        calls := r.calls ++ [.readFile (getBigEnd16 r.rxPdu.data (pos + 1))
          (getBigEnd16 r.rxPdu.data (pos + 3)) (getBigEnd16 r.rxPdu.data (pos + 5))
          (txPos + 2)] } htx
      exact ⟨by rw [hcalls, List.append_assoc]; rfl, hcode⟩
    · obtain ⟨code, hne, hsub⟩ := readFileSub_other recorder pos txPos counter r h6
      rw [hsub, if_neg h6]
      exact ⟨(List.append_nil _).symm, fun h => hne (Except.error.inj h)⟩

theorem readFile_refused (hp : ¬ SrvHandlerKind.readFile.passes function dataSize d)
    (srv : EmbServer σ) (maxSize : Byte) (tx : EmbPdu) (s : σ) (calls : List StoreCall) :
    embSrvReadFile srv (request function dataSize maxSize d tx s calls)
      = (mbeIllegalDataValue, request function dataSize maxSize d tx s calls) := by
  simp only [SrvHandlerKind.passes] at hp
  simp only [embSrvReadFile]
  rw [if_pos (by omega)]

theorem recorded_readFile (hp : SrvHandlerKind.readFile.passes function dataSize d) :
    (SrvHandlerKind.readFile.recorded function dataSize d).1 ≠ mbeIllegalDataValue
      ∧ (SrvHandlerKind.readFile.recorded function dataSize d).2.calls
        = readFileCalls d (((d 0).toNat + 6) / 7) 1 1 := by
  simp only [SrvHandlerKind.passes] at hp
  obtain ⟨hcalls, hcode⟩ := recorder_readFileLoop (((d 0).toNat + 6) / 7) 1 1 0
    (request function dataSize 0 d roomyPdu () []) rfl
  simp only [SrvHandlerKind.recorded, SrvHandlerKind.handler, embSrvReadFile]
  rw [if_neg (by omega)]
  rcases hres : readFileLoop recorder (((d 0).toNat + 6) / 7) 1 1 0
    (request function dataSize 0 d roomyPdu () []) with ⟨code | counter, r⟩
  · rw [hres] at hcalls hcode
    exact ⟨fun h => hcode (congrArg Except.error h), hcalls⟩
  · rw [hres] at hcalls
    exact ⟨fun h => absurd (show (0 : Byte) = mbeIllegalDataValue from h) (by decide), hcalls⟩

theorem readFile_footprint : Footprint .readFile where
  within := by
    intro function dataSize d d' hd hp hp' hspan σ srv maxSize tx s calls
    simp only [SrvHandlerKind.span] at hspan
    have h0 : d 0 = d' 0 := hd 0 (by
      have hle := le_readFileSpan d (((d 0).toNat + 6) / 7) 1
      omega)
    simp only [SrvHandlerKind.passes] at hp
    simp only [SrvHandlerKind.handler, embSrvReadFile]
    have hloop : readFileLoop srv (((d 0).toNat + 6) / 7) 1 1 0
        (request function dataSize maxSize d' tx s calls) = _ :=
      readFileLoop_rx srv (((d 0).toNat + 6) / 7) 1 1 0
        (request function dataSize maxSize d tx s calls) ⟨function, dataSize, maxSize, d'⟩
        fun i _ hi => hd i (hi.trans_le hspan)
    rw [← h0, if_neg (by omega), if_neg (by omega), hloop]
    rcases readFileLoop srv (((d 0).toNat + 6) / 7) 1 1 0
      (request function dataSize maxSize d tx s calls) with ⟨code | counter, r⟩ <;> rfl
  refused := by
    intro function dataSize d d' hd _ hp hp' σ srv maxSize tx s calls
    simp only [SrvHandlerKind.handler]
    rw [readFile_refused hp, readFile_refused hp']
    rfl
  told := by
    intro function dataSize d d' hd halike hp
    obtain ⟨hcode, -, hcalls⟩ := halike.recorded
    by_cases hp' : SrvHandlerKind.readFile.passes function dataSize d'
    · refine ⟨hp', fun hlt => ?_⟩
      rw [(recorded_readFile hp).2, (recorded_readFile hp').2] at hcalls
      simp only [SrvHandlerKind.passes] at hp hp'
      rcases Nat.eq_zero_or_pos dataSize.toNat with h0 | h0
      · -- the count itself is behind the request, and it is not 6
        rw [h0]
        have hsix : (6 : Byte).toNat = 6 := rfl
        exact ⟨fun h => by rw [h] at hp; omega, fun h => by rw [h] at hp'; omega⟩
      · rw [← hd 0 h0] at hcalls
        exact six_of_readFileCalls _ 1 1 hcalls _ h0 hlt
    · have hcode' : (SrvHandlerKind.readFile.recorded function dataSize d').1
          = mbeIllegalDataValue :=
        congrArg Prod.fst (readFile_refused hp' recorder 0 roomyPdu () [])
      rw [hcode'] at hcode
      exact absurd hcode (recorded_readFile hp).1

end ReadFileTold

/-! ## emb_srv_write_file -/

section WriteFile

variable (srv : EmbServer σ)

theorem writeFileSpan_congr (stop fuel pos : ℕ) (h : ∀ i, pos ≤ i → d i = d' i) :
    writeFileSpan d stop fuel pos = writeFileSpan d' stop fuel pos := by
  induction fuel generalizing pos with
  | zero => rfl
  | succ fuel ih =>
    have hcount : getBigEnd16 d (pos + 5) = getBigEnd16 d' (pos + 5) := by
      rw [getBigEnd16_eq, getBigEnd16_eq]
      exact Mem.beWord_congr (h _ (by omega)) (h _ (by omega))
    unfold writeFileSpan
    dsimp only
    rw [h pos le_rfl, hcount, ih _ fun i hi => h i (by omega)]

/-- What a turn of the loop leaves when it goes on. -/
theorem writeFileSub_ok {stop pos pos' : ℕ} {r r' : SrvRun σ}
    (h : writeFileSub srv stop pos r = (.ok pos', r')) :
    r.rxPdu.data pos = embFileRefType
      ∧ pos' = pos + 7 + (getBigEnd16 r.rxPdu.data (pos + 5)).toNat * 2 ∧ pos' ≤ stop
      ∧ ∀ i, pos' ≤ i → r'.rxPdu.data i = r.rxPdu.data i := by
  unfold writeFileSub at h
  dsimp only at h
  by_cases h6 : r.rxPdu.data pos ≠ embFileRefType
  · rw [if_pos h6] at h
    simp at h
  rw [if_neg h6] at h
  cases hget : srv.getFile with
  | none => simp [hget] at h
  | some getFile =>
    rw [hget] at h
    dsimp only at h
    cases hfile : getFile (getBigEnd16 r.rxPdu.data (pos + 1)) r.store with
    | none => simp [hfile] at h
    | some file =>
      obtain ⟨fileno, readFile, writeFile⟩ := file
      cases writeFile with
      | none => simp [hfile] at h
      | some writeFile =>
        rw [hfile] at h
        dsimp only at h
        split_ifs at h with hover hcode
        · simp at h
        · simp at h
        · simp only [Prod.mk.injEq, Except.ok.injEq] at h
          obtain ⟨rfl, rfl⟩ := h
          refine ⟨not_not.1 h6, rfl, by omega, fun i hi => ?_⟩
          exact Mem.swapWords_of_ge _ (by omega)

/-- Two requests a turn of the loop treats alike. -/
structure SubAlike (stop pos : ℕ) (d d' : Mem Byte) : Prop where
  refType : d pos = d' pos
  fileno : getBigEnd16 d (pos + 1) = getBigEnd16 d' (pos + 1)
  fits : stop < pos + 7 + (getBigEnd16 d (pos + 5)).toNat * 2
      ∧ stop < pos + 7 + (getBigEnd16 d' (pos + 5)).toNat * 2
    ∨ getBigEnd16 d (pos + 3) = getBigEnd16 d' (pos + 3)
      ∧ getBigEnd16 d (pos + 5) = getBigEnd16 d' (pos + 5)
      ∧ Mem.beWords d (pos + 7) (getBigEnd16 d (pos + 5)).toNat
        = Mem.beWords d' (pos + 7) (getBigEnd16 d (pos + 5)).toNat

theorem writeFileSub_rx {stop pos : ℕ} (r : SrvRun σ) (p : EmbPdu)
    (h : SubAlike stop pos r.rxPdu.data p.data) :
    ∃ q, writeFileSub srv stop pos { r with rxPdu := p }
      = ((writeFileSub srv stop pos r).1,
        { (writeFileSub srv stop pos r).2 with rxPdu := q }) := by
  unfold writeFileSub
  dsimp only
  rw [← h.refType, ← h.fileno]
  by_cases h6 : r.rxPdu.data pos ≠ embFileRefType
  · rw [if_pos h6, if_pos h6]
    exact ⟨p, rfl⟩
  rw [if_neg h6, if_neg h6]
  cases srv.getFile with
  | none => exact ⟨p, rfl⟩
  | some getFile =>
    dsimp only
    cases getFile (getBigEnd16 r.rxPdu.data (pos + 1)) r.store with
    | none => exact ⟨p, rfl⟩
    | some file =>
      obtain ⟨fileno, readFile, writeFile⟩ := file
      cases writeFile with
      | none => exact ⟨p, rfl⟩
      | some writeFile =>
        dsimp only
        rcases h.fits with ⟨hover, hover'⟩ | ⟨haddr, hcount, hvalues⟩
        · rw [if_pos hover, if_pos hover']
          exact ⟨p, rfl⟩
        · simp only [Mem.leWords_swapWords]
          rw [← haddr, ← hcount, ← hvalues]
          split_ifs
          · exact ⟨_, rfl⟩
          · exact ⟨_, rfl⟩
          · exact ⟨_, rfl⟩

theorem subAlike_of_span {stop pos fuel : ℕ} (hpos : pos < stop)
    (hbytes : ∀ i, pos ≤ i → i < stop → d i = d' i) (h6 : d pos = embFileRefType)
    (hspan : writeFileSpan d stop (fuel + 1) pos ≤ stop) : SubAlike stop pos d d' := by
  have hword : ∀ off, pos ≤ off → off + 1 < stop → getBigEnd16 d off = getBigEnd16 d' off := by
    intro off h1 h2
    rw [getBigEnd16_eq, getBigEnd16_eq]
    exact Mem.beWord_congr (hbytes off h1 (by omega)) (hbytes (off + 1) (by omega) h2)
  unfold writeFileSpan at hspan
  dsimp only at hspan
  rw [if_pos hpos, if_pos h6] at hspan
  split_ifs at hspan with hover
  · refine ⟨hbytes pos le_rfl hpos, hword (pos + 1) (by omega) (by omega), .inl ⟨hover, ?_⟩⟩
    rcases Nat.lt_or_ge stop (pos + 7) with h7 | h7
    · omega
    · rw [← hword (pos + 5) (by omega) (by omega)]
      exact hover
  · refine ⟨hbytes pos le_rfl hpos, hword (pos + 1) (by omega) (by omega),
      .inr ⟨hword (pos + 3) (by omega) (by omega), hword (pos + 5) (by omega) (by omega), ?_⟩⟩
    refine List.map_congr_left fun i hi => ?_
    have hlt := List.mem_range.1 hi
    exact Mem.beWord_congr (hbytes _ (by omega) (by omega)) (hbytes _ (by omega) (by omega))

/-- The loop looks the same whatever lies behind what it reads. -/
theorem writeFileLoop_seen (stop fuel pos : ℕ) (r : SrvRun σ) (p : EmbPdu)
    (hbytes : ∀ i, pos ≤ i → i < stop → r.rxPdu.data i = p.data i)
    (hspan : writeFileSpan r.rxPdu.data stop fuel pos ≤ stop) :
    SrvRun.seen (writeFileLoop srv stop fuel pos r)
      = SrvRun.seen (writeFileLoop srv stop fuel pos { r with rxPdu := p }) := by
  induction fuel generalizing pos r p with
  | zero => rfl
  | succ fuel ih =>
    unfold writeFileLoop
    split_ifs with hpos
    · by_cases h6 : r.rxPdu.data pos = embFileRefType
      · have halike := subAlike_of_span hpos hbytes h6 hspan
        obtain ⟨q, hsub⟩ := writeFileSub_rx srv r p halike
        rw [hsub]
        rcases hres : writeFileSub srv stop pos r with ⟨code | pos', r'⟩
        · rfl
        · obtain ⟨-, hpos', hle, hrest⟩ := writeFileSub_ok srv hres
          rw [hres] at hsub
          obtain ⟨-, -, -, hrest'⟩ := writeFileSub_ok srv hsub
          unfold writeFileSpan at hspan
          dsimp only at hspan
          rw [if_pos hpos, if_pos h6, ← hpos', if_neg (by omega),
            ← writeFileSpan_congr stop fuel pos' hrest] at hspan
          refine ih pos' r' q (fun i h1 h2 => ?_) hspan
          exact (hrest i h1).trans ((hbytes i (by omega) h2).trans (hrest' i h1).symm)
      · have hother : ∀ r : SrvRun σ, r.rxPdu.data pos ≠ embFileRefType →
            writeFileSub srv stop pos r = (.error mbeIllegalDataAddr, r) := by
          intro r hr
          unfold writeFileSub
          dsimp only
          rw [if_pos hr]
        rw [hother r h6, hother { r with rxPdu := p } (hbytes pos le_rfl hpos ▸ h6)]
        rfl
    · rfl

omit srv in
theorem writeFile_refused (hp : ¬ SrvHandlerKind.writeFile.passes function dataSize d)
    (srv : EmbServer σ) (maxSize : Byte) (tx : EmbPdu) (s : σ) (calls : List StoreCall) :
    embSrvWriteFile srv (request function dataSize maxSize d tx s calls)
      = (mbeIllegalDataValue, request function dataSize maxSize d tx s calls) := by
  simp only [SrvHandlerKind.passes] at hp
  simp only [embSrvWriteFile]
  rw [if_pos (by omega)]

end WriteFile

section WriteFileTold

/-- A server whose file number `F` is gone after as many writes as the store says. -/
def countdown (F : Word) : EmbServer ℕ where
  getCoils := none
  getDiscreteInputs := none
  getHoldingRegs := none
  getInputRegs := none
  getFile := some fun fileno n =>
    if n = 0 ∧ fileno = F then none
    else some ⟨fileno, none, some fun _ _ _ n => (0, n - 1)⟩
  readFifo := none

theorem countdown_gone {stop pos : ℕ} {F : Word} {r : SrvRun ℕ}
    (h6 : r.rxPdu.data pos = embFileRefType) (hstore : r.store = 0)
    (hF : getBigEnd16 r.rxPdu.data (pos + 1) = F) :
    writeFileSub (countdown F) stop pos r = (.error mbeIllegalDataAddr, r) := by
  unfold writeFileSub
  dsimp only [countdown]
  rw [if_neg (not_not.2 h6), if_pos ⟨hstore, hF⟩]

theorem countdown_over {stop pos : ℕ} {F : Word} {r : SrvRun ℕ}
    (h6 : r.rxPdu.data pos = embFileRefType) (hF : getBigEnd16 r.rxPdu.data (pos + 1) ≠ F)
    (hover : stop < pos + 7) :
    writeFileSub (countdown F) stop pos r = (.error mbeIllegalDataValue, r) := by
  unfold writeFileSub
  dsimp only [countdown]
  rw [if_neg (not_not.2 h6), if_neg fun h => hF h.2]
  dsimp only
  rw [if_pos (by omega)]

theorem countdown_next (stop : ℕ) {pos n : ℕ} {F : Word} {r : SrvRun ℕ}
    (h6 : r.rxPdu.data pos = embFileRefType) (hstore : r.store = n + 1)
    (hfits : pos + 7 + (getBigEnd16 r.rxPdu.data (pos + 5)).toNat * 2 ≤ stop) :
    ∃ r', writeFileSub (countdown F) stop pos r
        = (.ok (pos + 7 + (getBigEnd16 r.rxPdu.data (pos + 5)).toNat * 2), r')
      ∧ r'.store = n := by
  unfold writeFileSub
  dsimp only [countdown]
  rw [if_neg (not_not.2 h6), if_neg (by omega)]
  dsimp only
  rw [if_neg (by omega), if_neg (not_not.2 rfl)]
  refine ⟨_, rfl, ?_⟩
  change r.store - 1 = n
  omega

theorem big16_congr {pos off : ℕ} (h : ∀ i, pos ≤ i → d i = d' i) (hoff : pos ≤ off) :
    getBigEnd16 d off = getBigEnd16 d' off := by
  rw [getBigEnd16_eq, getBigEnd16_eq]
  exact Mem.beWord_congr (h _ hoff) (h _ (by omega))

/-- Where the loop reads a file number behind the request, some server shows the byte there. -/
theorem writeFileLoop_told (stop fuel pos : ℕ) (hpos : pos ≤ stop)
    (hbytes : ∀ i, pos ≤ i → i < stop → d i = d' i)
    (hspan : stop < writeFileSpan d stop fuel pos) (hdiff : d stop ≠ d' stop) :
    ∃ F n, ∀ r r' : SrvRun ℕ, r.store = n → r'.store = n →
      (∀ i, pos ≤ i → r.rxPdu.data i = d i) → (∀ i, pos ≤ i → r'.rxPdu.data i = d' i) →
      (writeFileLoop (countdown F) stop fuel pos r).1
        ≠ (writeFileLoop (countdown F) stop fuel pos r').1 := by
  induction fuel generalizing pos with
  | zero => exact absurd hspan (Nat.not_lt.2 hpos)
  | succ fuel ih =>
    unfold writeFileSpan at hspan
    dsimp only at hspan
    split_ifs at hspan with hlt h6 hover
    · -- the file number is cut off: one request finds the file gone, the other one does not
      refine ⟨getBigEnd16 d (pos + 1), 0, fun r r' hs hs' hr hr' => ?_⟩
      have h6' : r'.rxPdu.data pos = embFileRefType := by
        rw [hr' pos le_rfl, ← hbytes pos le_rfl hlt, h6]
      have hF : getBigEnd16 r'.rxPdu.data (pos + 1) ≠ getBigEnd16 d (pos + 1) := by
        rw [big16_congr hr' (by omega)]
        intro heq
        obtain ⟨b1, b2⟩ := bytes_of_big16 heq
        obtain rfl | rfl : stop = pos + 1 ∨ stop = pos + 2 := by omega
        · exact hdiff b1.symm
        · exact hdiff b2.symm
      unfold writeFileLoop
      rw [if_pos hlt, if_pos hlt,
        countdown_gone ((hr pos le_rfl).trans h6) hs (big16_congr hr (by omega)),
        countdown_over h6' hF (by omega)]
      exact (by decide : mbeIllegalDataAddr ≠ mbeIllegalDataValue)
    · have hcount : getBigEnd16 d (pos + 5) = getBigEnd16 d' (pos + 5) := by
        rw [getBigEnd16_eq, getBigEnd16_eq]
        exact Mem.beWord_congr (hbytes _ (by omega) (by omega)) (hbytes _ (by omega) (by omega))
      obtain ⟨F, n, hrest⟩ := ih (pos + 7 + (getBigEnd16 d (pos + 5)).toNat * 2) (by omega)
        (fun i h1 h2 => hbytes i (by omega) h2) hspan
      refine ⟨F, n + 1, fun r r' hs hs' hr hr' => ?_⟩
      have hc : getBigEnd16 r.rxPdu.data (pos + 5) = getBigEnd16 d (pos + 5) :=
        big16_congr hr (by omega)
      have hc' : getBigEnd16 r'.rxPdu.data (pos + 5) = getBigEnd16 d (pos + 5) := by
        rw [big16_congr hr' (by omega), hcount]
      have h6' : r'.rxPdu.data pos = embFileRefType := by
        rw [hr' pos le_rfl, ← hbytes pos le_rfl hlt, h6]
      obtain ⟨q, hq, hqs⟩ := countdown_next stop (F := F) ((hr pos le_rfl).trans h6) hs
        (by rw [hc]; omega)
      obtain ⟨q', hq', hqs'⟩ := countdown_next stop (F := F) h6' hs' (by rw [hc']; omega)
      obtain ⟨-, -, -, hkeep⟩ := writeFileSub_ok _ hq
      obtain ⟨-, -, -, hkeep'⟩ := writeFileSub_ok _ hq'
      rw [hc] at hq hkeep
      rw [hc'] at hq' hkeep'
      unfold writeFileLoop
      rw [if_pos hlt, if_pos hlt, hq, hq']
      exact hrest q q' hqs hqs' (fun i hi => (hkeep i hi).trans (hr i (by omega)))
        fun i hi => (hkeep' i hi).trans (hr' i (by omega))
    · omega
    · omega

theorem writeFile_check {b : Byte} (h : 0x09 < b.toNat ∧ b.toNat < 0xFB) :
    ¬ (b.toNat ≤ 0x09 ∨ b.toNat ≥ 0xFB) := by omega

theorem writeFile_footprint : Footprint .writeFile where
  within := by
    intro function dataSize d d' hd hp hp' hspan σ srv maxSize tx s calls
    simp only [SrvHandlerKind.span] at hspan
    simp only [SrvHandlerKind.passes] at hp hp'
    have hcopy : Mem.copy tx.data d' dataSize.toNat = Mem.copy tx.data d dataSize.toNat := by
      funext i
      unfold Mem.copy
      split_ifs with hi
      · exact (hd i hi).symm
      · rfl
    simp only [SrvHandlerKind.handler, embSrvWriteFile]
    rw [if_neg (writeFile_check hp), if_neg (writeFile_check hp'), hcopy]
    split_ifs
    · rfl
    · exact writeFileLoop_seen srv _ _ 1
        ⟨⟨function, dataSize, maxSize, d⟩, _, s, calls⟩ ⟨function, dataSize, maxSize, d'⟩
        (fun i _ hi => hd i hi) hspan
  refused := by
    intro function dataSize d d' hd _ hp hp' σ srv maxSize tx s calls
    simp only [SrvHandlerKind.handler]
    rw [writeFile_refused hp, writeFile_refused hp']
    rfl
  told := by
    intro function dataSize d d' hd halike hp
    simp only [SrvHandlerKind.span]
    rcases Nat.eq_zero_or_pos dataSize.toNat with h0 | h0
    · have hp' : SrvHandlerKind.writeFile.passes function dataSize d' := by
        by_contra hp'
        obtain ⟨hcode, -⟩ := halike.recorded
        have hcode' : (SrvHandlerKind.writeFile.recorded function dataSize d').1
            = mbeIllegalDataValue :=
          congrArg Prod.fst (writeFile_refused hp' recorder 0 roomyPdu () [])
        have hzero : (SrvHandlerKind.writeFile.recorded function dataSize d).1 = 0 := by
          simp only [SrvHandlerKind.passes] at hp
          simp only [SrvHandlerKind.recorded, SrvHandlerKind.handler, embSrvWriteFile]
          rw [if_neg (writeFile_check hp), h0, if_neg (Nat.not_lt_zero _)]
          rfl
        rw [hzero, hcode'] at hcode
        exact absurd hcode (by decide)
      refine ⟨hp', fun _ => ?_⟩
      -- the count itself is behind the request, and it is not 6
      simp only [SrvHandlerKind.passes] at hp hp'
      have hsix : (6 : Byte).toNat = 6 := rfl
      rw [h0]
      exact ⟨fun h => by rw [h] at hp; omega, fun h => by rw [h] at hp'; omega⟩
    · have hp' : SrvHandlerKind.writeFile.passes function dataSize d' := by
        simp only [SrvHandlerKind.passes] at hp ⊢
        rwa [← hd 0 h0]
      refine ⟨hp', fun hlt => ?_⟩
      by_contra hne
      have hdiff : d dataSize.toNat ≠ d' dataSize.toNat := fun heq => hne (by rw [heq])
      obtain ⟨F, n, htold⟩ := writeFileLoop_told dataSize.toNat dataSize.toNat 1 h0
        (fun i _ hi => hd i hi) hlt hdiff
      obtain ⟨hcode, -⟩ := halike ℕ (countdown F) 0 roomyPdu n []
      simp only [SrvHandlerKind.passes] at hp hp'
      simp only [SrvHandlerKind.handler, embSrvWriteFile] at hcode
      have hroom := roomyPdu_room dataSize
      rw [if_neg (writeFile_check hp), if_neg (writeFile_check hp'), if_neg hroom, if_neg hroom]
        at hcode
      exact htold _ _ rfl rfl (fun _ _ => rfl) (fun _ _ => rfl) hcode

end WriteFileTold

/-! ## All handlers -/

theorem footprint (k : SrvHandlerKind) : Footprint k := by
  cases k with
  | readBits => exact readBits_footprint
  | writeCoil => exact writeCoil_footprint
  | writeCoils => exact writeCoils_footprint
  | readRegs => exact readRegs_footprint
  | writeReg => exact writeReg_footprint
  | writeRegs => exact writeRegs_footprint
  | maskReg => exact maskReg_footprint
  | readWriteRegs => exact readWriteRegs_footprint
  | readFile => exact readFile_footprint
  | writeFile => exact writeFile_footprint
  | readFifo => exact readFifo_footprint

/-- A handler's reaction to a request depends on the request only, exactly when no bytes behind the
request decide whether it passes the handler's checks, and if it passes, the handler reads nothing
behind it. -/
theorem reaction_of_request_iff (k : SrvHandlerKind) (function dataSize : Byte) (d : Mem Byte) :
    (∀ d₁ d₂, Mem.Agree dataSize.toNat d d₁ → Mem.Agree dataSize.toNat d d₂ →
      k.Alike function dataSize d₁ d₂) ↔ k.Enclosed function dataSize d :=
  (footprint k).alike_iff

/-- A write of a register whose value is missing writes what an earlier request left there. -/
theorem short_write_reg_reads_stale :
    ¬ ∀ (k : SrvHandlerKind) (function dataSize : Byte) (d d' : Mem Byte),
      Mem.Agree dataSize.toNat d d' → k.Alike function dataSize d d' := by
  intro h
  let stale : Mem Byte := Mem.blit (fun _ => 0) 2 [0xAB, 0xCD]
  have hagree : Mem.Agree (2 : Byte).toNat (fun _ => 0) stale := by
    intro i hi
    exact (Mem.blit_of_lt (fun _ => 0) _ hi).symm
  obtain ⟨-, -, -, hcalls⟩ :=
    h .writeReg 6 2 (fun _ => 0) stale hagree Unit recorder 253 roomyPdu () []
  have hwrite : ([.writeRegs 65535 65535 (getBigEnd16 (fun _ => 0) 0 - 65535) 1
        [getBigEnd16 (fun _ => 0) 2]] : List StoreCall)
      = [.writeRegs 65535 65535 (getBigEnd16 stale 0 - 65535) 1 [getBigEnd16 stale 2]] := hcalls
  simp only [List.cons.injEq, StoreCall.writeRegs.injEq, and_true, true_and] at hwrite
  exact absurd hwrite.2 (by decide)

end Emodbus
