import Emodbus.FileReads
import Emodbus.Proofs.SrvCases

/-!
# What a request to read files puts into the response

As long as no sub-answer ends behind `max_size`, `byte_counter` is the number of bytes written.  The
first one that does is refused or not, and when it is not its callback is given too little room.
-/

namespace Emodbus

open Octets

variable {σ : Type}

/-! ## One sub-request -/

theorem answersSize_cons (sub : FileReadSub) (subs : List FileReadSub) :
    answersSize (sub :: subs) = sub.answerSize + answersSize subs := by
  simp [answersSize]

theorem byteCounter_add (size : ℕ) (sub : FileReadSub) :
    BitVec.ofNat 8 size + (BitVec.ofNat 8 (sub.regCount.toNat * 2 + 1) + 1)
      = BitVec.ofNat 8 (size + sub.answerSize) := by
  unfold FileReadSub.answerSize
  refine BitVec.eq_of_toNat_eq ?_
  simp only [BitVec.toNat_add, BitVec.toNat_ofNat, BitVec.reduceToNat]
  omega

variable (srv : EmbServer σ)

theorem FileReadSub.file_eq_some {sub : FileReadSub} {s : σ} {file : EmbSrvFile σ}
    {readFile : Word → Word → σ → Byte × List Word × σ}
    (h : sub.file srv s = some (file, readFile)) :
    sub.refType = embFileRefType
      ∧ (∃ getFile, srv.getFile = some getFile ∧ getFile sub.fileno s = some file)
      ∧ file.readFile = some readFile := by
  unfold FileReadSub.file at h
  split_ifs at h with h6
  obtain ⟨getFile, hget, h⟩ := Option.bind_eq_some_iff.1 h
  obtain ⟨file', hfile, h⟩ := Option.bind_eq_some_iff.1 h
  obtain ⟨readFile', hread, h⟩ := Option.bind_eq_some_iff.1 h
  cases h
  exact ⟨h6, ⟨getFile, hget, hfile⟩, hread⟩

/-- Without a file to read nothing is called. -/
theorem readFileSub_no_file {rxPos : ℕ} {r : SrvRun σ}
    (h : (fileReadSubAt r.rxPdu.data rxPos).file srv r.store = none) (txPos : ℕ)
    (byteCounter : Byte) :
    ∃ code, (readFileSub srv rxPos txPos byteCounter r).1 = .error code
      ∧ (readFileSub srv rxPos txPos byteCounter r).2.calls = r.calls := by
  unfold FileReadSub.file fileReadSubAt at h
  unfold readFileSub
  dsimp only at h ⊢
  cases hget : srv.getFile with
  | none => exact ⟨_, rfl, rfl⟩
  | some getFile =>
    dsimp only
    cases hfile : getFile (getBigEnd16 r.rxPdu.data (rxPos + 1)) r.store with
    | none => exact ⟨_, rfl, rfl⟩
    | some file =>
      dsimp only
      by_cases h6 : r.rxPdu.data rxPos = embFileRefType
      · rw [if_pos h6, hget] at h
        cases hread : file.readFile with
        | none =>
          rw [if_neg (not_not.2 h6)]
          exact ⟨_, rfl, rfl⟩
        | some readFile => simp [hfile, hread] at h
      · rw [if_pos h6]
        exact ⟨_, rfl, rfl⟩

/-- What a turn that asks the file leaves of the run, and what it leaves alone. -/
structure TurnAsked (r r' : SrvRun σ) (txPos : ℕ) (call : StoreCall) (s : σ) : Prop where
  rx : r'.rxPdu = r.rxPdu
  store : r'.store = s
  calls : r'.calls = r.calls ++ [call]
  maxSize : r'.txPdu.maxSize = r.txPdu.maxSize
  before : ∀ i < txPos, r'.txPdu.data i = r.txPdu.data i

/-- With a file to read, the check of the room decides whether it is asked. -/
theorem readFileSub_file {rxPos : ℕ} {r : SrvRun σ} {file : EmbSrvFile σ}
    {readFile : Word → Word → σ → Byte × List Word × σ} {sub : FileReadSub}
    (hsub : sub = fileReadSubAt r.rxPdu.data rxPos)
    (h : sub.file srv r.store = some (file, readFile)) (txPos size : ℕ) :
    let turn := readFileSub srv rxPos txPos (BitVec.ofNat 8 size) r
    let res := readFile sub.startAddr sub.regCount r.store
    let call := .readFile file.fileno sub.startAddr sub.regCount (txPos + 2)
    (r.txPdu.maxSize.toNat < (size + sub.answerSize) % 256
        ∧ turn.1 = .error mbeSlaveFailure ∧ turn.2.calls = r.calls)
      ∨ ¬ r.txPdu.maxSize.toNat < (size + sub.answerSize) % 256
        ∧ TurnAsked r turn.2 txPos call res.2.2
        ∧ (res.1 ≠ 0 ∧ turn.1 = .error res.1
          ∨ res.1 = 0
            ∧ turn.1 = .ok (txPos + sub.answerSize, BitVec.ofNat 8 (size + sub.answerSize))
            ∧ turn.2.txPdu.data txPos = BitVec.ofNat 8 (sub.regCount.toNat * 2 + 1)) := by
  obtain ⟨h6, ⟨getFile, hget, hfile⟩, hread⟩ := FileReadSub.file_eq_some srv h
  have hcount := byteCounter_add size sub
  have htx : txPos + 2 + 2 * sub.regCount.toNat = txPos + sub.answerSize := by
    unfold FileReadSub.answerSize
    omega
  have hr6 : r.rxPdu.data rxPos = sub.refType := by rw [hsub]; rfl
  have hfileno : getBigEnd16 r.rxPdu.data (rxPos + 1) = sub.fileno := by rw [hsub]; rfl
  have hstart : getBigEnd16 r.rxPdu.data (rxPos + 3) = sub.startAddr := by rw [hsub]; rfl
  have hregs : getBigEnd16 r.rxPdu.data (rxPos + 5) = sub.regCount := by rw [hsub]; rfl
  unfold readFileSub
  dsimp only
  rw [hget, hr6, hfileno, hstart, hregs]
  dsimp only
  rw [hfile]
  dsimp only
  rw [if_neg (not_not.2 h6), hread]
  dsimp only
  rw [hcount, htx, BitVec.toNat_ofNat]
  by_cases hroom : r.txPdu.maxSize.toNat < (size + sub.answerSize) % 256
  · left
    rw [if_pos hroom]
    exact ⟨hroom, rfl, rfl⟩
  right
  rw [if_neg hroom]
  refine ⟨hroom, ?_⟩
  by_cases h0 : (readFile sub.startAddr sub.regCount r.store).1 = 0
  · rw [if_neg (not_not.2 h0)]
    refine ⟨⟨rfl, rfl, rfl, rfl, fun i hi => ?_⟩, Or.inr ⟨h0, rfl, ?_⟩⟩
    · dsimp only
      rw [Mem.swapWords_apply, if_neg (by omega), Mem.blit_of_lt _ _ (by omega),
        Mem.blit_of_lt _ _ hi]
    · dsimp only
      rw [Mem.swapWords_apply, if_neg (by omega), Mem.blit_of_lt _ _ (by omega)]
      exact Mem.blit_add r.txPdu.data (i := 0) (by simp)
  · rw [if_pos h0]
    refine ⟨⟨rfl, rfl, rfl, rfl, fun i hi => ?_⟩, Or.inl ⟨h0, rfl⟩⟩
    dsimp only
    rw [Mem.blit_of_lt _ _ (by omega), Mem.blit_of_lt _ _ hi]

theorem readFileSub_error_ne {rxPos txPos : ℕ} {byteCounter : Byte} {r : SrvRun σ} {code : Byte}
    (h : (readFileSub srv rxPos txPos byteCounter r).1 = .error code) : code ≠ 0 := by
  unfold readFileSub at h
  dsimp only at h
  cases hget : srv.getFile with
  | none =>
    rw [hget] at h
    cases h
    exact mbeSlaveFailure_ne
  | some getFile =>
    rw [hget] at h
    dsimp only at h
    cases hfile : getFile (getBigEnd16 r.rxPdu.data (rxPos + 1)) r.store with
    | none =>
      rw [hfile] at h
      cases h
      exact mbeIllegalDataAddr_ne
    | some file =>
      obtain ⟨fileno, readFile, writeFile⟩ := file
      rw [hfile] at h
      cases readFile with
      | none =>
        dsimp only at h
        split_ifs at h <;> cases h <;> exact mbeIllegalDataAddr_ne
      | some readFile =>
        dsimp only at h
        split_ifs at h with h6 hroom hres
        · cases h
          exact mbeIllegalDataAddr_ne
        · cases h
          exact mbeSlaveFailure_ne
        · cases h
          exact hres

/-! ## All of them -/

theorem readFileLoop_error_ne {turns rxPos txPos : ℕ} {byteCounter : Byte} {r : SrvRun σ}
    {code : Byte} (h : (readFileLoop srv turns rxPos txPos byteCounter r).1 = .error code) :
    code ≠ 0 := by
  induction turns generalizing rxPos txPos byteCounter r with
  | zero => simp [readFileLoop] at h
  | succ turns ih =>
    unfold readFileLoop at h
    rcases hturn : readFileSub srv rxPos txPos byteCounter r with ⟨code' | ⟨txPos', counter'⟩, r'⟩
    · rw [hturn] at h
      cases h
      exact readFileSub_error_ne srv (congrArg Prod.fst hturn)
    · rw [hturn] at h
      exact ih h

/-- The loop gives every file it asks room enough if and only if the check of the room works. -/
theorem readFileLoop_hasRoom_iff (turns rxPos size : ℕ) (r : SrvRun σ) :
    ∃ made, (readFileLoop srv turns rxPos (1 + size) (BitVec.ofNat 8 size) r).2.calls
        = r.calls ++ made
      ∧ ((∀ c ∈ made, c.HasRoom r.txPdu.maxSize.toNat)
        ↔ RoomChecked r.txPdu.maxSize.toNat size
          (askedSubs srv (fileReadSubs r.rxPdu.data turns rxPos) r.store)) := by
  induction turns generalizing rxPos size r with
  | zero => exact ⟨[], by simp [readFileLoop], by simp [fileReadSubs, askedSubs, RoomChecked]⟩
  | succ turns ih =>
    have hmax := r.txPdu.maxSize.isLt
    unfold readFileLoop fileReadSubs askedSubs
    dsimp only
    set sub := fileReadSubAt r.rxPdu.data rxPos with hsub
    rcases hturn : readFileSub srv rxPos (1 + size) (BitVec.ofNat 8 size) r with ⟨res, r'⟩
    cases hfile : sub.file srv r.store with
    | none =>
      obtain ⟨code, hcode, hcalls⟩ := readFileSub_no_file srv hfile (1 + size) (BitVec.ofNat 8 size)
      rw [hturn] at hcode hcalls
      cases hcode
      exact ⟨[], by simpa using hcalls, by simp [RoomChecked]⟩
    | some found =>
      obtain ⟨file, readFile⟩ := found
      have hcases := readFileSub_file srv hsub hfile (1 + size) size
      dsimp only at hcases ⊢
      rw [hturn] at hcases
      rw [RoomChecked]
      rcases hcases with ⟨hrefused, hres, hcalls⟩ | ⟨hpassed, hasked, hres⟩
      -- refused, and there is no room
      · cases hres
        refine ⟨[], by simpa using hcalls, ?_⟩
        rw [if_neg (by omega)]
        simpa using hrefused
      set call : StoreCall := .readFile file.fileno sub.startAddr sub.regCount (1 + size + 2)
        with hcall
      have hroom : call.HasRoom r.txPdu.maxSize.toNat
          ↔ 1 + (size + sub.answerSize) ≤ r.txPdu.maxSize.toNat := by
        rw [hcall]
        unfold StoreCall.HasRoom FileReadSub.answerSize
        dsimp only
        omega
      rcases hres with ⟨hne, hres⟩ | ⟨h0, hres, -⟩
      · dsimp only at hres
        subst hres
        refine ⟨[call], hasked.calls, ?_⟩
        rw [List.forall_mem_singleton, hroom, if_neg hne, RoomChecked]
        split_ifs with hfits
        · simp [hfits]
        · simp [hfits, hpassed]
      · dsimp only at hres
        subst hres
        obtain ⟨made, hcalls, hiff⟩ := ih (rxPos + 7) (size + sub.answerSize) r'
        rw [← Nat.add_assoc, hasked.calls, List.append_assoc] at hcalls
        rw [hasked.rx, hasked.store, hasked.maxSize] at hiff
        refine ⟨call :: made, hcalls, ?_⟩
        rw [List.forall_mem_cons, hroom, hiff, if_pos h0]
        split_ifs with hfits
        · simp [hfits]
        · simp [hfits, hpassed]

/-- What a loop that gets through leaves, from `size` bytes of sub-answers on. -/
structure LoopDone (r r' : SrvRun σ) (size : ℕ) (subs : List FileReadSub) (counter : Byte) :
    Prop where
  asked : askedSubs srv subs r.store = subs
  counter : counter = BitVec.ofNat 8 (size + answersSize subs)
  before : ∀ i < 1 + size, r'.txPdu.data i = r.txPdu.data i
  lengths : ∀ pre sub post, subs = pre ++ sub :: post →
    r'.txPdu.data (1 + size + answersSize pre) = BitVec.ofNat 8 (sub.regCount.toNat * 2 + 1)
  room : RoomChecked r.txPdu.maxSize.toNat size subs → subs ≠ [] →
    1 + (size + answersSize subs) ≤ r.txPdu.maxSize.toNat

/-- A turn that is answered, and then the rest. -/
theorem LoopDone.cons {r r' r'' : SrvRun σ} {size : ℕ} {sub : FileReadSub} {subs : List FileReadSub}
    {counter : Byte} {file : EmbSrvFile σ} {readFile : Word → Word → σ → Byte × List Word × σ}
    {call : StoreCall} (hfile : sub.file srv r.store = some (file, readFile))
    (hpassed : ¬ r.txPdu.maxSize.toNat < (size + sub.answerSize) % 256)
    (h0 : (readFile sub.startAddr sub.regCount r.store).1 = 0)
    (hasked : TurnAsked r r' (1 + size) call (readFile sub.startAddr sub.regCount r.store).2.2)
    (hlength : r'.txPdu.data (1 + size) = BitVec.ofNat 8 (sub.regCount.toNat * 2 + 1))
    (hrest : LoopDone srv r' r'' (size + sub.answerSize) subs counter) :
    LoopDone srv r r'' size (sub :: subs) counter := by
  refine ⟨?_, ?_, ?_, ?_, ?_⟩
  · have hall := hrest.asked
    rw [hasked.store] at hall
    rw [askedSubs, hfile]
    dsimp only
    rw [if_pos h0, hall]
  · rw [hrest.counter, answersSize_cons, Nat.add_assoc]
  · intro i hi
    rw [hrest.before i (by omega), hasked.before i hi]
  · intro pre sub' post hsplit
    rcases pre with _ | ⟨first, pre⟩
    · obtain ⟨rfl, -⟩ := List.cons_eq_cons.1 hsplit
      have hat : 1 + size < 1 + (size + sub.answerSize) := by
        unfold FileReadSub.answerSize
        omega
      rw [← hlength, ← hrest.before _ hat]
      rfl
    · rw [List.cons_append, List.cons.injEq] at hsplit
      obtain ⟨rfl, hsplit⟩ := hsplit
      rw [← hrest.lengths pre sub' post hsplit, answersSize_cons]
      congr 1
      omega
  · intro hchecked _
    rw [RoomChecked] at hchecked
    split_ifs at hchecked with hfits
    · rw [← hasked.maxSize] at hchecked hfits ⊢
      rw [answersSize_cons, ← Nat.add_assoc size]
      by_cases hnil : subs = []
      · rw [hnil]
        exact hfits
      · exact hrest.room hchecked hnil
    · exact absurd hchecked hpassed

theorem readFileLoop_done (turns rxPos size : ℕ) (r : SrvRun σ) {counter : Byte}
    (h : (readFileLoop srv turns rxPos (1 + size) (BitVec.ofNat 8 size) r).1 = .ok counter) :
    LoopDone srv r (readFileLoop srv turns rxPos (1 + size) (BitVec.ofNat 8 size) r).2 size
      (fileReadSubs r.rxPdu.data turns rxPos) counter := by
  induction turns generalizing rxPos size r with
  | zero =>
    simp only [readFileLoop, Except.ok.injEq] at h
    exact ⟨rfl, by simp [answersSize, fileReadSubs, h], fun i _ => rfl,
      fun pre sub post hsplit => by simp [fileReadSubs] at hsplit, fun _ hne => absurd rfl hne⟩
  | succ turns ih =>
    unfold readFileLoop at h ⊢
    unfold fileReadSubs
    set sub := fileReadSubAt r.rxPdu.data rxPos with hsub
    rcases hturn : readFileSub srv rxPos (1 + size) (BitVec.ofNat 8 size) r with ⟨res, r'⟩
    rw [hturn] at h
    rcases hfile : sub.file srv r.store with _ | ⟨file, readFile⟩
    · obtain ⟨code, hcode, -⟩ := readFileSub_no_file srv hfile (1 + size) (BitVec.ofNat 8 size)
      rw [hturn] at hcode
      cases hcode
      simp at h
    have hcases := readFileSub_file srv hsub hfile (1 + size) size
    dsimp only at hcases
    rw [hturn] at hcases
    rcases hcases with ⟨-, hres, -⟩ | ⟨hpassed, hasked, ⟨-, hres⟩ | ⟨h0, hres, hlength⟩⟩
    · cases hres
      simp at h
    · dsimp only at hres
      subst hres
      simp at h
    dsimp only at hres
    subst hres
    dsimp only at h hlength ⊢
    rw [Nat.add_assoc] at h ⊢
    have hrest := ih (rxPos + 7) (size + sub.answerSize) r' h
    rw [hasked.rx] at hrest
    exact hrest.cons srv hfile hpassed h0 hasked hlength

/-- A response whose loop has got through, with room for every sub-answer, accounts for them. -/
theorem LoopDone.accountsFor {r r' : SrvRun σ} {subs : List FileReadSub} {counter : Byte}
    (h : LoopDone srv r r' 0 subs counter)
    (hchecked : RoomChecked r.txPdu.maxSize.toNat 0 subs) (hne : subs ≠ []) :
    AccountsFor { r'.txPdu with
      function := 0x14
      dataSize := counter + 1
      data := Mem.blit r'.txPdu.data 0 [counter] } r.txPdu.maxSize.toNat subs := by
  have hroom := h.room hchecked hne
  have hmax := r.txPdu.maxSize.isLt
  have hcounter : counter.toNat = answersSize subs := by
    rw [h.counter, BitVec.toNat_ofNat]
    omega
  have hsize : (counter + 1).toNat = 1 + answersSize subs := by
    rw [BitVec.toNat_add, hcounter]
    simp only [BitVec.reduceToNat]
    omega
  refine ⟨hsize, ?_, ?_, ?_⟩
  · dsimp only
    rw [hsize]
    omega
  · dsimp only
    rw [hsize, Mem.blit_singleton, if_pos rfl, hcounter]
    omega
  · intro pre sub post hsplit
    have hlength := h.lengths pre sub post hsplit
    have hpart : answersSize subs = answersSize pre + (sub.answerSize + answersSize post) := by
      rw [hsplit]
      simp [answersSize]
    have hregs : sub.answerSize = 2 + 2 * sub.regCount.toNat := rfl
    dsimp only
    rw [Mem.blit_singleton, if_neg (by omega)]
    rw [Nat.add_zero] at hlength
    rw [hlength, BitVec.toNat_ofNat]
    omega

/-! ## The handler -/

section Handler

variable {r : SrvRun σ}

theorem fileReadSubs_of_refused
    (h : (r.rxPdu.data 0).toNat < 7 ∨ (r.rxPdu.data 0).toNat > 7 * 35) :
    r.rxPdu.fileReadSubs = [] ∧ embSrvReadFile srv r = (mbeIllegalDataValue, r) := by
  constructor
  · unfold EmbPdu.fileReadSubs
    exact if_pos h
  · unfold embSrvReadFile
    exact if_pos h

theorem fileReadSubs_of_accepted
    (h : ¬ ((r.rxPdu.data 0).toNat < 7 ∨ (r.rxPdu.data 0).toNat > 7 * 35)) :
    ∃ turns, r.rxPdu.fileReadSubs = fileReadSubs r.rxPdu.data (turns + 1) 1
      ∧ embSrvReadFile srv r =
        match readFileLoop srv (turns + 1) 1 (1 + 0) (BitVec.ofNat 8 0) r with
        | (.error code, r) => (code, r)
        | (.ok byteCounter, r) =>
          (0, { r with txPdu := { r.txPdu with
            function := 0x14
            dataSize := byteCounter + 1
            data := Mem.blit r.txPdu.data 0 [byteCounter] } }) := by
  obtain ⟨turns, hturns⟩ : ∃ turns, ((r.rxPdu.data 0).toNat + 6) / 7 = turns + 1 :=
    ⟨((r.rxPdu.data 0).toNat + 6) / 7 - 1, by omega⟩
  refine ⟨turns, ?_, ?_⟩
  · unfold EmbPdu.fileReadSubs
    rw [← hturns]
    exact if_neg h
  · unfold embSrvReadFile
    rw [← hturns]
    exact if_neg h

theorem embSrvReadFile_hasRoom_iff (r : SrvRun σ) :
    ∃ made, (embSrvReadFile srv r).2.calls = r.calls ++ made
      ∧ ((∀ c ∈ made, c.HasRoom r.txPdu.maxSize.toNat)
        ↔ RoomChecked r.txPdu.maxSize.toNat 0
          (askedSubs srv r.rxPdu.fileReadSubs r.store)) := by
  by_cases hcount : (r.rxPdu.data 0).toNat < 7 ∨ (r.rxPdu.data 0).toNat > 7 * 35
  · obtain ⟨hnil, hrefused⟩ := fileReadSubs_of_refused srv hcount
    refine ⟨[], by simp [hrefused], ?_⟩
    simp [hnil, askedSubs, RoomChecked]
  obtain ⟨turns, hsubs, hhandler⟩ := fileReadSubs_of_accepted srv hcount
  obtain ⟨made, hcalls, hiff⟩ := readFileLoop_hasRoom_iff srv (turns + 1) 1 0 r
  rw [hsubs, hhandler]
  refine ⟨made, ?_, hiff⟩
  rcases hloop : readFileLoop srv (turns + 1) 1 (1 + 0) (BitVec.ofNat 8 0) r with
    ⟨code | counter, r'⟩ <;> rw [hloop] at hcalls <;> exact hcalls

theorem embSrvReadFile_accountsFor (h0 : (embSrvReadFile srv r).1 = 0)
    (hchecked : RoomChecked r.txPdu.maxSize.toNat 0
      (askedSubs srv r.rxPdu.fileReadSubs r.store)) :
    AccountsFor (embSrvReadFile srv r).2.txPdu r.txPdu.maxSize.toNat r.rxPdu.fileReadSubs := by
  by_cases hcount : (r.rxPdu.data 0).toNat < 7 ∨ (r.rxPdu.data 0).toNat > 7 * 35
  · obtain ⟨-, hrefused⟩ := fileReadSubs_of_refused srv hcount
    rw [hrefused] at h0
    exact absurd h0 mbeIllegalDataValue_ne
  obtain ⟨turns, hsubs, hhandler⟩ := fileReadSubs_of_accepted srv hcount
  rw [hhandler] at h0 ⊢
  rw [hsubs] at hchecked ⊢
  have hdone := @readFileLoop_done σ srv (turns + 1) 1 0 r
  have herror := @readFileLoop_error_ne σ srv (turns + 1) 1 (1 + 0) (BitVec.ofNat 8 0) r
  rcases hloop : readFileLoop srv (turns + 1) 1 (1 + 0) (BitVec.ofNat 8 0) r with
    ⟨code | counter, r'⟩
  · rw [hloop] at h0 herror
    exact absurd h0 (herror rfl)
  · rw [hloop] at hdone
    have hdone := hdone rfl
    rw [hdone.asked] at hchecked
    exact hdone.accountsFor srv hchecked (by simp [fileReadSubs])

end Handler

/-- The handler keeps within the response, and accounts for all of it, if and only if the first
sub-answer without room, of those whose file is asked, is one the check of the room refuses. -/
theorem readFile_inBounds_iff (r : SrvRun σ) :
    ReadFileInBounds srv r
      ↔ RoomChecked r.txPdu.maxSize.toNat 0 (askedSubs srv r.rxPdu.fileReadSubs r.store) := by
  obtain ⟨made, hcalls, hiff⟩ := embSrvReadFile_hasRoom_iff srv r
  rw [← hiff]
  constructor
  · intro h
    obtain ⟨made', hcalls', hroom⟩ := h.hasRoom
    rw [hcalls, List.append_right_inj] at hcalls'
    rwa [hcalls']
  · intro h
    exact ⟨⟨made, hcalls, h⟩, fun h0 => embSrvReadFile_accountsFor srv h0 (hiff.1 h)⟩

/-- A server with one file of any length, and a request for 128 registers of it. -/
def longFileServer : EmbServer Unit where
  getCoils := none
  getDiscreteInputs := none
  getHoldingRegs := none
  getInputRegs := none
  getFile := some fun fileno _ =>
    some ⟨fileno, some fun _ quantity _ => (0, List.replicate quantity.toNat 0, ()), none⟩
  readFifo := none

def longFileRequest : SrvRun Unit where
  rxPdu := ⟨0x14, 8, 253, Mem.blit (fun _ => 0) 0 [7, 6, 0, 1, 0, 0, 0, 128]⟩
  txPdu := ⟨0, 0, 253, fun _ => 0⟩
  store := ()
  calls := []

/-- 258 bytes of sub-answer count as 2, and the callback gets a response of 253 bytes to put 256
into, from the third on. -/
theorem long_file_out_of_bounds : ¬ ReadFileInBounds longFileServer longFileRequest := by
  intro h
  obtain ⟨made, hcalls, hroom⟩ := h.hasRoom
  have hmade : [StoreCall.readFile 1 0 128 3] = made := hcalls
  have hfits : 3 + 2 * 128 ≤ 253 := hroom (.readFile 1 0 128 3) (by rw [← hmade]; simp)
  omega

end Emodbus
