import Emodbus.Server

/-!
# What the super server sends

A handler that returns zero has its PDU sent; one that returns a code has an exception sent with
that code.  Whatever it does, the room of both PDUs stays.
-/

namespace Emodbus

open Octets

variable {σ : Type} (ssrv : EmbSuperServer σ)

theorem answerException_sameMax (r : SrvRun σ) (errno : Byte) :
    (answerException r errno).1.SameMax r := by
  unfold answerException embBuildExceptionPdu
  refine ⟨rfl, ?_⟩
  dsimp only
  split_ifs <;> rfl

theorem callFunction_sameMax (srv : EmbServerEntry σ) (r : SrvRun σ) :
    (callFunction srv r).1.SameMax r := by
  unfold callFunction
  split
  · exact answerException_sameMax r _
  · split
    · exact answerException_sameMax r _
    · rename_i func _
      have hf := func.sameMax srv.toEmbServer r
      dsimp only
      split_ifs
      · have ha := answerException_sameMax (func.call srv.toEmbServer r).2
          (func.call srv.toEmbServer r).1
        exact ⟨ha.rx.trans hf.rx, ha.tx.trans hf.tx⟩
      · exact hf

theorem onReceiveReq_sameMax (addr : ℤ) (r : SrvRun σ) :
    (embSuperServerOnReceiveReq ssrv addr r).run.SameMax r := by
  unfold embSuperServerOnReceiveReq
  split
  · exact ⟨rfl, rfl⟩
  · split
    · exact ⟨rfl, rfl⟩
    · dsimp only
      split_ifs <;> exact callFunction_sameMax _ r

section Asks

variable {ssrv} {addr : ℤ} {r : SrvRun σ} {srv : EmbServerEntry σ} {func : EmbSrvFunction σ}

theorem onReceiveReq_eq (h : ssrv.Asks addr r srv func) :
    let run := (callFunction srv r).1
    (embSuperServerOnReceiveReq ssrv addr r).run = run
      ∧ (embSuperServerOnReceiveReq ssrv addr r).sent = [(addr, run.txPdu)] := by
  obtain ⟨getServer, hs, hsrv⟩ := h.getServer
  unfold embSuperServerOnReceiveReq
  rw [hs]
  dsimp only
  rw [hsrv]
  dsimp only
  rw [h.unicast]
  exact ⟨rfl, rfl⟩

theorem callFunction_ok (h : ssrv.Asks addr r srv func)
    (hcode : (func.call srv.toEmbServer r).1 = 0) :
    (callFunction srv r).1 = (func.call srv.toEmbServer r).2 := by
  obtain ⟨getFunction, hf, hfunc⟩ := h.getFunction
  unfold callFunction
  rw [hf]
  dsimp only
  rw [hfunc]
  dsimp only
  rw [if_neg (not_not.2 hcode)]

theorem callFunction_exception (h : ssrv.Asks addr r srv func)
    (hcode : (func.call srv.toEmbServer r).1 ≠ 0) :
    (callFunction srv r).1 = (answerException (func.call srv.toEmbServer r).2
      (func.call srv.toEmbServer r).1).1 := by
  obtain ⟨getFunction, hf, hfunc⟩ := h.getFunction
  unfold callFunction
  rw [hf]
  dsimp only
  rw [hfunc]
  dsimp only
  rw [if_pos hcode]

end Asks

/-! ## The handlers -/

/-- The handler has returned zero, with this function and data in the response. -/
structure Answered (res : Byte × SrvRun σ) (function : Byte) (bytes : List Byte) (store : σ) :
    Prop where
  code : res.1 = 0
  carries : res.2.txPdu.Carries function bytes
  store : res.2.store = store

/-- The address behind the block. -/
def EmbSrvRegs.stop (block : EmbSrvRegs σ) : ℕ := block.start.toNat + block.size.toNat

def EmbSrvBits.stop (block : EmbSrvBits σ) : ℕ := block.start.toNat + block.size.toNat

/-- No block has all the addresses that are asked for. -/
def OutOfBlocks {β : Type} (stop : β → ℕ) (found : Except Byte β) (addr n : ℕ) : Prop :=
  found = .error mbeIllegalDataAddr ∨ ∃ block, found = .ok block ∧ stop block < addr + n

theorem dataSize_of_lt {n : ℕ} (h : n < 256) : (BitVec.ofNat 8 n).toNat = n := by
  rw [BitVec.toNat_ofNat, Nat.mod_eq_of_lt h]

theorem two_words {p : EmbPdu} {f : Byte} {a b : Word} (hp : p.Carries f (Mem.be [a, b])) :
    getBigEnd16 p.data 0 = a ∧ getBigEnd16 p.data 2 = b :=
  ⟨EmbPdu.Carries.word [] (Mem.be [b]) hp,
    EmbPdu.Carries.word (Mem.be [a]) [] hp⟩

theorem three_words {p : EmbPdu} {f : Byte} {a b c : Word}
    (hp : p.Carries f (Mem.be [a, b, c])) :
    getBigEnd16 p.data 0 = a ∧ getBigEnd16 p.data 2 = b ∧ getBigEnd16 p.data 4 = c :=
  ⟨EmbPdu.Carries.word [] (Mem.be [b, c]) hp,
    EmbPdu.Carries.word (Mem.be [a]) (Mem.be [c]) hp,
    EmbPdu.Carries.word (Mem.be [a, b]) [] hp⟩

/-- Two words at the front of a buffer. -/
theorem slice_two (d : Mem Byte) (a b : Word) :
    Mem.slice (storeWord (storeWord d 0 (swapBytes a)) 2 (swapBytes b)) 0 4 = Mem.be [a, b] := by
  rw [storeWord_swapBytes, storeWord_swapBytes]
  have h1 := Mem.slice_blit_append d (Mem.be [a]) (Mem.slice_zero d 0) (n := 2) rfl
  exact Mem.slice_blit_append _ (Mem.be [b]) h1 rfl

/-! ## Exceptions -/

/-- An exception in answer to `func`, once it is decoded. -/
theorem exception_decoded {tx : EmbPdu} (hmax : 1 ≤ tx.maxSize.toNat) (func errno : Byte) :
    embCheckPduForException (embBuildExceptionPdu tx func errno).2
      = -(errno.toNat + embExceptionBase) := by
  unfold embBuildExceptionPdu
  rw [if_neg (by omega)]
  unfold embCheckPduForException
  have hbit : (func ||| 0x80) &&& 0x80 ≠ 0 := by
    intro h
    have h7 := congrArg (fun x : Byte => x.getLsbD 7) h
    simp at h7
  rw [if_pos hbit]
  simp [Mem.blit]

section Answer

variable {ssrv} {addr : ℤ} {r : SrvRun σ} {srv : EmbServerEntry σ} {func : EmbSrvFunction σ}

/-- A handler that refuses and changes nothing has an exception sent. -/
theorem onReceiveReq_refused (h : ssrv.Asks addr r srv func) (hmax : 1 ≤ r.txPdu.maxSize.toNat)
    (code : Byte) (hcode : code ≠ 0) (hres : func.call srv.toEmbServer r = (code, r)) :
    ∃ answer, (embSuperServerOnReceiveReq ssrv addr r).sent = [(addr, answer)]
      ∧ embCheckPduForException answer = -(code.toNat + embExceptionBase)
      ∧ (embSuperServerOnReceiveReq ssrv addr r).run.store = r.store := by
  obtain ⟨hrun, hsent⟩ := onReceiveReq_eq h
  have hne : (func.call srv.toEmbServer r).1 ≠ 0 := by
    rw [hres]
    exact hcode
  have hcall := callFunction_exception h hne
  rw [hres] at hcall
  refine ⟨_, hsent, ?_, ?_⟩
  · rw [hcall]
    exact exception_decoded hmax _ _
  · rw [hrun, hcall]
    rfl

/-- A handler that answers has its PDU sent. -/
theorem onReceiveReq_answered (h : ssrv.Asks addr r srv func) {function : Byte}
    (hfun : function &&& 0x80 = 0) {bytes : List Byte} {store : σ}
    (hres : Answered (func.call srv.toEmbServer r) function bytes store) :
    ∃ answer, (embSuperServerOnReceiveReq ssrv addr r).sent = [(addr, answer)]
      ∧ embCheckPduForException answer = 0 ∧ answer.Carries function bytes
      ∧ (embSuperServerOnReceiveReq ssrv addr r).run.store = store := by
  obtain ⟨hrun, hsent⟩ := onReceiveReq_eq h
  have hcall := callFunction_ok h hres.code
  have hcarries := hres.carries
  rw [← hcall] at hcarries
  refine ⟨_, hsent, ?_, hcarries, ?_⟩
  · unfold embCheckPduForException
    rw [hcarries.function, if_neg (not_not.2 hfun)]
  · rw [hrun, hcall]
    exact hres.store

end Answer

end Emodbus
