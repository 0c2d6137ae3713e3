import Emodbus.Proofs.Proxy
import Emodbus.Proofs.RegsRun
import Emodbus.RemoteBits

/-!
# What the operations on bits do to a register

The masks that `|=`, `&=` and `set_bit` send, put into the server's formula.  `|=` and `set_bit`
leave what they should; `&=` sends the complement of its operand, so that it clears the bits it
should keep.
-/

namespace Emodbus

open Octets

/-! ## The formula -/

section Formula

variable (x v : Word)

theorem mask_or : (x &&& ~~~v) ||| (v &&& ~~~(~~~v)) = x ||| v := by
  ext i hi
  simp only [BitVec.getElem_or, BitVec.getElem_and, BitVec.getElem_not]
  cases x[i] <;> cases v[i] <;> rfl

theorem mask_and : (x &&& ~~~v) ||| (0 &&& ~~~(~~~v)) = x &&& ~~~v := by
  ext i hi
  simp

/-- The register keeps the bits that it should only if it has none. -/
theorem and_not_eq_and_iff : x &&& ~~~v = x &&& v ↔ x = 0 := by
  constructor
  · intro h
    ext i hi
    have hbit := congrArg (fun y : Word => y[i]) h
    simp only [BitVec.getElem_and, BitVec.getElem_not] at hbit
    cases hx : x[i] <;> cases hv : v[i] <;> simp_all
  · rintro rfl
    simp

variable {x}

theorem mask_setBit (n : ℕ) (b : Bool) {i : ℕ} (hi : i < 16) :
    ((x &&& ~~~BitVec.ofNat 16 (1 <<< n)) ||| ((if b then BitVec.ofNat 16 (1 <<< n) else 0)
      &&& ~~~(~~~BitVec.ofNat 16 (1 <<< n)))).getLsbD i = if i = n then b else x.getLsbD i := by
  have hbit : (BitVec.ofNat 16 (1 <<< n)).getLsbD i = decide (i = n) := by
    rw [BitVec.getLsbD_ofNat, Nat.one_shiftLeft, Nat.testBit_two_pow]
    simp [hi, eq_comm]
  rw [BitVec.not_not, BitVec.getLsbD_or, BitVec.getLsbD_and, BitVec.getLsbD_and,
    BitVec.getLsbD_not, apply_ite (BitVec.getLsbD · i), hbit]
  by_cases h : i = n <;> cases b <;> simp [h, hi]

end Formula

/-! ## The transaction -/

/-- The buffer and `max_size` are large enough. -/
structure PduT.Has (p : PduT) (n : ℕ) : Prop where
  buffer : n ≤ p.bufferSize
  room : n ≤ p.pdu.maxSize.toNat

theorem PduT.resize_has {alloc : ℕ → Bool} {p : PduT} {n : ℕ} (hgrows : p.Grows alloc n)
    (hroom : n ≤ p.room n) : ∃ q, p.resize alloc n = some q ∧ q.Has n := by
  unfold Grows at hgrows
  unfold room at hroom
  unfold resize
  split_ifs at hroom ⊢ with hlt halloc
  · refine ⟨_, rfl, le_rfl, ?_⟩
    rw [BitVec.toNat_ofNat]
    exact hroom
  · exact absurd (hgrows hlt) halloc
  · exact ⟨p, rfl, Nat.not_lt.1 hlt, hroom⟩

theorem PduT.Has.resize {alloc : ℕ → Bool} {p : PduT} {n k : ℕ} (h : p.Has n) (hk : k ≤ n) :
    p.resize alloc k = some p := by
  have := h.buffer
  unfold PduT.resize
  rw [if_neg (by omega)]

theorem Proxy.doTransaction_ans (tr : Transaction) (answer : EmbPdu) {n : ℕ} (h : tr.ans.Has n) :
    (Proxy.doTransaction tr answer).2.ans.Has n := by
  unfold doTransaction
  split_ifs
  · exact h
  · dsimp only
    split_ifs <;> exact ⟨h.buffer, h.room⟩

/-! ## The server -/

section Store

variable {σ : Type} {srv : EmbServer σ} {has : Word → Prop} {shows : σ → Mem Word → Prop}
  {run : SrvRun σ} {req : EmbPdu} {m : Mem Word} {a : Word}

/-- What a register holds is told by the store. -/
theorem RegStore.unique (h : RegStore srv has shows) {s : σ} {m m' : Mem Word}
    (hm : shows s m) (hm' : shows s m') (ha : has a) : m a.toNat = m' a.toNat := by
  obtain ⟨block, readRegs, -, hfind, hread, -, -, hvalue, -⟩ := h.block s m a hm ha
  obtain ⟨block', readRegs', -, hfind', hread', -, -, hvalue', -⟩ := h.block s m' a hm' ha
  obtain rfl : block = block' := Except.ok.inj (hfind.symm.trans hfind')
  obtain rfl : readRegs = readRegs' := Option.some.inj (hread.symm.trans hread')
  rw [hvalue] at hvalue'
  simpa using hvalue'

theorem superServerOf_asks (address : Byte) {r : SrvRun σ} {func : EmbSrvFunction σ}
    (hfunc : getFunction r.rxPdu.function = some func) :
    (superServerOf srv address).Asks address.toNat r
      { srv with getFunction := some getFunction, isBroadcast := false } func where
  getServer := by
    refine ⟨_, rfl, ?_⟩
    have haddr : BitVec.ofInt 8 (address.toNat : ℤ) = address := by
      rw [BitVec.ofInt_natCast, BitVec.ofNat_toNat, BitVec.setWidth_eq]
    rw [if_pos haddr]
  getFunction := ⟨_, rfl, hfunc⟩
  unicast := rfl

theorem serve_maskReg (address : Byte) (h : RegStore srv has shows) (hm : shows run.store m)
    (ha : has a) (htx : 6 ≤ run.txPdu.maxSize.toNat) {andMask orMask : Word}
    (hreq : req.Carries 0x16 (Mem.be [a, andMask, orMask])) :
    ∃ answer, (Remote.serve srv address run req).sent = [(↑address.toNat, answer)]
      ∧ answer.Carries 0x16 (Mem.be [a, andMask, orMask])
      ∧ 6 ≤ (Remote.serve srv address run req).run.txPdu.maxSize.toNat
      ∧ shows (Remote.serve srv address run req).run.store
        (Mem.blit m a.toNat [(m a.toNat &&& andMask) ||| (orMask &&& ~~~andMask)]) := by
  obtain ⟨block, readRegs, writeRegs, hfind, hread, hwrite, -, hvalue, hstore⟩ :=
    h.block run.store m a hm ha
  obtain ⟨store, hstored, hshows⟩ :=
    hstore ((m a.toNat &&& andMask) ||| (orMask &&& ~~~andMask))
  have hasks : (superServerOf srv address).Asks address.toNat
      { run with rxPdu := run.rxPdu.receive req }
      { srv with getFunction := some getFunction, isBroadcast := false }
      ⟨embSrvMaskReg, embSrvMaskReg_sameMax⟩ :=
    superServerOf_asks address (by rw [(hreq.receive run.rxPdu).function]; rfl)
  have hans := embSrvMaskReg_answers srv (r := { run with rxPdu := run.rxPdu.receive req })
    (hreq.receive run.rxPdu) htx hfind hread hwrite hvalue hstored
  obtain ⟨answer, hsent, -, hcarries, hrun⟩ := onReceiveReq_answered hasks (by simp) hans
  have hmax := onReceiveReq_sameMax (superServerOf srv address) address.toNat
    { run with rxPdu := run.rxPdu.receive req }
  refine ⟨answer, hsent, hcarries, ?_, ?_⟩
  · unfold Remote.serve
    rw [hmax.tx]
    exact htx
  · unfold Remote.serve
    rw [hrun]
    exact hshows

theorem serve_readReg (address : Byte) (h : RegStore srv has shows) (hm : shows run.store m)
    (ha : has a) (htx : 6 ≤ run.txPdu.maxSize.toNat)
    (hreq : req.Carries 0x03 (Mem.be [a, 1])) :
    ∃ answer, (Remote.serve srv address run req).sent = [(↑address.toNat, answer)]
      ∧ answer.Carries 0x03 (2 :: Mem.be [m a.toNat]) := by
  obtain ⟨block, readRegs, -, hfind, hread, -, hfit, hvalue, -⟩ := h.block run.store m a hm ha
  have hasks : (superServerOf srv address).Asks address.toNat
      { run with rxPdu := run.rxPdu.receive req }
      { srv with getFunction := some getFunction, isBroadcast := false }
      ⟨embSrvReadRegs, embSrvReadRegs_sameMax⟩ :=
    superServerOf_asks address (by rw [(hreq.receive run.rxPdu).function]; rfl)
  have hone : (1 : Word).toNat = 1 := rfl
  have hroom : 1 + (1 : Word).toNat * 2 ≤ run.txPdu.maxSize.toNat := by
    rw [hone]
    omega
  have hans := embSrvReadRegs_answers srv (r := { run with rxPdu := run.rxPdu.receive req })
    (hreq.receive run.rxPdu) (by simp) hroom hfind hfit hread hvalue rfl
  obtain ⟨answer, hsent, -, hcarries, -⟩ := onReceiveReq_answered hasks (by simp) hans
  exact ⟨answer, hsent, hcarries⟩

end Store

/-! ## The operations -/

section Perform

variable {alloc : ℕ → Bool} {σ : Type} {srv : EmbServer σ} {has : Word → Prop}
  {shows : σ → Mem Word → Prop} (address : Byte) {c : Remote σ} {m : Mem Word} {a : Word}

/-- An operation that writes with masks leaves what the server's formula gives, and the buffers as
large as they have to be. -/
theorem perform_mask (h : RegStore srv has shows) (hm : shows c.run.store m) (ha : has a)
    (htx : 6 ≤ c.run.txPdu.maxSize.toNat) (htr : c.tr.Takes6 alloc) (op : ProxyOp)
    (andMask orMask : Word)
    (hop : op.call = ⟨writeMaskRegBuildReq a andMask orMask, fun _ => .nothing⟩) :
    ∃ c', c.perform alloc srv address op = (c', some .nothing)
      ∧ c'.tr.req.Has 6 ∧ c'.tr.ans.Has 6 ∧ 6 ≤ c'.run.txPdu.maxSize.toNat
      ∧ shows c'.run.store
        (Mem.blit m a.toNat [(m a.toNat &&& andMask) ||| (orMask &&& ~~~andMask)]) := by
  have hmakes := writeMaskReg_makes a andMask orMask
  obtain ⟨req, hreq, hreqHas⟩ := PduT.resize_has htr.reqGrows htr.reqRoom
  obtain ⟨ans, hans, hansHas⟩ := PduT.resize_has htr.ansGrows htr.ansRoom
  obtain ⟨made, hmade⟩ :
      ∃ made, (writeMaskRegBuildReq a andMask orMask).makeReq req.pdu = made := ⟨_, rfl⟩
  have hrun : (writeMaskRegBuildReq a andMask orMask).run alloc c.tr
      = (some made.1, ⟨{ req with pdu := made.2 }, ans⟩) := by
    unfold BuildReq.run
    rw [show unsignedInt (writeMaskRegBuildReq a andMask orMask).reqSize = 6 from rfl, hreq,
      ← hmade]
    dsimp only
    rw [show unsignedInt (writeMaskRegBuildReq a andMask orMask).ansSize = 6 from rfl, hans]
  have hzero : made.1 = 0 := by
    rw [← hmade, hmakes.built_iff]
    exact hreqHas.room
  have hcarries : made.2.Carries 0x16 (Mem.be [a, andMask, orMask]) := by
    rw [← hmade] at hzero ⊢
    exact hmakes.carries req.pdu hzero
  have hmax : made.2.maxSize = req.pdu.maxSize := by
    rw [← hmade]
    unfold writeMaskRegBuildReq embWriteMaskRegMakeReq
    dsimp only
    split_ifs <;> rfl
  obtain ⟨answer, hsent, hanswer, htx', hshows⟩ := serve_maskReg address h hm ha htx
    hcarries
  -- the answer has the function and the length of the request
  have htaken : (Proxy.doTransaction ⟨{ req with pdu := made.2 }, ans⟩ answer).1 = 0 := by
    rw [Proxy.doTransaction_zero_iff, hanswer.dataSize, hanswer.function]
    exact ⟨hansHas.room, by simp, hcarries.function.symm⟩
  obtain ⟨hkept, -⟩ := Proxy.doTransaction_taken htaken
  refine ⟨⟨_, _⟩, ?_, ?_, Proxy.doTransaction_ans ⟨{ req with pdu := made.2 }, ans⟩ answer hansHas,
    htx', hshows⟩
  · unfold Remote.perform
    rw [hop]
    dsimp only
    rw [hrun]
    dsimp only
    rw [hsent]
    dsimp only
    rw [if_neg (not_not.2 htaken)]
  · dsimp only
    rw [hkept]
    refine ⟨hreqHas.buffer, ?_⟩
    dsimp only
    rw [hmax]
    exact hreqHas.room

/-- `get_bit` in buffers that are large enough. -/
theorem perform_getBit (h : RegStore srv has shows) (hm : shows c.run.store m) (ha : has a)
    (htx : 6 ≤ c.run.txPdu.maxSize.toNat) (hreq : c.tr.req.Has 6) (hans : c.tr.ans.Has 6)
    (nbit : Byte) :
    (c.perform alloc srv address (.regGetBit a nbit)).2
      = some (.bit ((m a.toNat).getLsbD nbit.toNat)) := by
  have hmakes : (readRegsBuildReq .holdings a 1).Makes (0x03, Mem.be [a, 1]) :=
    readRegs_makes .holdings a (by simp)
  obtain ⟨made, hmade⟩ :
      ∃ made, (readRegsBuildReq .holdings a 1).makeReq c.tr.req.pdu = made := ⟨_, rfl⟩
  have hrun : (readRegsBuildReq .holdings a 1).run alloc c.tr
      = (some made.1, ⟨{ c.tr.req with pdu := made.2 }, c.tr.ans⟩) := by
    unfold BuildReq.run
    rw [show unsignedInt (readRegsBuildReq .holdings a 1).reqSize = 4 from rfl,
      hreq.resize (by omega), ← hmade]
    dsimp only
    rw [show unsignedInt (readRegsBuildReq .holdings a 1).ansSize = 3 from rfl,
      hans.resize (by omega)]
  have hzero : made.1 = 0 := by
    rw [← hmade, hmakes.built_iff]
    exact le_trans (by simp) hreq.room
  have hcarries : made.2.Carries 0x03 (Mem.be [a, 1]) := by
    rw [← hmade] at hzero ⊢
    exact hmakes.carries c.tr.req.pdu hzero
  obtain ⟨answer, hsent, hanswer⟩ := serve_readReg address h hm ha htx hcarries
  have htaken :
      (Proxy.doTransaction ⟨{ c.tr.req with pdu := made.2 }, c.tr.ans⟩ answer).1 = 0 := by
    rw [Proxy.doTransaction_zero_iff, hanswer.dataSize, hanswer.function]
    exact ⟨le_trans (by simp) hans.room, by simp, hcarries.function.symm⟩
  obtain ⟨-, hcopied⟩ := Proxy.doTransaction_taken htaken
  have hread := ProxyOp.RegIn.read ⟨2, [], by rw [hanswer.bytes, List.append_nil]⟩ hcopied
  unfold Remote.perform ProxyOp.call
  dsimp only
  rw [hrun]
  dsimp only
  rw [hsent]
  dsimp only
  rw [if_neg (not_not.2 htaken), hread, ProxyOp.and_one_shiftLeft_ne]
  rfl

theorem leaves_or (h : RegStore srv has shows) (hm : shows c.run.store m) (ha : has a)
    (htx : 6 ≤ c.run.txPdu.maxSize.toNat) (htr : c.tr.Takes6 alloc) (v : Word) :
    c.Leaves alloc srv address shows (.regOr a v.toNat) m a (m a.toNat ||| v) := by
  obtain ⟨c', hdone, -, -, -, hshows⟩ := perform_mask address h hm ha htx htr
    (.regOr a v.toNat) (~~~v) v (by simp [ProxyOp.call])
  rw [mask_or] at hshows
  exact ⟨c', hdone, hshows⟩

/-- `&=` leaves the bits that its operand does not have. -/
theorem leaves_and_not (h : RegStore srv has shows) (hm : shows c.run.store m) (ha : has a)
    (htx : 6 ≤ c.run.txPdu.maxSize.toNat) (htr : c.tr.Takes6 alloc) (v : Word) :
    c.Leaves alloc srv address shows (.regAnd a v.toNat) m a (m a.toNat &&& ~~~v) := by
  obtain ⟨c', hdone, -, -, -, hshows⟩ := perform_mask address h hm ha htx htr
    (.regAnd a v.toNat) (~~~v) 0 (by simp [ProxyOp.call])
  rw [mask_and] at hshows
  exact ⟨c', hdone, hshows⟩

/-- A register has one value when an operation is done. -/
theorem Remote.Leaves.unique (h : RegStore srv has shows) (ha : has a) {op : ProxyOp}
    {value value' : Word} (hl : c.Leaves alloc srv address shows op m a value)
    (hl' : c.Leaves alloc srv address shows op m a value') : value = value' := by
  obtain ⟨c', hdone, hshows⟩ := hl
  obtain ⟨c'', hdone', hshows'⟩ := hl'
  obtain rfl : c' = c'' := congrArg Prod.fst (hdone.symm.trans hdone')
  have hsame := h.unique hshows hshows' ha
  simpa [Mem.blit] using hsame

theorem setsBit (h : RegStore srv has shows) (hm : shows c.run.store m) (ha : has a)
    (htx : 6 ≤ c.run.txPdu.maxSize.toNat) (htr : c.tr.Takes6 alloc) {nbit : Byte}
    (hbit : nbit.toNat < 16) (b : Bool) :
    c.SetsBit alloc srv address shows m a nbit b := by
  obtain ⟨c', hdone, hreq, hans, htx', hshows⟩ := perform_mask address h hm ha htx htr
    (.regSetBit a nbit b) _ _ rfl
  refine ⟨c', _, hdone, fun i hi => mask_setBit nbit.toNat b hi, hshows, ?_⟩
  rw [perform_getBit address h hshows ha htx' hreq hans]
  have hvalue : ∀ y : Word, Mem.blit m a.toNat [y] a.toNat = y := fun y => by simp [Mem.blit]
  rw [hvalue, mask_setBit nbit.toNat b hbit, if_pos rfl]

end Perform

/-- In a transaction and a server with room for the request and the answer, `|=` and `set_bit` do
what they should, and `&=` does exactly if the register is zero. -/
theorem bits_mean_iff {alloc : ℕ → Bool} {σ : Type} {srv : EmbServer σ} {has : Word → Prop}
    {shows : σ → Mem Word → Prop} {address : Byte} {c : Remote σ} {m : Mem Word} {a : Word}
    (h : RegStore srv has shows) (hm : shows c.run.store m) (ha : has a)
    (htx : 6 ≤ c.run.txPdu.maxSize.toNat) (htr : c.tr.Takes6 alloc) (v : Word) (nbit : Byte)
    (hbit : nbit.toNat < 16) (b : Bool) :
    c.Leaves alloc srv address shows (.regOr a v.toNat) m a (m a.toNat ||| v)
      ∧ c.SetsBit alloc srv address shows m a nbit b
      ∧ (c.BitsMean alloc srv address shows m a v nbit b ↔ m a.toNat = 0) := by
  have hor := leaves_or address h hm ha htx htr v
  have hset := setsBit address h hm ha htx htr hbit b
  have hand := leaves_and_not address h hm ha htx htr v
  refine ⟨hor, hset, fun hmean => ?_, fun hzero => ⟨hor, ?_, hset⟩⟩
  · exact (and_not_eq_and_iff _ v).1 (hand.unique address h ha hmean.and)
  · rw [(and_not_eq_and_iff _ v).2 hzero] at hand
    exact hand

/-! ## The server's blocks -/

/-- The holding registers of a `server_t` whose blocks are laid out well are a store. -/
theorem serverT_regStore (l : RegsLayout) :
    RegStore serverT.toEmbServer (fun a => l.holdings.inside a.toNat 1 = true)
      (fun s m => ∃ inputs, RegsLaid l s ⟨m, inputs⟩) where
  block s m a := by
    rintro ⟨inputs, hlaid⟩ ha
    obtain ⟨block, hfind, hserves⟩ := hlaid.serves .holdings (n := 1) le_rfl ha
    obtain ⟨readRegs, hread, hvalues⟩ := hserves.read
    obtain ⟨writeRegs, hwrite, hstores⟩ := hserves.write rfl
    refine ⟨block, readRegs, writeRegs, hfind, hread, hwrite, hserves.fit, hvalues _ _ hlaid,
      fun value => ?_⟩
    obtain ⟨store, hstore, hlaid'⟩ := hstores _ _ hlaid [value] rfl
    exact ⟨store, hstore, inputs, hlaid'⟩

/-- A proxy that has not been used, and a server with one register whose bits are all set. -/
def fullRegister : Remote ServerT :=
  ⟨Proxy.fresh (0, 0), (SrvClient.fresh ⟨[], [], [⟨0, 1, [0xFFFF], rfl⟩], []⟩).run⟩

/-- The store of that server shows this memory. -/
def fullRegisterShows (s : ServerT) (m : Mem Word) : Prop :=
  ∃ inputs, RegsLaid fullRegister.run.store.regsLayout s ⟨m, inputs⟩

theorem fullRegister_shows :
    fullRegisterShows fullRegister.run.store fullRegister.run.store.flatRegs.holdings := by
  have hholdings : LaidOut fullRegister.run.store.holdings :=
    ⟨by decide, by decide, List.pairwise_singleton _ _⟩
  have hinputs : LaidOut fullRegister.run.store.inputRegs :=
    ⟨by decide, by decide, List.Pairwise.nil⟩
  exact ⟨_, hholdings.laid 0, hinputs.laid 0⟩

theorem fullRegister_takes6 : fullRegister.tr.Takes6 fun _ => true :=
  ⟨fun _ => rfl, fun _ => rfl, by decide, by decide⟩

theorem bits_mean_iff_fullRegister :
    let m := fullRegister.run.store.flatRegs.holdings
    fullRegister.Leaves (fun _ => true) serverT.toEmbServer 1 fullRegisterShows
        (.regOr 0 (0x00F0 : Word).toNat) m 0 (m 0 ||| 0x00F0)
      ∧ fullRegister.SetsBit (fun _ => true) serverT.toEmbServer 1 fullRegisterShows m 0 15 false
      ∧ (fullRegister.BitsMean (fun _ => true) serverT.toEmbServer 1 fullRegisterShows m 0 0x00F0
          15 false ↔ m 0 = 0) :=
  bits_mean_iff (serverT_regStore _) fullRegister_shows rfl (by decide) fullRegister_takes6 0x00F0
    15 (by decide) false

/-- The register is 0xFFFF, and `&= 0x00F0` leaves 0xFF0F in it. -/
theorem and_clears_operand :
    let m := fullRegister.run.store.flatRegs.holdings
    fullRegisterShows fullRegister.run.store m ∧ m 0 = 0xFFFF
      ∧ fullRegister.Leaves (fun _ => true) serverT.toEmbServer 1 fullRegisterShows
        (.regAnd 0 (0x00F0 : Word).toNat) m 0 0xFF0F
      ∧ ¬ fullRegister.BitsMean (fun _ => true) serverT.toEmbServer 1 fullRegisterShows m 0 0x00F0
        15 false := by
  have hin : fullRegister.run.store.regsLayout.holdings.inside (0 : Word).toNat 1 = true := rfl
  have hand := leaves_and_not 1 (serverT_regStore _) fullRegister_shows hin (by decide)
    fullRegister_takes6 0x00F0
  refine ⟨fullRegister_shows, rfl, hand, fun hmean => ?_⟩
  have hsame := hand.unique 1 (serverT_regStore _) hin hmean.and
  exact absurd hsame (by decide)

end Emodbus
