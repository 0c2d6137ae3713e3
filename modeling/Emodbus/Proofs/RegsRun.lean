import Emodbus.Proofs.ClientRegs
import Emodbus.Proofs.ServerRegs
import Emodbus.Proofs.ServerT

/-!
# Registers are a flat memory

For each kind of request, its handler on the server's blocks does what the flat registers do
(`Handled`), and the client's getters tell the flat answer.  One step of both machines follows, and
from it every run.
-/

namespace Emodbus

open Octets Mealy

/-! ## The client's getters -/

section Getters

variable {p : EmbPdu} {f : Byte} {n : Word} {values : List Word}

theorem regs_decoded (hp : p.Carries f ([BitVec.ofNat 8 (n.toNat * 2)] ++ Mem.be values))
    (hn : n.toNat ≤ 125) (hlen : values.length = n.toNat) :
    p.dataSize.toNat = 1 + n.toNat * 2 ∧ (p.data 0 >>> 1).toNat = n.toNat
      ∧ (List.range n.toNat).map (fun i => getSwapped p (1 + 2 * i)) = values := by
  have h0 : p.data 0 = BitVec.ofNat 8 (n.toNat * 2) :=
    EmbPdu.Carries.byte [] (Mem.be values) hp
  have hp' : p.Carries f ([BitVec.ofNat 8 (n.toNat * 2)] ++ Mem.be values ++ []) := by
    rw [List.append_nil]
    exact hp
  have h1 : Mem.beWords p.data 1 values.length = values := hp'.words
  refine ⟨?_, ?_, ?_⟩
  · rw [hp.dataSize, List.length_append, Mem.length_be, hlen, List.length_singleton]
    omega
  · rw [h0, BitVec.toNat_ushiftRight, dataSize_of_lt (by omega), Nat.shiftRight_eq_div_pow]
    omega
  · rw [← hlen]
    conv_rhs => rw [← h1]
    refine List.map_congr_left fun i _ => ?_
    rw [getSwapped_eq, getBigEnd16_eq]

theorem words_decoded {a b : Word} (hp : p.Carries f (Mem.be [a, b])) :
    p.dataSize.toNat = 4 ∧ getSwapped p 0 = a ∧ getSwapped p 2 = b := by
  rw [getSwapped_eq, getSwapped_eq]
  exact ⟨hp.dataSize, two_words hp⟩

theorem mask_decoded {a b c : Word} (hp : p.Carries f (Mem.be [a, b, c])) :
    p.dataSize.toNat = 6 ∧ getSwapped p 0 = a ∧ getSwapped p 2 = b ∧ getSwapped p 4 = c := by
  rw [getSwapped_eq, getSwapped_eq, getSwapped_eq]
  exact ⟨hp.dataSize, three_words hp⟩

end Getters

/-! ## The blocks of a table -/

/-- The callback that looks for the blocks of the table. -/
def getTable : EmbRrType → Option (Word → ServerT → Option (EmbSrvRegs ServerT))
  | .holdings => some ServerT.getHoldingRegs
  | .inputs => some ServerT.getInputRegs

/-- In every store that is the flat registers, the block's callbacks read and write them. -/
structure Serves (l : RegsLayout) (type : EmbRrType) (block : EmbSrvRegs ServerT) (a n : Word) :
    Prop where
  fit : a.toNat + n.toNat ≤ block.start.toNat + block.size.toNat
  read : ∃ readRegs, block.readRegs = some readRegs ∧ ∀ s m, RegsLaid l s m →
    readRegs (a - block.start) n s = (0, Mem.slice (m.table type) a.toNat n.toNat, s)
  write : type = .holdings → ∃ writeRegs, block.writeRegs = some writeRegs ∧
    ∀ s m, RegsLaid l s m → ∀ values : List Word, values.length = n.toNat →
      ∃ store, writeRegs (a - block.start) n values s = (0, store)
        ∧ RegsLaid l store { m with holdings := Mem.blit m.holdings a.toNat values }

section Tables

variable {l : RegsLayout} {m : FlatRegs} {s : ServerT}

theorem RegsLaid.serves (hl : RegsLaid l s m) (type : EmbRrType) {a n : Word} (hn : 1 ≤ n.toNat)
    (h : (l.table type).inside a.toNat n.toNat = true) :
    ∃ block, lookUp (getTable type) a s = .ok block ∧ Serves l type block a n := by
  cases type with
  | holdings =>
    obtain ⟨b, k, hfind, hk, h1, h2⟩ :=
      lookUp_inside ServerT.holdings ServerT.holdingsOf hl.holdings hn h
    refine ⟨_, hfind, h2, ⟨_, rfl, ?_⟩, fun _ => ⟨_, rfl, ?_⟩⟩
    · intro s' m' hl'
      obtain ⟨b', hk', hstart, hsize⟩ := hl.holdings.place hl'.holdings hk
      have h1' : b'.start.toNat ≤ a.toNat := by rwa [hstart]
      have h2' : a.toNat + n.toNat ≤ b'.start.toNat + b'.size.toNat := by rwa [hstart, hsize]
      have hread := hl'.holdings.onReadRegs hk' h1' h2'
      rw [hstart] at hread
      exact congrArg (fun v => ((0 : Byte), v, s')) hread
    · intro s' m' hl' values hlen
      obtain ⟨b', hk', hstart, hsize⟩ := hl.holdings.place hl'.holdings hk
      have h1' : b'.start.toNat ≤ a.toNat := by rwa [hstart]
      have h2' : a.toNat + n.toNat ≤ b'.start.toNat + b'.size.toNat := by rwa [hstart, hsize]
      have hwrite := hl'.holdings.onWriteRegs hk' hlen h1' h2'
      rw [hstart] at hwrite
      exact ⟨_, rfl, hwrite, hl'.inputs⟩
  | inputs =>
    obtain ⟨b, k, hfind, hk, h1, h2⟩ :=
      lookUp_inside ServerT.inputRegs ServerT.inputRegsOf hl.inputs hn h
    refine ⟨_, hfind, h2, ⟨_, rfl, ?_⟩, fun htype => nomatch htype⟩
    intro s' m' hl'
    obtain ⟨b', hk', hstart, hsize⟩ := hl.inputs.place hl'.inputs hk
    have h1' : b'.start.toNat ≤ a.toNat := by rwa [hstart]
    have h2' : a.toNat + n.toNat ≤ b'.start.toNat + b'.size.toNat := by rwa [hstart, hsize]
    have hread := hl'.inputs.onReadRegs hk' h1' h2'
    rw [hstart] at hread
    exact congrArg (fun v => ((0 : Byte), v, s')) hread

theorem RegsLaid.outOfBlocks (hl : RegsLaid l s m) (type : EmbRrType) {a : Word} {n : ℕ}
    (h : (l.table type).inside a.toNat n = false) :
    OutOfBlocks EmbSrvRegs.stop (lookUp (getTable type) a s) a.toNat n := by
  cases type with
  | holdings =>
    rcases lookUp_outside ServerT.holdings ServerT.holdingsOf hl.holdings h
      with hnone | ⟨b, k, hfind, hlt⟩
    · exact .inl hnone
    · exact .inr ⟨_, hfind, hlt⟩
  | inputs =>
    rcases lookUp_outside ServerT.inputRegs ServerT.inputRegsOf hl.inputs h
      with hnone | ⟨b, k, hfind, hlt⟩
    · exact .inl hnone
    · exact .inr ⟨_, hfind, hlt⟩

theorem RegsLaid.no_holding (hl : RegsLaid l s m) {a : Word}
    (h : l.holdings.inside a.toNat 1 = false) :
    lookUp serverT.getHoldingRegs a s = .error mbeIllegalDataAddr :=
  lookUp_outside_one ServerT.holdings ServerT.holdingsOf hl.holdings h

end Tables

/-! ## The handlers -/

/-- The handler does to the server's blocks what the request does to the flat registers, and its
answer is the flat one to the client. -/
inductive Handled (l : RegsLayout) (m : FlatRegs) (request : RegsRequest) (r : SrvRun ServerT)
    (res : Byte × SrvRun ServerT) : Prop
  | refused (hres : res = (mbeIllegalDataAddr, r))
      (hflat : flatRegsStep l m request = (m, .exception (-(2 + embExceptionBase))))
  | answered (bytes : List Byte) (store : ServerT)
      (hres : Answered res request.function bytes store)
      (hlaid : RegsLaid l store (flatRegsStep l m request).1)
      (hanswer : ∀ p : EmbPdu, p.Carries request.function bytes →
        request.getters p = (flatRegsStep l m request).2)

section Handlers

variable {l : RegsLayout} {m : FlatRegs} {r : SrvRun ServerT}

theorem readRegs_handled {type : EmbRrType} {a n : Word} (hl : RegsLaid l r.store m)
    (htx : r.txPdu.maxSize = 253) (hn : 1 ≤ n.toNat ∧ n.toNat ≤ 125)
    (hreq : r.rxPdu.Carries (RegsRequest.readRegs type a n).function
      (RegsRequest.readRegs type a n).bytes) :
    Handled l m (.readRegs type a n) r (embSrvReadRegs serverT.toEmbServer r) := by
  have hget : regsGetter serverT.toEmbServer (RegsRequest.readRegs type a n).function
      = getTable type := by
    cases type <;> rfl
  by_cases h : (l.table type).inside a.toNat n.toNat = true
  · obtain ⟨block, hfind, hserves⟩ := hl.serves type hn.1 h
    obtain ⟨readRegs, hread, hvalues⟩ := hserves.read
    have hlen := Mem.length_slice (m.table type) a.toNat n.toNat
    have hflat : flatRegsStep l m (.readRegs type a n)
        = (m, .regs (embReadRegsCalcAnswerDataSize n) n.toNat
          (Mem.slice (m.table type) a.toNat n.toNat)) := if_pos h
    have hans := embSrvReadRegs_answered serverT.toEmbServer hreq hn htx
      (by rw [hget]; exact hfind) hserves.fit hread (hvalues _ _ hl) hlen
    refine .answered _ _ hans (by rw [hflat]; exact hl) fun p hp => ?_
    obtain ⟨hsize, hcount, hregs⟩ := regs_decoded hp hn.2 hlen
    unfold RegsRequest.getters embReadRegsGetRegsN embReadRegsGetReg
    dsimp only
    rw [hflat, hsize, hcount, hregs, embReadRegsCalcAnswerDataSize, if_pos hn, readHoldingsAnsSize]
  · have hflat : flatRegsStep l m (.readRegs type a n)
        = (m, .exception (-(2 + embExceptionBase))) := if_neg h
    rw [Bool.not_eq_true] at h
    have hout := hl.outOfBlocks type h
    exact .refused (embSrvReadRegs_refused serverT.toEmbServer hreq hn (by rw [hget]; exact hout))
      hflat

theorem writeReg_handled {a value : Word} (hl : RegsLaid l r.store m)
    (htx : r.txPdu.maxSize = 253)
    (hreq : r.rxPdu.Carries (RegsRequest.writeReg a value).function
      (RegsRequest.writeReg a value).bytes) :
    Handled l m (.writeReg a value) r (embSrvWriteReg serverT.toEmbServer r) := by
  by_cases h : l.holdings.inside a.toNat 1 = true
  · obtain ⟨block, hfind, hserves⟩ := hl.serves .holdings (n := 1) le_rfl h
    obtain ⟨writeRegs, hwrite, hstore⟩ := hserves.write rfl
    obtain ⟨store, hstore, hlaid⟩ := hstore _ _ hl [value] rfl
    have hflat : flatRegsStep l m (.writeReg a value)
        = ({ m with holdings := Mem.blit m.holdings a.toNat [value] },
          .written embWriteRegCalcAnswerDataSize [a, value]) := if_pos h
    refine .answered _ store
      (embSrvWriteReg_answered serverT.toEmbServer hreq htx hfind hwrite hstore)
      (by rw [hflat]; exact hlaid) fun p hp => ?_
    obtain ⟨hsize, h0, h2⟩ := words_decoded hp
    unfold RegsRequest.getters embWriteRegGetAddress embWriteRegGetValue
    dsimp only
    rw [hflat, hsize, h0, h2]
    rfl
  · have hflat : flatRegsStep l m (.writeReg a value)
        = (m, .exception (-(2 + embExceptionBase))) := if_neg h
    rw [Bool.not_eq_true] at h
    exact .refused (embSrvWriteReg_refused serverT.toEmbServer hreq (hl.no_holding h)) hflat

theorem writeRegs_handled {a n : Word} {data : Mem Word} (hl : RegsLaid l r.store m)
    (htx : r.txPdu.maxSize = 253) (hn : 1 ≤ n.toNat ∧ n.toNat ≤ 123)
    (hreq : r.rxPdu.Carries (RegsRequest.writeRegs a n data).function
      (RegsRequest.writeRegs a n data).bytes) :
    Handled l m (.writeRegs a n data) r (embSrvWriteRegs serverT.toEmbServer r) := by
  have hlen := Mem.length_slice data 0 n.toNat
  by_cases h : l.holdings.inside a.toNat n.toNat = true
  · obtain ⟨block, hfind, hserves⟩ := hl.serves .holdings hn.1 h
    obtain ⟨writeRegs, hwrite, hstore⟩ := hserves.write rfl
    obtain ⟨store, hstore, hlaid⟩ := hstore _ _ hl _ hlen
    have hflat : flatRegsStep l m (.writeRegs a n data)
        = ({ m with holdings := Mem.blit m.holdings a.toNat (Mem.slice data 0 n.toNat) },
          .written embWriteRegsCalcAnswerDataSize [a, n]) := if_pos h
    have hans := embSrvWriteRegs_answered serverT.toEmbServer hreq hn hlen htx hfind hserves.fit
      hwrite hstore
    refine .answered _ store hans (by rw [hflat]; exact hlaid) fun p hp => ?_
    obtain ⟨hsize, h0, h2⟩ := words_decoded hp
    unfold RegsRequest.getters embWriteRegsGetAnswerAddress embWriteRegsGetAnswerQuantity
    dsimp only
    rw [hflat, hsize, h0, h2]
    rfl
  · have hflat : flatRegsStep l m (.writeRegs a n data)
        = (m, .exception (-(2 + embExceptionBase))) := if_neg h
    rw [Bool.not_eq_true] at h
    exact .refused (embSrvWriteRegs_refused serverT.toEmbServer hreq hn hlen
      (hl.outOfBlocks .holdings h)) hflat

theorem writeMaskReg_handled {a andMask orMask : Word} (hl : RegsLaid l r.store m)
    (htx : r.txPdu.maxSize = 253)
    (hreq : r.rxPdu.Carries (RegsRequest.writeMaskReg a andMask orMask).function
      (RegsRequest.writeMaskReg a andMask orMask).bytes) :
    Handled l m (.writeMaskReg a andMask orMask) r (embSrvMaskReg serverT.toEmbServer r) := by
  by_cases h : l.holdings.inside a.toNat 1 = true
  · obtain ⟨block, hfind, hserves⟩ := hl.serves .holdings (n := 1) le_rfl h
    obtain ⟨readRegs, hread, hvalues⟩ := hserves.read
    obtain ⟨writeRegs, hwrite, hstore⟩ := hserves.write rfl
    obtain ⟨store, hstore, hlaid⟩ := hstore _ _ hl
      [(m.holdings a.toNat &&& andMask) ||| (orMask &&& ~~~andMask)] rfl
    have hflat : flatRegsStep l m (.writeMaskReg a andMask orMask)
        = (⟨Mem.blit m.holdings a.toNat
            [(m.holdings a.toNat &&& andMask) ||| (orMask &&& ~~~andMask)], m.inputs⟩,
          .written embWriteMaskRegCalcAnswerDataSize [a, andMask, orMask]) := if_pos h
    have hans := embSrvMaskReg_answered serverT.toEmbServer hreq htx hfind hread hwrite
      (hvalues _ _ hl) hstore
    refine .answered _ store hans (by rw [hflat]; exact hlaid) fun p hp => ?_
    obtain ⟨hsize, h0, h2, h4⟩ := mask_decoded hp
    unfold RegsRequest.getters embWriteMaskRegGetAddress embWriteMaskRegGetAndMask
      embWriteMaskRegGetOrMask
    dsimp only
    rw [hflat, hsize, h0, h2, h4]
    rfl
  · have hflat : flatRegsStep l m (.writeMaskReg a andMask orMask)
        = (m, .exception (-(2 + embExceptionBase))) := if_neg h
    rw [Bool.not_eq_true] at h
    exact .refused (embSrvMaskReg_refused serverT.toEmbServer hreq (hl.no_holding h)) hflat

theorem rdwrRegs_handled {ra rn wa wn : Word} {data : Mem Word} (hl : RegsLaid l r.store m)
    (htx : r.txPdu.maxSize = 253) (hrn : 1 ≤ rn.toNat ∧ rn.toNat ≤ 125)
    (hwn : 1 ≤ wn.toNat ∧ wn.toNat ≤ 121)
    (hreq : r.rxPdu.Carries (RegsRequest.rdwrRegs ra rn wa wn data).function
      (RegsRequest.rdwrRegs ra rn wa wn data).bytes) :
    Handled l m (.rdwrRegs ra rn wa wn data) r (embSrvReadWriteRegs serverT.toEmbServer r) := by
  have hlen := Mem.length_slice data 0 wn.toNat
  by_cases hw : l.holdings.inside wa.toNat wn.toNat = true
  · obtain ⟨wrRegs, hwr, hwrServes⟩ := hl.serves .holdings hwn.1 hw
    obtain ⟨writeRegs, hwrite, hstore⟩ := hwrServes.write rfl
    obtain ⟨store, hstore, hlaid⟩ := hstore _ _ hl _ hlen
    by_cases hr : l.holdings.inside ra.toNat rn.toNat = true
    · obtain ⟨rdRegs, hrd, hrdServes⟩ := hl.serves .holdings hrn.1 hr
      obtain ⟨readRegs, hread, hvalues⟩ := hrdServes.read
      have hvlen := Mem.length_slice
        (Mem.blit m.holdings wa.toNat (Mem.slice data 0 wn.toNat)) ra.toNat rn.toNat
      have hflat : flatRegsStep l m (.rdwrRegs ra rn wa wn data)
          = ({ m with holdings := Mem.blit m.holdings wa.toNat (Mem.slice data 0 wn.toNat) },
            .regs (embRdwrRegsCalcAnswerDataSize rn) rn.toNat
              (Mem.slice (Mem.blit m.holdings wa.toNat (Mem.slice data 0 wn.toNat)) ra.toNat
                rn.toNat)) := if_pos ⟨hw, hr⟩
      -- the read callback works on the store that the write has left
      have hans := embSrvReadWriteRegs_answered serverT.toEmbServer hreq hrn hwn hlen htx hwr
        hwrServes.fit hwrite hrd hrdServes.fit hread hstore (hvalues _ _ hlaid) hvlen
      refine .answered _ store hans (by rw [hflat]; exact hlaid) fun p hp => ?_
      obtain ⟨hsize, hcount, hregs⟩ := regs_decoded hp hrn.2 hvlen
      unfold RegsRequest.getters embRdwrRegsGetAnswRegsN embRdwrRegsGetAnswReg
      dsimp only
      rw [hflat, hsize, hcount, hregs]
      rfl
    · have hflat : flatRegsStep l m (.rdwrRegs ra rn wa wn data)
          = (m, .exception (-(2 + embExceptionBase))) := if_neg fun hboth => hr hboth.2
      rw [Bool.not_eq_true] at hr
      have hout := hl.outOfBlocks .holdings hr
      exact .refused (embSrvReadWriteRegs_refused serverT.toEmbServer hreq hrn hwn hlen
        (.inr ⟨hout, wrRegs, hwr, hwrServes.fit, by rw [hwrite]; rfl⟩)) hflat
  · have hflat : flatRegsStep l m (.rdwrRegs ra rn wa wn data)
        = (m, .exception (-(2 + embExceptionBase))) := if_neg fun hboth => hw hboth.1
    rw [Bool.not_eq_true] at hw
    have hout := hl.outOfBlocks .holdings hw
    exact .refused (embSrvReadWriteRegs_refused serverT.toEmbServer hreq hrn hwn hlen (.inl hout))
      hflat

/-- The function the server has for a request is the handler of its kind. -/
theorem RegsRequest.handler (request : RegsRequest) :
    ∃ func : EmbSrvFunction ServerT, getFunction request.function = some func
      ∧ ∀ {l : RegsLayout} {m : FlatRegs} {r : SrvRun ServerT}, RegsLaid l r.store m →
        r.txPdu.maxSize = 253 → request.InRange → r.rxPdu.Carries request.function request.bytes →
        Handled l m request r (func.call serverT.toEmbServer r) := by
  cases request with
  | readRegs type a n =>
    refine ⟨⟨embSrvReadRegs, embSrvReadRegs_sameMax⟩, by cases type <;> rfl, ?_⟩
    exact fun hl htx hin hreq => readRegs_handled hl htx hin hreq
  | writeReg a value =>
    refine ⟨⟨embSrvWriteReg, embSrvWriteReg_sameMax⟩, rfl, ?_⟩
    exact fun hl htx _ hreq => writeReg_handled hl htx hreq
  | writeRegs a n data =>
    refine ⟨⟨embSrvWriteRegs, embSrvWriteRegs_sameMax⟩, rfl, ?_⟩
    exact fun hl htx hin hreq => writeRegs_handled hl htx hin hreq
  | writeMaskReg a andMask orMask =>
    refine ⟨⟨embSrvMaskReg, embSrvMaskReg_sameMax⟩, rfl, ?_⟩
    exact fun hl htx _ hreq => writeMaskReg_handled hl htx hreq
  | rdwrRegs ra rn wa wn data =>
    refine ⟨⟨embSrvReadWriteRegs, embSrvReadWriteRegs_sameMax⟩, rfl, ?_⟩
    exact fun hl htx hin hreq => rdwrRegs_handled hl htx hin.1 hin.2 hreq

end Handlers

/-! ## One request -/

theorem superServerT_asks {address : Byte} {r : SrvRun ServerT} {func : EmbSrvFunction ServerT}
    (hfunc : getFunction r.rxPdu.function = some func) :
    (superServerT address).Asks address.toNat r serverT func where
  getServer := by
    refine ⟨_, rfl, ?_⟩
    have haddr : BitVec.ofInt 8 (address.toNat : ℤ) = address := by
      rw [BitVec.ofInt_natCast, BitVec.ofNat_toNat, BitVec.setWidth_eq]
    rw [if_pos haddr]
  getFunction := ⟨_, rfl, hfunc⟩
  unicast := rfl

theorem RegsRequest.no_exception (request : RegsRequest) : request.function &&& 0x80 = 0 := by
  cases request with
  | readRegs type => cases type <;> simp [function]
  | _ => simp [function]

/-- Serving a request leaves the rooms of the server's PDUs as they are. -/
theorem SrvClient.FullSize.serve {address : Byte} {c : SrvClient} (h : c.FullSize) :
    SrvClient.FullSize ⟨c.req, (c.serve address).run⟩ := by
  have hmax := onReceiveReq_sameMax (superServerT address) address.toNat c.received
  exact ⟨hmax.rx.trans h.rx, hmax.tx.trans h.tx⟩

/-- A request that the handler refuses, as it is served. -/
theorem serve_refused (address : Byte) {c : SrvClient} {func : EmbSrvFunction ServerT}
    (hfull : c.FullSize) (hfunc : getFunction c.req.function = some func)
    (hres : func.call serverT.toEmbServer c.received = (mbeIllegalDataAddr, c.received)) :
    ∃ answer, (c.serve address).sent = [(↑address.toNat, answer)]
      ∧ embCheckPduForException answer = -(2 + embExceptionBase)
      ∧ (c.serve address).run.store = c.run.store := by
  have hasks : (superServerT address).Asks address.toNat c.received serverT func :=
    superServerT_asks hfunc
  have hroom : 1 ≤ c.received.txPdu.maxSize.toNat := by
    change 1 ≤ c.run.txPdu.maxSize.toNat
    rw [hfull.tx]
    simp
  exact onReceiveReq_refused hasks hroom mbeIllegalDataAddr (by decide) hres

/-- A request that the handler answers, as it is served. -/
theorem serve_answered (address : Byte) {c : SrvClient} {func : EmbSrvFunction ServerT}
    (hfunc : getFunction c.req.function = some func) {function : Byte}
    (hfun : function &&& 0x80 = 0) {bytes : List Byte} {store : ServerT}
    (hres : Answered (func.call serverT.toEmbServer c.received) function bytes store) :
    ∃ answer, (c.serve address).sent = [(↑address.toNat, answer)]
      ∧ embCheckPduForException answer = 0 ∧ answer.Carries function bytes
      ∧ (c.serve address).run.store = store := by
  have hasks : (superServerT address).Asks address.toNat c.received serverT func :=
    superServerT_asks hfunc
  exact onReceiveReq_answered hasks hfun hres

variable {l : RegsLayout} {address : Byte}

theorem regsStep_eq {c c' : SrvClient} {request : RegsRequest} {answer : EmbPdu}
    (hc' : { c with req := (request.makeReq c.req).2 } = c')
    (hsent : (c'.serve address).sent = [(↑address.toNat, answer)]) :
    regsStep address c request
      = (⟨c'.req, (c'.serve address).run⟩, request.decode c'.req answer) := by
  subst hc'
  unfold regsStep
  dsimp only
  rw [hsent]

theorem regsStep_refines {c : SrvClient} {m : FlatRegs} {request : RegsRequest}
    (h : RegsFlat l c m) (hq : (request.makeReq c.req).1 = 0) :
    (regsStep address c request).2 = (flatRegsStep l m request).2
      ∧ RegsFlat l (regsStep address c request).1 (flatRegsStep l m request).1 := by
  have hbuilt := RegsRequest.built hq
  obtain ⟨c', hc'⟩ : ∃ c' : SrvClient, { c with req := (request.makeReq c.req).2 } = c' :=
    ⟨_, rfl⟩
  have hreq : c'.req.Carries request.function request.bytes := by
    rw [← hc']
    exact hbuilt.carries
  have hfull : c'.FullSize := by
    rw [← hc']
    exact ⟨h.fullSize.rx, h.fullSize.tx⟩
  have hlaid : RegsLaid l c'.run.store m := by
    rw [← hc']
    exact h.laid
  obtain ⟨func, hfunc, hhandled⟩ := request.handler
  rw [← hreq.function] at hfunc
  cases hhandled (r := c'.received) hlaid hfull.tx hbuilt.inRange (hreq.receive _) with
  | refused hres hflat =>
    obtain ⟨answer, hsent, herrno, hstore⟩ := serve_refused address hfull hfunc hres
    rw [regsStep_eq hc' hsent, hflat]
    refine ⟨?_, hfull.serve, ?_⟩
    · unfold RegsRequest.decode
      dsimp only
      rw [herrno, if_pos (by decide)]
    · dsimp only
      rw [hstore]
      exact hlaid
  | answered bytes store hres hlaid' hanswer =>
    obtain ⟨answer, hsent, herrno, hans, hstore⟩ :=
      serve_answered address hfunc request.no_exception hres
    rw [regsStep_eq hc' hsent]
    refine ⟨?_, hfull.serve, ?_⟩
    · unfold RegsRequest.decode
      dsimp only
      rw [herrno, if_neg (not_not.2 rfl), hans.function, hreq.function, if_neg (not_not.2 rfl)]
      exact hanswer _ hans
    · dsimp only
      rw [hstore]
      exact hlaid'

/-! ## Every run -/

/-- Requests that are built without an error, to a server whose blocks are laid out well: every
answer is the flat registers', and so are the registers that are left. -/
theorem regs_refine_flat (requests : List RegsRequest) {c : SrvClient} (hfull : c.FullSize)
    (hholdings : LaidOut c.run.store.holdings) (hinputs : LaidOut c.run.store.inputRegs)
    (hq : Along (regsStep address) (fun c request => (request.makeReq c.req).1 = 0) c requests) :
    let l := c.run.store.regsLayout
    let m := c.run.store.flatRegs
    (run (regsStep address) c requests).2 = (run (flatRegsStep l) m requests).2
      ∧ RegsFlat l (run (regsStep address) c requests).1 (run (flatRegsStep l) m requests).1 := by
  have hlaid : RegsLaid c.run.store.regsLayout c.run.store c.run.store.flatRegs :=
    ⟨hholdings.laid 0, hinputs.laid 0⟩
  refine run_refines ?_ requests c _ ⟨hfull, hlaid⟩ hq
  intro c' m request hR hQ
  exact regsStep_refines hR hQ

/-- A block at the top of the address space, written and read back across the end of it. -/
theorem regs_refine_flat_top :
    let c := SrvClient.fresh ⟨[], [], [⟨65534, 2, [7, 8], rfl⟩], []⟩
    let requests : List RegsRequest := [.writeReg 65535 5, .readRegs .holdings 65534 2,
      .readRegs .holdings 65535 2]
    (run (regsStep 1) c requests).2
      = (run (flatRegsStep c.run.store.regsLayout) c.run.store.flatRegs requests).2 := by
  intro c requests
  have hfull : c.FullSize := ⟨rfl, rfl⟩
  have hholdings : LaidOut c.run.store.holdings :=
    ⟨by decide, by decide, List.pairwise_singleton _ _⟩
  have hinputs : LaidOut c.run.store.inputRegs := ⟨by decide, by decide, List.Pairwise.nil⟩
  have hbuilt : Along (regsStep 1) (fun c request => (request.makeReq c.req).1 = 0) c requests :=
    ⟨rfl, rfl, rfl, trivial⟩
  exact (regs_refine_flat requests hfull hholdings hinputs hbuilt).1

end Emodbus
