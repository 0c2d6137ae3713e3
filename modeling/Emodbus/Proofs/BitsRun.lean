import Emodbus.Proofs.ClientBits
import Emodbus.Proofs.RegsRun

/-!
# Coils and discrete inputs are a flat memory

As `Proofs.RegsRun` is for registers: what each handler does, one step of both machines, every run.
The loops that pack and unpack meet at `pack` and `unpack`.
-/

namespace Emodbus

open Octets Mealy

/-! ## A block of bits -/

section Bits

variable {blocks : List (SrvBlock Bool)} {ranges : Ranges} {m : Mem Bool} {b : SrvBlock Bool}
  {k : ℕ} {addr quantity : Word}

theorem Laid.onReadCoils (hl : Laid blocks ranges m) (hk : blocks[k]? = some b)
    (h1 : b.start.toNat ≤ addr.toNat)
    (h2 : addr.toNat + quantity.toNat ≤ b.start.toNat + b.size.toNat) :
    askBlock blocks k (·.onReadCoils (addr - b.start) quantity)
      = pack (fun i => m (addr.toNat + i)) quantity.toNat := by
  rw [askBlock_eq hk]
  unfold SrvBlock.onReadCoils
  rw [packLoop_eq _ _ _ _ le_rfl, offset_toNat h1]
  refine pack_congr fun i hi => ?_
  have hholds : b.values = Mem.slice m b.start.toNat b.values.length := hl.holds hk
  have hlt : addr.toNat - b.start.toNat + i < b.values.length := by
    rw [b.length_values]
    omega
  have hplace : addr.toNat - b.start.toNat + (0 * 8 + i) = addr.toNat - b.start.toNat + i := by
    omega
  have haddr : b.start.toNat + (addr.toNat - b.start.toNat + i) = addr.toNat + i := by omega
  rw [hplace, List.getD_eq_getElem?_getD, hholds, Mem.getElem?_slice _ hlt, Option.getD_some, haddr]

theorem Laid.onWriteCoils (hl : Laid blocks ranges m) (hk : blocks[k]? = some b)
    (pvalues : List Byte) (h1 : b.start.toNat ≤ addr.toNat)
    (h2 : addr.toNat + quantity.toNat ≤ b.start.toNat + b.size.toNat) :
    Laid (changeBlock blocks k (·.onWriteCoils (addr - b.start) quantity pvalues)) ranges
      (Mem.blit m addr.toNat (unpack pvalues quantity.toNat)) := by
  refine hl.change hk rfl rfl ?_ h1 (by rwa [length_unpack])
  change unpackLoop pvalues (addr - b.start).toNat _ 0 _ b.values = _
  rw [unpackLoop_eq _ _ _ _ _ _ le_rfl, offset_toNat h1]
  simp only [Nat.zero_mul, Nat.zero_add, Nat.add_zero]
  rfl

end Bits

/-! ## The blocks of a table -/

/-- The callback that looks for the blocks of the table. -/
def getBitsTable : EmbRbType → Option (Word → ServerT → Option (EmbSrvBits ServerT))
  | .coils => some ServerT.getCoils
  | .discreteInputs => some ServerT.getDiscreteInputs

section Tables

variable {l : BitsLayout} {m : FlatBits} {s : ServerT}

/-- A block that is found for a range in it reads the flat bits. -/
theorem BitsLaid.reads (hl : BitsLaid l s m) (type : EmbRbType) {a n : Word} (hn : 1 ≤ n.toNat)
    (h : (l.table type).inside a.toNat n.toNat = true) :
    ∃ block readBits, lookUp (getBitsTable type) a s = .ok block
      ∧ a.toNat + n.toNat ≤ block.start.toNat + block.size.toNat
      ∧ block.readBits = some readBits
      ∧ readBits (a - block.start) n s
        = (0, pack (fun i => m.table type (a.toNat + i)) n.toNat, s) := by
  cases type with
  | coils =>
    obtain ⟨b, k, hfind, hk, h1, h2⟩ :=
      lookUp_inside ServerT.coils ServerT.coilsOf hl.coils hn h
    exact ⟨_, _, hfind, h2, rfl,
      congrArg (fun v => ((0 : Byte), v, s)) (hl.coils.onReadCoils hk h1 h2)⟩
  | discreteInputs =>
    obtain ⟨b, k, hfind, hk, h1, h2⟩ :=
      lookUp_inside ServerT.discreteInputs ServerT.discreteInputsOf hl.inputs hn h
    exact ⟨_, _, hfind, h2, rfl,
      congrArg (fun v => ((0 : Byte), v, s)) (hl.inputs.onReadCoils hk h1 h2)⟩

/-- A block of coils that is found for a range in it writes the flat ones. -/
theorem BitsLaid.writes (hl : BitsLaid l s m) {a n : Word} (hn : 1 ≤ n.toNat)
    (h : l.coils.inside a.toNat n.toNat = true) (pvalues : List Byte) :
    ∃ block writeBits store, lookUp serverT.getCoils a s = .ok block
      ∧ a.toNat + n.toNat ≤ block.start.toNat + block.size.toNat
      ∧ block.writeBits = some writeBits
      ∧ writeBits (a - block.start) n pvalues s = (0, store)
      ∧ BitsLaid l store
        { m with coils := Mem.blit m.coils a.toNat (unpack pvalues n.toNat) } := by
  obtain ⟨b, k, hfind, hk, h1, h2⟩ :=
    lookUp_inside ServerT.coils ServerT.coilsOf hl.coils hn h
  exact ⟨_, _, _, hfind, h2, rfl, rfl, hl.coils.onWriteCoils hk pvalues h1 h2, hl.inputs⟩

theorem BitsLaid.outOfBlocks (hl : BitsLaid l s m) (type : EmbRbType) {a : Word} {n : ℕ}
    (h : (l.table type).inside a.toNat n = false) :
    OutOfBlocks EmbSrvBits.stop (lookUp (getBitsTable type) a s) a.toNat n := by
  cases type with
  | coils =>
    rcases lookUp_outside ServerT.coils ServerT.coilsOf hl.coils h
      with hnone | ⟨b, k, hfind, hlt⟩
    · exact .inl hnone
    · exact .inr ⟨_, hfind, hlt⟩
  | discreteInputs =>
    rcases lookUp_outside ServerT.discreteInputs ServerT.discreteInputsOf hl.inputs h
      with hnone | ⟨b, k, hfind, hlt⟩
    · exact .inl hnone
    · exact .inr ⟨_, hfind, hlt⟩

theorem BitsLaid.no_coil (hl : BitsLaid l s m) {a : Word}
    (h : l.coils.inside a.toNat 1 = false) :
    lookUp serverT.getCoils a s = .error mbeIllegalDataAddr :=
  lookUp_outside_one ServerT.coils ServerT.coilsOf hl.coils h

end Tables

/-! ## The handlers -/

/-- The handler does to the server's blocks what the request does to the flat bits, and its answer
is the flat one to the client. -/
inductive BitsHandled (l : BitsLayout) (m : FlatBits) (request : BitsRequest) (r : SrvRun ServerT)
    (res : Byte × SrvRun ServerT) : Prop
  | refused (hres : res = (mbeIllegalDataAddr, r))
      (hflat : flatBitsStep l m request = (m, .exception (-(2 + embExceptionBase))))
  | answered (bytes : List Byte) (store : ServerT)
      (hres : Answered res request.function bytes store)
      (hlaid : BitsLaid l store (flatBitsStep l m request).1)
      (hanswer : ∀ p : EmbPdu, p.Carries request.function bytes →
        request.getters p = (flatBitsStep l m request).2)

section Handlers

variable {l : BitsLayout} {m : FlatBits} {r : SrvRun ServerT}

theorem readBits_handled {type : EmbRbType} {a n : Word} (hl : BitsLaid l r.store m)
    (htx : r.txPdu.maxSize = 253) (hn : 1 ≤ n.toNat ∧ n.toNat ≤ 2000)
    (hreq : r.rxPdu.Carries (BitsRequest.readBits type a n).function
      (BitsRequest.readBits type a n).bytes) :
    BitsHandled l m (.readBits type a n) r (embSrvReadBits serverT.toEmbServer r) := by
  have hget : bitsGetter serverT.toEmbServer (BitsRequest.readBits type a n).function
      = getBitsTable type := by
    cases type <;> rfl
  by_cases h : (l.table type).inside a.toNat n.toNat = true
  · obtain ⟨block, readBits, hfind, hfit, hread, hvalues⟩ := hl.reads type hn.1 h
    have hlen := length_pack (fun i => m.table type (a.toNat + i)) n.toNat
    have hflat : flatBitsStep l m (.readBits type a n)
        = (m, .bits (embReadBitsCalcAnswerDataSize n)
          (Mem.slice (m.table type) a.toNat n.toNat)) := if_pos h
    have hans := embSrvReadBits_answered serverT.toEmbServer hreq hn htx
      (by rw [hget]; exact hfind) hfit hread hvalues hlen
    refine .answered _ _ hans (by rw [hflat]; exact hl) fun p hp => ?_
    have hsize : (p.dataSize.toNat : ℤ) = embReadBitsCalcAnswerDataSize n := by
      have hn' : 1 ≤ n.toNat ∧ n.toNat ≤ embReadBitsMaxQuantity := hn
      rw [hp.dataSize, List.length_append, hlen, embReadBitsCalcAnswerDataSize, if_pos hn',
        readCoilsAnsSize, toNat_bytesCount hn.2]
      rfl
    have hbits : (List.range n.toNat).map (fun i => embReadBitsGetBit p i != 0)
        = Mem.slice (m.table type) a.toNat n.toNat :=
      List.map_congr_left fun i hi => embReadBitsGetBit_eq hp (List.mem_range.1 hi)
    unfold BitsRequest.getters
    dsimp only
    rw [hflat, hsize, hbits]
  · have hflat : flatBitsStep l m (.readBits type a n)
        = (m, .exception (-(2 + embExceptionBase))) := if_neg h
    rw [Bool.not_eq_true] at h
    have hout := hl.outOfBlocks type h
    exact .refused (embSrvReadBits_refused serverT.toEmbServer hreq hn
      (by rw [hget]; exact hout)) hflat

theorem writeCoil_handled {a : Word} {value : Byte} (hl : BitsLaid l r.store m)
    (htx : r.txPdu.maxSize = 253)
    (hreq : r.rxPdu.Carries (BitsRequest.writeCoil a value).function
      (BitsRequest.writeCoil a value).bytes) :
    BitsHandled l m (.writeCoil a value) r (embSrvWriteCoil serverT.toEmbServer r) := by
  obtain ⟨code, hcode⟩ : ∃ code : Word, code = if value ≠ 0 then 0xFF00 else 0x0000 := ⟨_, rfl⟩
  have hreq' : r.rxPdu.Carries 0x05 (Mem.be [a, code]) := by
    rw [hcode]
    exact hreq
  have hvalid : code = 0x0000 ∨ code = 0xFF00 := by
    rw [hcode]
    split_ifs
    · exact .inr rfl
    · exact .inl rfl
  -- the byte that the store's callback gets for the code
  have hbit : unpack [if code = 0x0000 then (0 : Byte) else 1] 1 = [value != 0] := by
    rw [hcode]
    by_cases hv : value = 0
    · rw [if_neg (not_not.2 hv), hv]
      rfl
    · rw [if_pos hv, bne_iff_ne.2 hv]
      rfl
  by_cases h : l.coils.inside a.toNat 1 = true
  · obtain ⟨block, writeBits, store, hfind, -, hwrite, hstore, hlaid⟩ :=
      hl.writes (n := 1) le_rfl h [if code = 0x0000 then (0 : Byte) else 1]
    have hone : (1 : Word).toNat = 1 := rfl
    rw [hone, hbit] at hlaid
    have hflat : flatBitsStep l m (.writeCoil a value)
        = ({ m with coils := Mem.blit m.coils a.toNat [value != 0] },
          .written embWriteCoilCalcAnswerDataSize) := if_pos h
    have hans := embSrvWriteCoil_answered serverT.toEmbServer hreq' hvalid htx hfind hwrite hstore
    refine .answered _ store hans (by rw [hflat]; exact hlaid) fun p hp => ?_
    unfold BitsRequest.getters
    dsimp only
    rw [hflat, hp.dataSize]
    rfl
  · have hflat : flatBitsStep l m (.writeCoil a value)
        = (m, .exception (-(2 + embExceptionBase))) := if_neg h
    rw [Bool.not_eq_true] at h
    exact .refused (embSrvWriteCoil_refused serverT.toEmbServer hreq' hvalid (hl.no_coil h)) hflat

theorem writeCoils_handled {a n : Word} {coils : Mem Bool} (hl : BitsLaid l r.store m)
    (htx : r.txPdu.maxSize = 253) (hn : 1 ≤ n.toNat ∧ n.toNat ≤ 1968)
    (hreq : r.rxPdu.Carries (BitsRequest.writeCoils a n coils).function
      (BitsRequest.writeCoils a n coils).bytes) :
    BitsHandled l m (.writeCoils a n coils) r (embSrvWriteCoils serverT.toEmbServer r) := by
  have hlen := length_pack coils n.toNat
  by_cases h : l.coils.inside a.toNat n.toNat = true
  · obtain ⟨block, writeBits, store, hfind, hfit, hwrite, hstore, hlaid⟩ :=
      hl.writes hn.1 h (pack coils n.toNat)
    rw [unpack_pack] at hlaid
    have hflat : flatBitsStep l m (.writeCoils a n coils)
        = ({ m with coils := Mem.blit m.coils a.toNat (Mem.slice coils 0 n.toNat) },
          .written embWriteCoilsCalcAnswerDataSize) := if_pos h
    have hans := embSrvWriteCoils_answered serverT.toEmbServer hreq hn hlen htx hfind hfit hwrite
      hstore
    refine .answered _ store hans (by rw [hflat]; exact hlaid) fun p hp => ?_
    unfold BitsRequest.getters
    dsimp only
    rw [hflat, hp.dataSize]
    rfl
  · have hflat : flatBitsStep l m (.writeCoils a n coils)
        = (m, .exception (-(2 + embExceptionBase))) := if_neg h
    rw [Bool.not_eq_true] at h
    have hout := hl.outOfBlocks .coils h
    exact .refused (embSrvWriteCoils_refused serverT.toEmbServer hreq hn hlen hout) hflat

/-- The function the server has for a request is the handler of its kind. -/
theorem BitsRequest.handler (request : BitsRequest) :
    ∃ func : EmbSrvFunction ServerT, getFunction request.function = some func
      ∧ ∀ {l : BitsLayout} {m : FlatBits} {r : SrvRun ServerT}, BitsLaid l r.store m →
        r.txPdu.maxSize = 253 → request.InRange → r.rxPdu.Carries request.function request.bytes →
        BitsHandled l m request r (func.call serverT.toEmbServer r) := by
  cases request with
  | readBits type a n =>
    refine ⟨⟨embSrvReadBits, embSrvReadBits_sameMax⟩, by cases type <;> rfl, ?_⟩
    exact fun hl htx hin hreq => readBits_handled hl htx hin hreq
  | writeCoil a value =>
    refine ⟨⟨embSrvWriteCoil, embSrvWriteCoil_sameMax⟩, rfl, ?_⟩
    exact fun hl htx _ hreq => writeCoil_handled hl htx hreq
  | writeCoils a n coils =>
    refine ⟨⟨embSrvWriteCoils, embSrvWriteCoils_sameMax⟩, rfl, ?_⟩
    exact fun hl htx hin hreq => writeCoils_handled hl htx hin hreq

end Handlers

/-! ## One request -/

theorem BitsRequest.no_exception (request : BitsRequest) : request.function &&& 0x80 = 0 := by
  cases request with
  | readBits type => cases type <;> simp [function]
  | _ => simp [function]

variable {l : BitsLayout} {address : Byte}

theorem bitsStep_eq {c c' : SrvClient} {request : BitsRequest} {pdu answer : EmbPdu}
    (hreq : request.makeReq c.req = some (0, pdu)) (hc' : { c with req := pdu } = c')
    (hsent : (c'.serve address).sent = [(↑address.toNat, answer)]) :
    bitsStep address c request
      = (⟨c'.req, (c'.serve address).run⟩, request.decode c'.req answer) := by
  subst hc'
  unfold bitsStep
  rw [hreq]
  dsimp only
  rw [hsent]

theorem bitsStep_refines {c : SrvClient} {m : FlatBits} {request : BitsRequest}
    (h : BitsFlat l c m) (hq : c.Builds request) :
    (bitsStep address c request).2 = (flatBitsStep l m request).2
      ∧ BitsFlat l (bitsStep address c request).1 (flatBitsStep l m request).1 := by
  obtain ⟨pdu, hmake⟩ := hq
  have hbuilt := BitsRequest.built hmake
  obtain ⟨c', hc'⟩ : ∃ c' : SrvClient, { c with req := pdu } = c' := ⟨_, rfl⟩
  have hreq : c'.req.Carries request.function request.bytes := by
    rw [← hc']
    exact hbuilt.carries
  have hfull : c'.FullSize := by
    rw [← hc']
    exact ⟨h.fullSize.rx, h.fullSize.tx⟩
  have hlaid : BitsLaid l c'.run.store m := by
    rw [← hc']
    exact h.laid
  obtain ⟨func, hfunc, hhandled⟩ := request.handler
  rw [← hreq.function] at hfunc
  cases hhandled (r := c'.received) hlaid hfull.tx hbuilt.inRange (hreq.receive _) with
  | refused hres hflat =>
    obtain ⟨answer, hsent, herrno, hstore⟩ := serve_refused address hfull hfunc hres
    rw [bitsStep_eq hmake hc' hsent, hflat]
    refine ⟨?_, hfull.serve, ?_⟩
    · unfold BitsRequest.decode
      dsimp only
      rw [herrno, if_pos (by decide)]
    · dsimp only
      rw [hstore]
      exact hlaid
  | answered bytes store hres hlaid' hanswer =>
    obtain ⟨answer, hsent, herrno, hans, hstore⟩ :=
      serve_answered address hfunc request.no_exception hres
    rw [bitsStep_eq hmake hc' hsent]
    refine ⟨?_, hfull.serve, ?_⟩
    · unfold BitsRequest.decode
      dsimp only
      rw [herrno, if_neg (not_not.2 rfl), hans.function, hreq.function, if_neg (not_not.2 rfl)]
      exact hanswer _ hans
    · dsimp only
      rw [hstore]
      exact hlaid'

/-! ## Every run -/

/-- Requests that are built without an error, to a server whose blocks are laid out well: every
answer is the flat bits', and so are the bits that are left. -/
theorem bits_refine_flat (requests : List BitsRequest) {c : SrvClient} (hfull : c.FullSize)
    (hcoils : LaidOut c.run.store.coils) (hinputs : LaidOut c.run.store.discreteInputs)
    (hq : Along (bitsStep address) SrvClient.Builds c requests) :
    let l := c.run.store.bitsLayout
    let m := c.run.store.flatBits
    (run (bitsStep address) c requests).2 = (run (flatBitsStep l) m requests).2
      ∧ BitsFlat l (run (bitsStep address) c requests).1 (run (flatBitsStep l) m requests).1 := by
  have hlaid : BitsLaid c.run.store.bitsLayout c.run.store c.run.store.flatBits :=
    ⟨hcoils.laid false, hinputs.laid false⟩
  refine run_refines ?_ requests c _ ⟨hfull, hlaid⟩ hq
  intro c' m request hR hQ
  exact bitsStep_refines hR hQ

/-- Ten coils, a count that is no multiple of eight, and a range that ends one behind the block. -/
theorem bits_refine_flat_tail :
    let c := SrvClient.fresh ⟨[⟨3, 10, List.replicate 10 false, rfl⟩], [], [], []⟩
    let requests : List BitsRequest := [.writeCoils 4 9 fun i => i % 3 == 0,
      .readBits .coils 3 10, .writeCoil 12 1, .readBits .coils 4 10]
    (run (bitsStep 1) c requests).2
      = (run (flatBitsStep c.run.store.bitsLayout) c.run.store.flatBits requests).2 := by
  intro c requests
  have hfull : c.FullSize := ⟨rfl, rfl⟩
  have hcoils : LaidOut c.run.store.coils := ⟨by decide, by decide, List.pairwise_singleton _ _⟩
  have hinputs : LaidOut c.run.store.discreteInputs := ⟨by decide, by decide, List.Pairwise.nil⟩
  have hbuilt : Along (bitsStep 1) SrvClient.Builds c requests :=
    ⟨⟨_, rfl⟩, ⟨_, rfl⟩, ⟨_, rfl⟩, ⟨_, rfl⟩, trivial⟩
  exact (bits_refine_flat requests hfull hcoils hinputs hbuilt).1

end Emodbus
