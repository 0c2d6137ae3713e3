import Emodbus.Proofs.ClientBits
import Emodbus.Proofs.ClientFile
import Emodbus.Transaction

/-!
# What the wrapper builds

A `build_req` makes its request, whatever the buffers held before, exactly if the request has room
in the buffer as it then is (`Makes`).
-/

namespace Emodbus

open Octets

section Resize

variable {alloc : ℕ → Bool} {p : PduT} {size : ℕ}

theorem PduT.resize_some (h : p.Grows alloc size) :
    ∃ q, p.resize alloc size = some q ∧ q.pdu.maxSize.toNat = p.room size := by
  unfold Grows at h
  unfold resize room
  split_ifs with hlt halloc
  · exact ⟨_, rfl, BitVec.toNat_ofNat _ _⟩
  · exact absurd (h hlt) halloc
  · exact ⟨p, rfl, rfl⟩

theorem PduT.resize_none (h : ¬ p.Grows alloc size) : p.resize alloc size = none := by
  unfold Grows at h
  unfold resize
  rw [Classical.not_imp] at h
  rw [if_pos h.1, if_neg h.2]

variable {b : BuildReq} {tr : Transaction}

theorem BuildReq.run_throws (h : ¬ b.Grows alloc tr) : (b.run alloc tr).1 = none := by
  unfold run
  by_cases hreq : tr.req.Grows alloc (unsignedInt b.reqSize)
  · obtain ⟨req, heq, -⟩ := PduT.resize_some hreq
    have hans : ¬ tr.ans.Grows alloc (unsignedInt b.ansSize) := fun hans => h ⟨hreq, hans⟩
    rw [heq]
    dsimp only
    rw [PduT.resize_none hans]
  · rw [PduT.resize_none hreq]

theorem BuildReq.run_returns (h : b.Grows alloc tr) :
    ∃ req ans : PduT, b.run alloc tr
        = (some (b.makeReq req.pdu).1, ⟨{ req with pdu := (b.makeReq req.pdu).2 }, ans⟩)
      ∧ req.pdu.maxSize.toNat = tr.req.room (unsignedInt b.reqSize)
      ∧ ans.pdu.maxSize.toNat = tr.ans.room (unsignedInt b.ansSize) := by
  obtain ⟨req, hreq, hroom⟩ := PduT.resize_some h.1
  obtain ⟨ans, hans, hroom'⟩ := PduT.resize_some h.2
  refine ⟨req, ans, ?_, hroom, hroom'⟩
  unfold run
  rw [hreq]
  dsimp only
  rw [hans]

end Resize

theorem unsignedInt_natCast {n : ℕ} (h : n < 2 ^ 32) : unsignedInt n = n := by
  unfold unsignedInt
  rw [BitVec.ofInt_natCast, BitVec.toNat_ofNat, Nat.mod_eq_of_lt h]

section Vec

variable {values : List Word}

theorem toNat_vecSize (h : values.length < 2 ^ 16) : (vecSize values).toNat = values.length := by
  unfold vecSize
  rw [BitVec.toNat_ofNat, Nat.mod_eq_of_lt h]

theorem slice_vecData (values : List Word) :
    Mem.slice (vecData values) 0 values.length = values := by
  rw [Mem.slice_eq_iff]
  refine ⟨rfl, fun i hi => ?_⟩
  unfold vecData
  rw [Nat.zero_add, List.getD_eq_getElem?_getD, List.getElem?_eq_getElem hi, Option.getD_some]

end Vec

/-! ## The builders -/

/-- The builder makes this request wherever it has room. -/
structure BuildReq.Makes (b : BuildReq) (w : Byte × List Byte) : Prop where
  size : unsignedInt b.reqSize = w.2.length
  built_iff : ∀ req, (b.makeReq req).1 = 0 ↔ w.2.length ≤ req.maxSize.toNat
  carries : ∀ req, (b.makeReq req).1 = 0 → (b.makeReq req).2.Carries w.1 w.2

/-- A C function that only asks whether there is room. -/
theorem built_iff_room {c : Prop} [Decidable c] {p q : EmbPdu} {size room : ℕ}
    (hc : c ↔ room < size) :
    ((if c then (-enomem, p) else (0, q)) : ℤ × EmbPdu).1 = 0 ↔ size ≤ room := by
  split_ifs with h
  · have hlt := hc.1 h
    exact ⟨fun h0 => absurd h0 neg_enomem_ne, fun hle => absurd hlt (Nat.not_lt.2 hle)⟩
  · exact ⟨fun _ => Nat.not_lt.1 fun hlt => h (hc.2 hlt), fun _ => rfl⟩

/-! ### Registers -/

theorem RegsRequest.built_iff {request : RegsRequest} (h : request.InRange) (req : EmbPdu) :
    (request.makeReq req).1 = 0 ↔ request.bytes.length ≤ req.maxSize.toNat := by
  cases request with
  | readRegs type a n =>
    have hn : 1 ≤ n.toNat ∧ n.toNat ≤ 125 := h
    unfold makeReq embReadRegsMakeReq
    dsimp only
    rw [if_pos hn]
    exact built_iff_room Nat.cast_lt
  | writeReg a value => exact built_iff_room Nat.cast_lt
  | writeRegs a n data =>
    have hn : 1 ≤ n.toNat ∧ n.toNat ≤ 123 := h
    have hlen : (RegsRequest.writeRegs a n data).bytes.length = writeRegistersReqSize n.toNat := by
      simp [bytes, writeRegistersReqSize]
      omega
    unfold makeReq embWriteRegsMakeReq
    dsimp only
    rw [hlen, if_pos hn]
    exact built_iff_room Nat.cast_lt
  | writeMaskReg a andMask orMask => exact built_iff_room Nat.cast_lt
  | rdwrRegs ra rn wa wn data =>
    have hn : (1 ≤ rn.toNat ∧ rn.toNat ≤ 0x007D) ∧ 1 ≤ wn.toNat ∧ wn.toNat ≤ 0x0079 := h
    have hlen : (RegsRequest.rdwrRegs ra rn wa wn data).bytes.length
        = readWriteRegsReqSize wn.toNat := by
      simp [bytes, readWriteRegsReqSize]
      omega
    unfold makeReq embRdwrRegsMakeReq
    dsimp only
    rw [hlen, if_neg (not_not.2 hn.1), if_neg (not_not.2 hn.2)]
    exact built_iff_room Nat.cast_lt

theorem RegsRequest.makes (request : RegsRequest) (h : request.InRange) {b : BuildReq}
    (hb : ∀ req, b.makeReq req = request.makeReq req)
    (hsize : unsignedInt b.reqSize = request.bytes.length) :
    b.Makes (request.function, request.bytes) where
  size := hsize
  built_iff req := by rw [hb, RegsRequest.built_iff h]
  carries req hbuilt := by
    rw [hb] at hbuilt ⊢
    exact (RegsRequest.built hbuilt).carries

theorem readRegs_makes (type : EmbRrType) (start : Word) {n : Word}
    (h : 1 ≤ n.toNat ∧ n.toNat ≤ 125) :
    (readRegsBuildReq type start n).Makes
      ((RegsRequest.readRegs type start n).function, Mem.be [start, n]) :=
  RegsRequest.makes (.readRegs type start n) h (fun _ => rfl) rfl

theorem writeReg_makes (address value : Word) :
    (writeRegBuildReq address value).Makes (0x06, Mem.be [address, value]) :=
  RegsRequest.makes (.writeReg address value) trivial (fun _ => rfl) rfl

theorem writeMaskReg_makes (address andMask orMask : Word) :
    (writeMaskRegBuildReq address andMask orMask).Makes
      (0x16, Mem.be [address, andMask, orMask]) :=
  RegsRequest.makes (.writeMaskReg address andMask orMask) trivial (fun _ => rfl) rfl

theorem writeRegs_makes (start : Word) {values : List Word}
    (h : 1 ≤ values.length ∧ values.length ≤ 123) :
    (writeRegsBuildReq start (vecSize values) (vecData values)).Makes
      (0x10, Mem.be [start, vecSize values] ++ [BitVec.ofNat 8 (values.length * 2)]
        ++ Mem.be values) := by
  have hn : (vecSize values).toNat = values.length := toNat_vecSize (by omega)
  have hbytes : (RegsRequest.writeRegs start (vecSize values) (vecData values)).bytes
      = Mem.be [start, vecSize values] ++ [BitVec.ofNat 8 (values.length * 2)]
        ++ Mem.be values := by
    unfold RegsRequest.bytes
    dsimp only
    rw [hn, slice_vecData]
  have hsize : unsignedInt (writeRegistersReqSize (vecSize values).toNat : ℕ)
      = (RegsRequest.writeRegs start (vecSize values) (vecData values)).bytes.length := by
    rw [unsignedInt_natCast (by rw [hn, writeRegistersReqSize]; omega), hbytes, hn]
    simp [writeRegistersReqSize]
    omega
  rw [← hbytes]
  exact RegsRequest.makes (.writeRegs start (vecSize values) (vecData values))
    (by rw [RegsRequest.InRange, hn]; exact h) (fun _ => rfl) hsize

theorem readWriteRegs_makes (rdStart wrStart : Word) {rdSize : Word} {values : List Word}
    (hrd : 1 ≤ rdSize.toNat ∧ rdSize.toNat ≤ 125)
    (hwr : 1 ≤ values.length ∧ values.length ≤ 121) :
    (readWriteRegsBuildReq rdStart rdSize wrStart (vecSize values) (vecData values)).Makes
      (0x17, Mem.be [rdStart, rdSize, wrStart, vecSize values]
        ++ [BitVec.ofNat 8 (values.length * 2)] ++ Mem.be values) := by
  have hn : (vecSize values).toNat = values.length := toNat_vecSize (by omega)
  have hbytes : (RegsRequest.rdwrRegs rdStart rdSize wrStart (vecSize values)
        (vecData values)).bytes
      = Mem.be [rdStart, rdSize, wrStart, vecSize values]
        ++ [BitVec.ofNat 8 (values.length * 2)] ++ Mem.be values := by
    unfold RegsRequest.bytes
    dsimp only
    rw [hn, slice_vecData]
  have hsize : unsignedInt (readWriteRegsReqSize (vecSize values).toNat : ℕ)
      = (RegsRequest.rdwrRegs rdStart rdSize wrStart (vecSize values)
          (vecData values)).bytes.length := by
    rw [unsignedInt_natCast (by rw [hn, readWriteRegsReqSize]; omega), hbytes, hn]
    simp [readWriteRegsReqSize]
    omega
  rw [← hbytes]
  exact RegsRequest.makes
    (.rdwrRegs rdStart rdSize wrStart (vecSize values) (vecData values))
    (by rw [RegsRequest.InRange, hn]; exact ⟨hrd, hwr⟩) (fun _ => rfl) hsize

/-! ### Coils and discrete inputs -/

theorem readBits_makes (type : EmbRbType) (start : Word) {n : Word}
    (h : 1 ≤ n.toNat ∧ n.toNat ≤ 2000) :
    (readBitsBuildReq type start n).Makes
      ((BitsRequest.readBits type start n).function, Mem.be [start, n]) where
  size := rfl
  built_iff req := by
    have hn : 1 ≤ n.toNat ∧ n.toNat ≤ embReadBitsMaxQuantity := h
    unfold readBitsBuildReq embReadBitsMakeReq
    dsimp only
    rw [if_pos hn]
    exact built_iff_room Nat.cast_lt
  carries req hbuilt := (readBits_built hbuilt).carries

theorem writeCoil_makes (address : Word) (value : Bool) :
    (writeCoilBuildReq address value).Makes
      (0x05, Mem.be [address, if value then 0xFF00 else 0x0000]) where
  size := rfl
  built_iff req := built_iff_room Iff.rfl
  carries req hbuilt := by
    have hcarries := (writeCoil_built hbuilt).carries
    unfold BitsRequest.bytes at hcarries
    cases value <;> exact hcarries

/-! ### Files -/

theorem readFileReqLoop_ok (subs : List EmbReadFileReq) (pos : ℕ) (d : Mem Byte)
    (h : ∀ sub ∈ subs, sub.recordNumber.toNat ≤ maxRecordNumber) :
    (readFileReqLoop subs pos d).1 = 0 := by
  rw [readFileReqLoop_run]
  exact if_pos h

theorem writeFileReqLoop_ok (subs : List EmbWriteFileReq) (pos : ℕ) (d : Mem Byte)
    (h : ∀ sub ∈ subs, sub.recordNumber.toNat ≤ maxRecordNumber) :
    (writeFileReqLoop subs pos d).1 = 0 := by
  rw [writeFileReqLoop_run]
  exact if_pos h

theorem CarriesSubs.carries {pdu : EmbPdu} {function : Byte} {body : List Byte}
    (h : CarriesSubs pdu function body) :
    pdu.Carries function (BitVec.ofNat 8 body.length :: body) where
  function := h.function
  bytes := by
    have hcount : pdu.data 0 = BitVec.ofNat 8 body.length := by
      rw [← h.count, BitVec.ofNat_toNat, BitVec.setWidth_eq]
    unfold EmbPdu.bytes
    rw [h.dataSize, Nat.add_comm, Mem.slice_succ, hcount, Nat.zero_add, h.body]

theorem readFile_makes {reqs : List EmbReadFileReq}
    (hrec : ∀ sub ∈ reqs, sub.recordNumber.toNat ≤ maxRecordNumber)
    (hlen : (reqs.flatMap EmbReadFileReq.bytes).length ≤ 254) :
    (readFileBuildReq reqs).Makes
      (0x14, BitVec.ofNat 8 (reqs.flatMap EmbReadFileReq.bytes).length
        :: reqs.flatMap EmbReadFileReq.bytes) := by
  have hbody := length_readBody reqs
  refine ⟨?_, fun req => ?_, fun req hbuilt => (readFileReq_built hbuilt).carries⟩
  · have hsize : (readFileBuildReq reqs).reqSize = ((1 + 7 * reqs.length : ℕ) : ℤ) := rfl
    rw [hsize, unsignedInt_natCast (by omega), List.length_cons, hbody, Nat.add_comm]
  · have hloop : ∀ d, (readFileReqLoop reqs 1 d).1 = 0 := fun d =>
      readFileReqLoop_ok reqs 1 d hrec
    unfold readFileBuildReq embReadFileMakeReq
    dsimp only
    rw [hloop]
    refine built_iff_room ?_
    rw [List.length_cons, hbody, readFileReqSize, Nat.add_comm 1]

/-- The bytes that are built from the sub-requests. -/
def writeBody (reqs : List WriteFileSubreq) : List Byte :=
  (reqs.map WriteFileSubreq.req).flatMap EmbWriteFileReq.bytes

theorem writeFileBuildReq_of_ne {reqs : List WriteFileSubreq} (hne : reqs ≠ []) :
    writeFileBuildReq reqs
      = { reqSize := embWriteFileCalcReqDataSize (some (reqs.map WriteFileSubreq.req))
          ansSize := embWriteFileCalcReqDataSize (some (reqs.map WriteFileSubreq.req))
          makeReq := fun req =>
            embWriteFileMakeReq req (some (reqs.map WriteFileSubreq.req)) } := by
  unfold writeFileBuildReq
  rw [if_neg hne]

theorem writeFile_makes {reqs : List WriteFileSubreq} (hne : reqs ≠ [])
    (hrec : ∀ sub ∈ reqs, sub.recordNumber.toNat ≤ maxRecordNumber)
    (hlen : (writeBody reqs).length ≤ 254) :
    (writeFileBuildReq reqs).Makes
      (0x15, BitVec.ofNat 8 (writeBody reqs).length :: writeBody reqs) := by
  have hcalc : embWriteFileCalcReqDataSize (some (reqs.map WriteFileSubreq.req))
      = ((1 + (writeBody reqs).length : ℕ) : ℤ) := calcReqDataSize_eq _
  rw [writeFileBuildReq_of_ne hne]
  refine ⟨?_, fun req => ?_, fun req hbuilt => (writeFileReq_built hbuilt).carries⟩
  · dsimp only
    rw [hcalc, unsignedInt_natCast (by omega), List.length_cons, Nat.add_comm]
  · have hloop : ∀ d, (writeFileReqLoop (reqs.map WriteFileSubreq.req) 1 d).1 = 0 := by
      intro d
      refine writeFileReqLoop_ok _ 1 d ?_
      rw [List.forall_mem_map]
      exact hrec
    dsimp only
    unfold embWriteFileMakeReq
    rw [hcalc]
    dsimp only
    rw [hloop, if_neg (by omega), List.length_cons, Nat.add_comm 1]
    exact built_iff_room Nat.cast_lt

/-! ### FIFOs -/

theorem readFifo_makes (start : Word) : (readFifoBuildReq start).Makes (0x18, Mem.be [start]) where
  size := rfl
  built_iff req := built_iff_room Iff.rfl
  carries req hbuilt := by
    unfold readFifoBuildReq embReadFifoMakeReq at hbuilt ⊢
    dsimp only at hbuilt ⊢
    split_ifs at hbuilt ⊢ with hroom
    · exact absurd hbuilt neg_enomem_ne
    · refine ⟨rfl, ?_⟩
      dsimp only
      rw [storeWord_swapBytes]
      exact Mem.slice_blit req.data 0 (Mem.be [start])

end Emodbus
