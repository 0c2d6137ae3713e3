import Emodbus.Proofs.FileRoundTrip
import Emodbus.Proofs.LengthFields
import Emodbus.Proofs.Transaction
import Emodbus.WriteFileLimits

/-!
# Which requests to write files within the limits are accepted

The client builds every one of them.  The server takes the bounds themselves for too small and too
large.
-/

namespace Emodbus

open Octets

theorem length_writeBody (subs : List EmbWriteFileReq) :
    (subs.flatMap EmbWriteFileReq.bytes).length = writeBodySize subs := by
  unfold writeBodySize
  rw [List.length_flatMap]
  simp

/-- The client builds it if there is room. -/
theorem WriteInLimits.built {subs : List EmbWriteFileReq} (h : WriteInLimits subs) {req : EmbPdu}
    (hroom : 1 + writeBodySize subs ≤ req.maxSize.toNat) :
    (embWriteFileMakeReq req (some subs)).1 = 0 := by
  have hsize := calcReqDataSize_eq subs
  rw [length_writeBody] at hsize
  unfold embWriteFileMakeReq
  rw [hsize]
  dsimp only
  rw [if_neg (by omega), if_neg (by omega)]
  exact writeFileReqLoop_ok subs 1 _ h.recordNumber

section Server

variable {σ : Type} {srv : EmbServer σ}

theorem check_sub {sub : EmbWriteFileReq} {s : σ} {getFile : Word → σ → Option (EmbSrvFile σ)}
    {file : EmbSrvFile σ} {writeFile : Word → Word → List Word → σ → Byte × σ}
    (hget : srv.getFile = some getFile) (hfile : getFile sub.fileNumber s = some file)
    (hwrite : file.writeFile = some writeFile) : sub.sub.check srv s = .ok (file, writeFile) := by
  unfold FileSub.check EmbWriteFileReq.sub
  dsimp only
  rw [if_neg (not_not.2 rfl), hget]
  dsimp only
  rw [hfile]
  dsimp only
  rw [hwrite]
  exact if_pos rfl

theorem TakesFiles.takesSubs {subs : List EmbWriteFileReq} {s : σ} (h : TakesFiles srv subs s) :
    TakesSubs srv (subs.map EmbWriteFileReq.sub) s := by
  induction subs generalizing s with
  | nil => trivial
  | cons sub subs ih =>
    obtain ⟨getFile, file, writeFile, s', hget, hfile, hwrite, hzero, hrest⟩ := h
    refine ⟨file, writeFile, s', check_sub hget hfile hwrite, ?_, ih hrest⟩
    rw [EmbWriteFileReq.regCount_sub]
    exact hzero

/-- A request within the limits is built and accepted if and only if it is at neither of them. -/
theorem write_file_accepted_iff {req : EmbPdu} {r : SrvRun σ} {subs : List EmbWriteFileReq}
    (hlimits : WriteInLimits subs) (hfiles : TakesFiles srv subs r.store)
    (hreq : req.maxSize = 253) (hrx : r.rxPdu.Same (embWriteFileMakeReq req (some subs)).2)
    (htx : r.txPdu.maxSize = 253) :
    ((embWriteFileMakeReq req (some subs)).1 = 0 ∧ (embSrvWriteFile srv r).1 = 0)
      ↔ embWriteFileReqMinByteCount < writeBodySize subs
        ∧ writeBodySize subs < embWriteFileReqMaxByteCount := by
  have hmax := hlimits.maxByteCount
  unfold embWriteFileReqMaxByteCount at hmax
  have h253 : req.maxSize.toNat = 253 := by simp [hreq]
  have hbuilt : (embWriteFileMakeReq req (some subs)).1 = 0 := hlimits.built (by omega)
  have hcarries := (writeFileReq_built hbuilt).of_same hrx
  have hcount := hcarries.count
  have hsize := hcarries.dataSize
  rw [length_writeBody] at hcount hsize
  rw [writeFile_zero_iff srv htx, hcarries.fileSubs]
  constructor
  · rintro ⟨-, hchecks, -⟩
    have hbytes := hchecks.byteCount
    rw [hcount] at hbytes
    exact hbytes
  · intro hbytes
    refine ⟨hbuilt, ⟨?_, by omega⟩, hfiles.takesSubs⟩
    rw [hcount]
    exact hbytes

end Server

/-- A sub-request to write this many zeros. -/
def writeZeros (n : ℕ) : EmbWriteFileReq := ⟨1, 0, BitVec.ofNat 16 n, fun _ => 0⟩

/-- The request as it comes to a server. -/
def writeZerosRun (n : ℕ) : SrvRun Unit where
  rxPdu := (embWriteFileMakeReq emptyPdu (some [writeZeros n])).2
  txPdu := emptyPdu
  store := ()
  calls := []

theorem writeZeros_inLimits {n : ℕ} (hn : 1 ≤ n) (hn' : n ≤ 122) :
    WriteInLimits [writeZeros n] := by
  have hlen : (writeZeros n).recordLength.toNat = n := by
    simp [writeZeros]
    omega
  have hsize : writeBodySize [writeZeros n] = 7 + 2 * n := by simp [writeBodySize, hlen]
  refine ⟨by simp, ?_, ?_, ?_, ?_⟩
  · simp [writeZeros]
  · simpa [hlen] using hn
  · rw [hsize, embWriteFileReqMinByteCount]
    omega
  · rw [hsize, embWriteFileReqMaxByteCount]
    omega

theorem writeZeros_takesFiles (n : ℕ) : TakesFiles obligingServer [writeZeros n] () :=
  ⟨_, _, _, (), rfl, rfl, rfl, rfl, trivial⟩

/-- Two registers. -/
theorem write_file_accepted_two :
    ((embWriteFileMakeReq emptyPdu (some [writeZeros 2])).1 = 0
        ∧ (embSrvWriteFile obligingServer (writeZerosRun 2)).1 = 0)
      ↔ embWriteFileReqMinByteCount < writeBodySize [writeZeros 2]
        ∧ writeBodySize [writeZeros 2] < embWriteFileReqMaxByteCount :=
  write_file_accepted_iff (r := writeZerosRun 2) (writeZeros_inLimits (by simp) (by simp))
    (writeZeros_takesFiles 2) rfl ⟨rfl, rfl, rfl⟩ rfl

/-- One register is the least there can be and 122 are the most, and both are refused. -/
theorem write_file_bounds_refused :
    (WriteInLimits [writeZeros 1] ∧ TakesFiles obligingServer [writeZeros 1] ()
      ∧ ¬ ((embWriteFileMakeReq emptyPdu (some [writeZeros 1])).1 = 0
        ∧ (embSrvWriteFile obligingServer (writeZerosRun 1)).1 = 0))
    ∧ (WriteInLimits [writeZeros 122] ∧ TakesFiles obligingServer [writeZeros 122] ()
      ∧ ¬ ((embWriteFileMakeReq emptyPdu (some [writeZeros 122])).1 = 0
        ∧ (embSrvWriteFile obligingServer (writeZerosRun 122)).1 = 0)) := by
  refine ⟨⟨writeZeros_inLimits (by simp) (by simp), writeZeros_takesFiles 1, ?_⟩,
    writeZeros_inLimits (by simp) (by simp), writeZeros_takesFiles 122, ?_⟩
  · decide
  · rintro ⟨hbuilt, hzero⟩
    have hcount := (writeFileReq_built hbuilt).count
    rw [writeFile_zero_iff obligingServer rfl] at hzero
    have hbytes := hzero.1.byteCount
    unfold writeZerosRun at hbytes
    rw [hcount, length_writeBody] at hbytes
    exact absurd hbytes (by decide)

end Emodbus
