import Emodbus.ServerFile

/-!
# The sub-requests of a request to write files

`emb_srv_write_file` walks over the bytes of its request, swaps the registers of each sub-request in
place and hands them to the file.  `fileSubs` is the list of the sub-requests it walks over, and
`writeSubs` is what it does, said of that list.
-/

namespace Emodbus

open Octets

variable {σ : Type}

/-- A sub-request as it lies in the request; `fits` is whether its registers end in front of
`rx_data_end`. -/
structure FileSub where
  refType : Byte
  fileno : Word
  startAddr : Word
  values : List Word
  fits : Bool
deriving DecidableEq

/-- The sub-request at this place. -/
def fileSubAt (d : Mem Byte) (stop pos : ℕ) : FileSub where
  refType := d pos
  fileno := getBigEnd16 d (pos + 1)
  startAddr := getBigEnd16 d (pos + 3)
  values := Mem.beWords d (pos + 7) (getBigEnd16 d (pos + 5)).toNat
  fits := decide (pos + 7 + (getBigEnd16 d (pos + 5)).toNat * 2 ≤ stop)

/-- The sub-requests from `pos` on, up to one that does not fit. -/
def fileSubs (d : Mem Byte) (stop : ℕ) : (fuel pos : ℕ) → List FileSub
  | 0, _ => []
  | fuel + 1, pos =>
    if pos < stop then
      let sub := fileSubAt d stop pos
      sub :: if sub.fits then fileSubs d stop fuel (pos + 7 + sub.values.length * 2) else []
    else []

/-- The sub-requests of a request. -/
def EmbPdu.fileSubs (req : EmbPdu) : List FileSub :=
  Emodbus.fileSubs req.data req.dataSize.toNat req.dataSize.toNat 1

/-- The file and the callback for a sub-request that passes its checks. -/
def FileSub.check (sub : FileSub) (srv : EmbServer σ) (s : σ) :
    Except Byte (EmbSrvFile σ × (Word → Word → List Word → σ → Byte × σ)) :=
  if sub.refType ≠ embFileRefType then .error mbeIllegalDataAddr
  else
    match srv.getFile with
    | none => .error mbeSlaveFailure
    | some getFile =>
      match getFile sub.fileno s with
      | none => .error mbeIllegalDataAddr
      | some file =>
        match file.writeFile with
        | none => .error mbeIllegalDataAddr
        | some writeFile =>
          if sub.fits then .ok (file, writeFile) else .error mbeIllegalDataValue

/-- How many registers a sub-request has. -/
def FileSub.regCount (sub : FileSub) : Word := BitVec.ofNat 16 sub.values.length

/-- Sub-request after sub-request, up to the first that fails a check or whose callback fails: the
code, the store and the calls. -/
def writeSubs (srv : EmbServer σ) : List FileSub → σ → List StoreCall → Byte × σ × List StoreCall
  | [], s, calls => (0, s, calls)
  | sub :: subs, s, calls =>
    match sub.check srv s with
    | .error code => (code, s, calls)
    | .ok (file, writeFile) =>
      let res := writeFile sub.startAddr sub.regCount sub.values s
      let calls := calls ++ [.writeFile file.fileno sub.startAddr sub.regCount sub.values]
      if res.1 ≠ 0 then (res.1, res.2, calls) else writeSubs srv subs res.2 calls

end Emodbus
