import Emodbus.Server

/-!
# The handlers for coils and discrete inputs

`server/read_bits.c`, `server/write_coil.c` and `server/write_coils.c`.
-/

namespace Emodbus

open Octets

variable {σ : Type}

/-- The callback `emb_srv_read_bits` asks for a block: none for any other function. -/
def bitsGetter (srv : EmbServer σ) (function : Byte) : Option (Word → σ → Option (EmbSrvBits σ)) :=
  if function = 0x01 then srv.getCoils
  else if function = 0x02 then srv.getDiscreteInputs
  else some fun _ _ => none

/-- `byte_count` of `emb_srv_read_bits`. -/
def bitsByteCount (quantity : Word) : Byte :=
  (quantity >>> 3).setWidth 8 + if quantity &&& 0x07 ≠ 0 then 1 else 0

/-- How many bytes a write of `quantity` bits is handed. -/
def bitsBytes (quantity : Word) : ℕ := (quantity.toNat + 7) / 8

/-- `emb_srv_read_bits`. -/
def embSrvReadBits : SrvHandler σ := fun srv r =>
  let rxData := r.rxPdu.data
  let function := r.rxPdu.function
  let startAddr := getBigEnd16 rxData 0
  let quantity := getBigEnd16 rxData 2
  if ¬ (1 ≤ quantity.toNat ∧ quantity.toNat ≤ 0x07D0) then (mbeIllegalDataValue, r)
  else
    match lookUp (bitsGetter srv function) startAddr r.store with
    | .error code => (code, r)
    | .ok coils =>
      if coils.start.toNat + coils.size.toNat < startAddr.toNat + quantity.toNat then
        (mbeIllegalDataAddr, r)
      else
        match coils.readBits with
        | none => (mbeIllegalDataAddr, r)
        | some readBits =>
          let byteCount := bitsByteCount quantity
          let tx := { r.txPdu with
            function := function
            dataSize := BitVec.ofNat 8 (readCoilsAnsSize byteCount.toNat) }
          if tx.maxSize.toNat < tx.dataSize.toNat then (mbeSlaveFailure, { r with txPdu := tx })
          else
            let txData := Mem.blit tx.data 0 [byteCount]
            let res := readBits (startAddr - coils.start) quantity r.store
            (res.1, { r with
              txPdu := { tx with data := Mem.blit txData 1 res.2.1 }
              store := res.2.2
              calls := r.calls ++
                [.readBits coils.start coils.size (startAddr - coils.start) quantity 1] })

/-- `emb_srv_write_coil`. -/
def embSrvWriteCoil : SrvHandler σ := fun srv r =>
  let rxData := r.rxPdu.data
  let addr := getBigEnd16 rxData 0
  let value := getBigEnd16 rxData 2
  if ¬ (value = 0x0000 ∨ value = 0xFF00) then (mbeIllegalDataValue, r)
  else
    let coilValue : Byte := if value = 0x0000 then 0 else 1
    match lookUp srv.getCoils addr r.store with
    | .error code => (code, r)
    | .ok coils =>
      match coils.writeBits with
      | none => (mbeIllegalDataAddr, r)
      | some writeBits =>
        let tx := { r.txPdu with function := 0x05, dataSize := BitVec.ofNat 8 writeCoilAnsSize }
        if tx.maxSize.toNat < tx.dataSize.toNat then (mbeSlaveFailure, { r with txPdu := tx })
        else
          let txData := storeWord (storeWord tx.data 0 (swapBytes addr)) 2 (swapBytes value)
          let res := writeBits (addr - coils.start) 1 [coilValue] r.store
          (res.1, { r with
            txPdu := { tx with data := txData }
            store := res.2
            calls := r.calls ++
              [.writeBits coils.start coils.size (addr - coils.start) 1 [coilValue]] })

/-- `emb_srv_write_coils`. -/
def embSrvWriteCoils : SrvHandler σ := fun srv r =>
  let rxData := r.rxPdu.data
  let startAddr := getBigEnd16 rxData 0
  let quantity := getBigEnd16 rxData 2
  let byteCount := rxData 4
  if ¬ (1 ≤ quantity.toNat ∧ quantity.toNat ≤ 0x07B0) then (mbeIllegalDataValue, r)
  else if (r.rxPdu.dataSize.toNat : ℤ) - 5 ≠ byteCount.toNat then (mbeIllegalDataValue, r)
  else
    match lookUp srv.getCoils startAddr r.store with
    | .error code => (code, r)
    | .ok coils =>
      if coils.start.toNat + coils.size.toNat < startAddr.toNat + quantity.toNat then
        (mbeIllegalDataAddr, r)
      else
        match coils.writeBits with
        | none => (mbeIllegalDataAddr, r)
        | some writeBits =>
          let tx := { r.txPdu with function := 0x0F, dataSize := BitVec.ofNat 8 writeCoilsAnsSize }
          if tx.maxSize.toNat < tx.dataSize.toNat then (mbeSlaveFailure, { r with txPdu := tx })
          else
            let txData :=
              storeWord (storeWord tx.data 0 (swapBytes startAddr)) 2 (swapBytes quantity)
            let values := Mem.slice rxData 5 (bitsBytes quantity)
            let res := writeBits (startAddr - coils.start) quantity values r.store
            (res.1, { r with
              txPdu := { tx with data := txData }
              store := res.2
              calls := r.calls ++
                [.writeBits coils.start coils.size (startAddr - coils.start) quantity values] })

end Emodbus
