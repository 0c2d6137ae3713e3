import Emodbus.Server

/-!
# The handlers for file records and FIFOs

`server/read_file.c`, `server/write_file.c` and `server/read_fifo.c`.
-/

namespace Emodbus

open Octets

variable {σ : Type}

/-- `EMB_FILE_REF_TYPE`. -/
def embFileRefType : Byte := 0x06

/-- One sub-request of `emb_srv_read_file`, with `rx_data` and `tx_data` at these places: an error
code, or where `tx_data` and `byte_counter` are after it. -/
def readFileSub (srv : EmbServer σ) (rxPos txPos : ℕ) (byteCounter : Byte) (r : SrvRun σ) :
    Except Byte (ℕ × Byte) × SrvRun σ :=
  let rxData := r.rxPdu.data
  let fileNumber := getBigEnd16 rxData (rxPos + 1)
  let startAddr := getBigEnd16 rxData (rxPos + 3)
  let regCount := getBigEnd16 rxData (rxPos + 5)
  match srv.getFile with
  | none => (.error mbeSlaveFailure, r)
  | some getFile =>
    match getFile fileNumber r.store with
    | none => (.error mbeIllegalDataAddr, r)
    | some file =>
      if rxData rxPos ≠ embFileRefType then (.error mbeIllegalDataAddr, r)
      else
        let bytes : Byte := BitVec.ofNat 8 (regCount.toNat * 2 + 1)
        let byteCounter := byteCounter + (bytes + 1)
        let txData := Mem.blit r.txPdu.data txPos [bytes, embFileRefType]
        match file.readFile with
        | none => (.error mbeIllegalDataAddr, { r with txPdu := { r.txPdu with data := txData } })
        | some readFile =>
          if r.txPdu.maxSize.toNat < byteCounter.toNat then
            (.error mbeSlaveFailure, { r with txPdu := { r.txPdu with data := txData } })
          else
            let res := readFile startAddr regCount r.store
            let txData := Mem.blit txData (txPos + 2) (Mem.le res.2.1)
            let r : SrvRun σ := { r with
              store := res.2.2
              calls := r.calls ++ [.readFile file.fileno startAddr regCount (txPos + 2)] }
            if res.1 ≠ 0 then
              (.error res.1, { r with txPdu := { r.txPdu with data := txData } })
            else
              (.ok (txPos + 2 + 2 * regCount.toNat, byteCounter), { r with txPdu := { r.txPdu with
                data := Mem.swapWords txData (txPos + 2) regCount.toNat } })

/-- The loop of `emb_srv_read_file`, with this many turns to go. -/
def readFileLoop (srv : EmbServer σ) :
    ℕ → (rxPos txPos : ℕ) → Byte → SrvRun σ → Except Byte Byte × SrvRun σ
  | 0, _, _, byteCounter, r => (.ok byteCounter, r)
  | turns + 1, rxPos, txPos, byteCounter, r =>
    match readFileSub srv rxPos txPos byteCounter r with
    | (.error code, r) => (.error code, r)
    | (.ok (txPos, byteCounter), r) => readFileLoop srv turns (rxPos + 7) txPos byteCounter r

/-- `emb_srv_read_file`.  `i < byte_count` with `i` going up by 7 is true for
`(byte_count + 6) / 7` turns, and `byte_count` is small enough for `i` not to wrap. -/
def embSrvReadFile : SrvHandler σ := fun srv r =>
  let byteCount := r.rxPdu.data 0
  if byteCount.toNat < 7 ∨ byteCount.toNat > 7 * 35 then (mbeIllegalDataValue, r)
  else
    match readFileLoop srv ((byteCount.toNat + 6) / 7) 1 1 0 r with
    | (.error code, r) => (code, r)
    | (.ok byteCounter, r) =>
      (0, { r with txPdu := { r.txPdu with
        function := 0x14
        dataSize := byteCounter + 1
        data := Mem.blit r.txPdu.data 0 [byteCounter] } })

/-- One turn of the loop of `emb_srv_write_file` with `rx_data` at `pos`: the code it returns, or
where `rx_data` is after it. -/
def writeFileSub (srv : EmbServer σ) (stop pos : ℕ) (r : SrvRun σ) :
    Except Byte ℕ × SrvRun σ :=
  let rxData := r.rxPdu.data
  if rxData pos ≠ embFileRefType then (.error mbeIllegalDataAddr, r)
  else
    match srv.getFile with
    | none => (.error mbeSlaveFailure, r)
    | some getFile =>
      match getFile (getBigEnd16 rxData (pos + 1)) r.store with
      | none => (.error mbeIllegalDataAddr, r)
      | some file =>
        match file.writeFile with
        | none => (.error mbeIllegalDataAddr, r)
        | some writeFile =>
          let startAddr := getBigEnd16 rxData (pos + 3)
          let regCount := getBigEnd16 rxData (pos + 5)
          if pos + 7 + regCount.toNat * 2 > stop then (.error mbeIllegalDataValue, r)
          else
            let rxData := Mem.swapWords rxData (pos + 7) regCount.toNat
            let values := Mem.leWords rxData (pos + 7) regCount.toNat
            let res := writeFile startAddr regCount values r.store
            let r : SrvRun σ := { r with
              rxPdu := { r.rxPdu with data := rxData }
              store := res.2
              calls := r.calls ++ [.writeFile file.fileno startAddr regCount values] }
            if res.1 ≠ 0 then (.error res.1, r)
            else (.ok (pos + 7 + regCount.toNat * 2), r)

/-- The loop of `emb_srv_write_file`.  Every turn goes on by 7 at least, so `stop` is fuel
enough. -/
def writeFileLoop (srv : EmbServer σ) (stop : ℕ) : ℕ → (pos : ℕ) → SrvRun σ → Byte × SrvRun σ
  | 0, _, r => (0, r)
  | fuel + 1, pos, r =>
    if pos < stop then
      match writeFileSub srv stop pos r with
      | (.error code, r) => (code, r)
      | (.ok pos, r) => writeFileLoop srv stop fuel pos r
    else (0, r)

/-- `emb_srv_write_file`. -/
def embSrvWriteFile : SrvHandler σ := fun srv r =>
  let rxData := r.rxPdu.data
  let byteCount := rxData 0
  let stop := r.rxPdu.dataSize.toNat
  if byteCount.toNat ≤ 0x09 ∨ byteCount.toNat ≥ 0xFB then (mbeIllegalDataValue, r)
  else
    let tx := { r.txPdu with function := 0x15 }
    if tx.maxSize.toNat < stop then (mbeSlaveFailure, { r with txPdu := tx })
    else
      let tx := { tx with dataSize := r.rxPdu.dataSize, data := Mem.copy tx.data rxData stop }
      writeFileLoop srv stop stop 1 { r with txPdu := tx }

/-- `EMB_SRV_READ_FIFO_MAX_REGS`. -/
def embSrvReadFifoMaxRegs : ℕ := 31

/-- `emb_srv_read_fifo`. -/
def embSrvReadFifo : SrvHandler σ := fun srv r =>
  let addr := getBigEnd16 r.rxPdu.data 0
  match srv.readFifo with
  | none => (mbeSlaveFailure, r)
  | some readFifo =>
    let res := readFifo addr r.store
    let fifoCount := res.2.2.1
    let r : SrvRun σ := { r with
      txPdu := { r.txPdu with data := Mem.blit r.txPdu.data 4 (Mem.le res.2.1) }
      store := res.2.2.2
      calls := r.calls ++ [.readFifo addr 4] }
    if res.1 ≠ 0 then (res.1, r)
    else if fifoCount.toNat > embSrvReadFifoMaxRegs then (mbeIllegalDataValue, r)
    else
      let txData := storeWord r.txPdu.data 0 (BitVec.ofNat 16 (fifoCount.toNat * 2 + 2))
      let tx : EmbPdu := { r.txPdu with
        function := 0x18
        dataSize := BitVec.ofNat 8 (readFifoAnsSize fifoCount.toNat)
        data := storeWord txData 2 (BitVec.ofNat 16 fifoCount.toNat) }
      if tx.maxSize.toNat < tx.dataSize.toNat then (mbeSlaveFailure, { r with txPdu := tx })
      else
        (0, { r with txPdu := { tx with
          data := Mem.swapWords tx.data 0 (fifoCount.toNat + 2) } })

end Emodbus
