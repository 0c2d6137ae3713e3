import Emodbus.Server

/-!
# The handlers for registers

`server/read_regs.c`, `server/write_single_reg.c`, `server/write_multi_regs.c`,
`server/write_mask_reg.c` and `server/read_write_regs.c`.  The callbacks work on the host's words,
so a handler swaps the bytes of what was read in the response, and of what is to be written in the
request.
-/

namespace Emodbus

open Octets

variable {σ : Type}

/-- The callback `emb_srv_read_regs` asks for a block: none for any other function. -/
def regsGetter (srv : EmbServer σ) (function : Byte) : Option (Word → σ → Option (EmbSrvRegs σ)) :=
  if function = 0x03 then srv.getHoldingRegs
  else if function = 0x04 then srv.getInputRegs
  else some fun _ _ => none

/-- `emb_srv_read_regs`. -/
def embSrvReadRegs : SrvHandler σ := fun srv r =>
  let rxData := r.rxPdu.data
  let function := r.rxPdu.function
  let startAddr := getBigEnd16 rxData 0
  let quantity := getBigEnd16 rxData 2
  match lookUp (regsGetter srv function) startAddr r.store with
  | .error code => (code, r)
  | .ok block =>
    if ¬ (1 ≤ quantity.toNat ∧ quantity.toNat ≤ 0x007D) then (mbeIllegalDataValue, r)
    else if block.start.toNat + block.size.toNat < startAddr.toNat + quantity.toNat then
      (mbeIllegalDataAddr, r)
    else
      match block.readRegs with
      | none => (mbeIllegalDataAddr, r)
      | some readRegs =>
        let tx := { r.txPdu with
          function := function
          dataSize := BitVec.ofNat 8 (readHoldingsAnsSize quantity.toNat)
          data := Mem.blit r.txPdu.data 0 [BitVec.ofNat 8 (quantity.toNat * 2)] }
        if tx.maxSize.toNat < tx.dataSize.toNat then (mbeSlaveFailure, { r with txPdu := tx })
        else
          let res := readRegs (startAddr - block.start) quantity r.store
          let txData := Mem.blit tx.data 1 (Mem.le res.2.1)
          let calls := r.calls ++
            [.readRegs block.start block.size (startAddr - block.start) quantity (some 1)]
          if res.1 ≠ 0 then
            (res.1, { r with
              txPdu := { tx with data := txData }, store := res.2.2, calls := calls })
          else
            (0, { r with
              txPdu := { tx with data := Mem.swapWords txData 1 quantity.toNat }
              store := res.2.2
              calls := calls })

/-- `emb_srv_write_reg`. -/
def embSrvWriteReg : SrvHandler σ := fun srv r =>
  let rxData := r.rxPdu.data
  let addr := getBigEnd16 rxData 0
  let data := getBigEnd16 rxData 2
  match lookUp srv.getHoldingRegs addr r.store with
  | .error code => (code, r)
  | .ok block =>
    match block.writeRegs with
    | none => (mbeIllegalDataAddr, r)
    | some writeRegs =>
      let res := writeRegs (addr - block.start) 1 [data] r.store
      let r := { r with
        store := res.2
        calls := r.calls ++ [.writeRegs block.start block.size (addr - block.start) 1 [data]] }
      if res.1 ≠ 0 then (res.1, r)
      else if r.txPdu.maxSize.toNat < writeRegisterAnsSize then (mbeSlaveFailure, r)
      else
        (0, { r with txPdu := { r.txPdu with
          function := 0x06
          dataSize := BitVec.ofNat 8 writeRegisterAnsSize
          data := bigEndMk16 (bigEndMk16 r.txPdu.data 0 addr) 2 data } })

/-- `emb_srv_write_regs`. -/
def embSrvWriteRegs : SrvHandler σ := fun srv r =>
  let rxData := r.rxPdu.data
  let startAddr := getBigEnd16 rxData 0
  let quantity := getBigEnd16 rxData 2
  let byteCount := rxData 4
  if ¬ (1 ≤ quantity.toNat ∧ quantity.toNat ≤ 0x007B) ∨ byteCount.toNat ≠ quantity.toNat * 2 then
    (mbeIllegalDataValue, r)
  else
    match lookUp srv.getHoldingRegs startAddr r.store with
    | .error code => (code, r)
    | .ok block =>
      if block.start.toNat + block.size.toNat < startAddr.toNat + quantity.toNat then
        (mbeIllegalDataAddr, r)
      else
        match block.writeRegs with
        | none => (mbeIllegalDataAddr, r)
        | some writeRegs =>
          if r.txPdu.maxSize.toNat < writeRegistersAnsSize then (mbeSlaveFailure, r)
          else
            let rxData := Mem.swapWords rxData 5 quantity.toNat
            let values := Mem.leWords rxData 5 quantity.toNat
            let res := writeRegs (startAddr - block.start) quantity values r.store
            let r := { r with
              rxPdu := { r.rxPdu with data := rxData }
              store := res.2
              calls := r.calls ++
                [.writeRegs block.start block.size (startAddr - block.start) quantity values] }
            if res.1 ≠ 0 then (res.1, r)
            else
              (0, { r with txPdu := { r.txPdu with
                function := 0x10
                dataSize := BitVec.ofNat 8 writeRegistersAnsSize
                data := bigEndMk16 (bigEndMk16 r.txPdu.data 0 startAddr) 2 quantity } })

/-- `emb_srv_mask_reg`. -/
def embSrvMaskReg : SrvHandler σ := fun srv r =>
  let rxData := r.rxPdu.data
  let addr := getBigEnd16 rxData 0
  let andMask := getBigEnd16 rxData 2
  let orMask := getBigEnd16 rxData 4
  match lookUp srv.getHoldingRegs addr r.store with
  | .error code => (code, r)
  | .ok block =>
    match block.readRegs, block.writeRegs with
    | some readRegs, some writeRegs =>
      let res := readRegs (addr - block.start) 1 r.store
      let r := { r with
        store := res.2.2
        calls := r.calls ++ [.readRegs block.start block.size (addr - block.start) 1 none] }
      if res.1 ≠ 0 then (res.1, r)
      else
        let tmp := res.2.1.headD 0
        let tmp := (tmp &&& andMask) ||| (orMask &&& ~~~andMask)
        let res := writeRegs (addr - block.start) 1 [tmp] r.store
        let r := { r with
          store := res.2
          calls := r.calls ++ [.writeRegs block.start block.size (addr - block.start) 1 [tmp]] }
        if res.1 ≠ 0 then (res.1, r)
        else if r.txPdu.maxSize.toNat < maskRegisterAnsSize then (mbeSlaveFailure, r)
        else
          let txData := storeWord r.txPdu.data 0 (swapBytes addr)
          let txData := storeWord txData 2 (swapBytes andMask)
          let txData := storeWord txData 4 (swapBytes orMask)
          (0, { r with txPdu := { r.txPdu with
            function := 0x16, dataSize := BitVec.ofNat 8 maskRegisterAnsSize, data := txData } })
    | _, _ => (mbeIllegalDataAddr, r)

/-- `EMB_SRV_RDWR_REGS_MAX_READ_REGS`. -/
def embSrvRdwrRegsMaxReadRegs : ℕ := 0x007D

/-- `EMB_SRV_RDWR_REGS_MAX_WRITE_REGS`. -/
def embSrvRdwrRegsMaxWriteRegs : ℕ := 0x0079

/-- The end of `emb_srv_read_write_regs`, from the swap of the registers for write on. -/
def writeThenRead (r : SrvRun σ) (wrRegs rdRegs : EmbSrvRegs σ)
    (writeRegs : Word → Word → List Word → σ → Byte × σ)
    (readRegs : Word → Word → σ → Byte × List Word × σ)
    (wrStartAddr wrQuantity rdStartAddr rdQuantity : Word) : Byte × SrvRun σ :=
  let rxData := Mem.swapWords r.rxPdu.data 9 wrQuantity.toNat
  let values := Mem.leWords rxData 9 wrQuantity.toNat
  let res := writeRegs (wrStartAddr - wrRegs.start) wrQuantity values r.store
  let r := { r with
    rxPdu := { r.rxPdu with data := rxData }
    store := res.2
    calls := r.calls ++
      [.writeRegs wrRegs.start wrRegs.size (wrStartAddr - wrRegs.start) wrQuantity values] }
  if res.1 ≠ 0 then (res.1, r)
  else
    let txData := Mem.blit r.txPdu.data 0 [BitVec.ofNat 8 (rdQuantity.toNat * 2)]
    let res := readRegs (rdStartAddr - rdRegs.start) rdQuantity r.store
    let txData := Mem.blit txData 1 (Mem.le res.2.1)
    let r := { r with
      txPdu := { r.txPdu with data := txData }
      store := res.2.2
      calls := r.calls ++
        [.readRegs rdRegs.start rdRegs.size (rdStartAddr - rdRegs.start) rdQuantity (some 1)] }
    if res.1 ≠ 0 then (res.1, r)
    else
      (0, { r with txPdu := { r.txPdu with
        function := 0x17
        dataSize := BitVec.ofNat 8 (readWriteRegsAnsSize rdQuantity.toNat)
        data := Mem.swapWords txData 1 rdQuantity.toNat } })

/-- `emb_srv_read_write_regs`. -/
def embSrvReadWriteRegs : SrvHandler σ := fun srv r =>
  let rxData := r.rxPdu.data
  let rdStartAddr := getBigEnd16 rxData 0
  let rdQuantity := getBigEnd16 rxData 2
  let wrStartAddr := getBigEnd16 rxData 4
  let wrQuantity := getBigEnd16 rxData 6
  let byteCount := rxData 8
  if ¬ (1 ≤ rdQuantity.toNat ∧ rdQuantity.toNat ≤ embSrvRdwrRegsMaxReadRegs) then
    (mbeIllegalDataValue, r)
  else if ¬ (1 ≤ wrQuantity.toNat ∧ wrQuantity.toNat ≤ embSrvRdwrRegsMaxWriteRegs) then
    (mbeIllegalDataValue, r)
  else if byteCount.toNat ≠ wrQuantity.toNat * 2 then (mbeIllegalDataValue, r)
  else
    match lookUp srv.getHoldingRegs wrStartAddr r.store with
    | .error code => (code, r)
    | .ok wrRegs =>
      if wrRegs.start.toNat + wrRegs.size.toNat < wrStartAddr.toNat + wrQuantity.toNat then
        (mbeIllegalDataAddr, r)
      else
        match wrRegs.writeRegs with
        | none => (mbeIllegalFunction, r)
        | some writeRegs =>
          match lookUp srv.getHoldingRegs rdStartAddr r.store with
          | .error code => (code, r)
          | .ok rdRegs =>
            if rdRegs.start.toNat + rdRegs.size.toNat < rdStartAddr.toNat + rdQuantity.toNat then
              (mbeIllegalDataAddr, r)
            else
              match rdRegs.readRegs with
              | none => (mbeIllegalFunction, r)
              | some readRegs =>
                if r.txPdu.maxSize.toNat < readWriteRegsAnsSize rdQuantity.toNat then
                  (mbeSlaveFailure, r)
                else
                  writeThenRead r wrRegs rdRegs writeRegs readRegs wrStartAddr wrQuantity
                    rdStartAddr rdQuantity

end Emodbus
