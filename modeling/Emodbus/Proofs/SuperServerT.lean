import Emodbus.Proofs.RemoteMemory
import Emodbus.Proofs.ServerParts

/-!
# Servers of one super server are memories of their own

A request is served by the object at its address as if that were the only one (`reaction_at`), and
the blocks of the others stay.  So an operation is one on a `RemoteMemory` that is a part of it all
(`operate_eq`), and every run is one of separate flat memories.
-/

namespace Emodbus

open Octets Mealy

variable {κ : Type} [DecidableEq κ] {addr : κ → ℤ}

/-! ## The super server -/

namespace SuperServerT

variable {s : SuperServerT κ} {k : κ}

theorem getServer_at {address : Byte} (hat : s.serverAt addr address.toNat = some k) :
    ∃ getServer, (s.ssrv addr).getServer = some getServer
      ∧ getServer (BitVec.ofInt 8 address.toNat) = some (s.srv k) := by
  refine ⟨_, rfl, ?_⟩
  show (s.serverAt addr (BitVec.ofInt 8 ↑address.toNat).toNat).map s.srv = some (s.srv k)
  rw [BitVec.ofInt_natCast, BitVec.ofNat_toNat, BitVec.setWidth_eq, hat]
  rfl

omit [DecidableEq κ] in
/-- What the handler has returned decides what is answered. -/
theorem callFunction_known {σ : Type} (srv : EmbServerEntry σ) {r : SrvRun σ}
    {find : Byte → Option (EmbSrvFunction σ)} {func : EmbSrvFunction σ} {res : Byte × SrvRun σ}
    (hfind : srv.getFunction = some find) (hfunc : find r.rxPdu.function = some func)
    (hres : func.call srv.toEmbServer r = res) :
    callFunction srv r = if res.1 ≠ 0 then answerException res.2 res.1 else (res.2, []) := by
  subst hres
  unfold callFunction
  rw [hfind]
  dsimp only
  rw [hfunc]

omit [DecidableEq κ] in
theorem callFunction_unknown {σ : Type} (srv : EmbServerEntry σ) {r : SrvRun σ}
    {find : Byte → Option (EmbSrvFunction σ)} (hfind : srv.getFunction = some find)
    (hfunc : find r.rxPdu.function = none) :
    callFunction srv r = answerException r mbeIllegalFunction := by
  unfold callFunction
  rw [hfind]
  dsimp only
  rw [hfunc]

/-- A function that has been added to the object works on its blocks. -/
theorem callFunction_at {r : SrvRun (κ → ServerT)}
    (hknows : s.functions k r.rxPdu.function = true) :
    callFunction (s.srv k) r
      = ((callFunction serverT (r.part (.at_ k))).1.put (.at_ k) r.store,
          (callFunction serverT (r.part (.at_ k))).2) := by
  have hfound : ∀ func, getFunction (σ := κ → ServerT) r.rxPdu.function = func →
      (if s.functions k r.rxPdu.function then getFunction r.rxPdu.function else none) = func :=
    fun func hfunc => (if_pos hknows).trans hfunc
  rcases getFunction_local r.rxPdu.function with hnone | ⟨h, hmax, hlocal, hsome⟩
  · rw [callFunction_unknown (s.srv k) rfl (hfound _ (hnone _)),
      callFunction_unknown serverT (r := r.part (.at_ k)) rfl (hnone _)]
    unfold answerException
    simp [SrvRun.part, SrvRun.put]
  · rw [callFunction_known (s.srv k) rfl (hfound _ (hsome _)) (hlocal (.at_ k) _ r),
      callFunction_known serverT (r := r.part (.at_ k)) rfl (hsome _) rfl]
    dsimp only
    split_ifs <;> rfl

/-- A request for a function of the object is served by it as if it were alone. -/
theorem reaction_at {address : Byte} {r : SrvRun (κ → ServerT)}
    (hat : s.serverAt addr address.toNat = some k)
    (hknows : s.functions k r.rxPdu.function = true) :
    embSuperServerOnReceiveReq (s.ssrv addr) address.toNat r
      = let x := embSuperServerOnReceiveReq (superServerT address) address.toNat (r.part (.at_ k))
        ⟨x.run.put (.at_ k) r.store, x.sent, x.events⟩ := by
  obtain ⟨getServer, hget, hsrv⟩ := getServer_at hat
  have hone : (superServerT address).getServer
      = some fun addr => if addr = address then some serverT else none := rfl
  have haddress : BitVec.ofInt 8 address.toNat = address := by
    rw [BitVec.ofInt_natCast, BitVec.ofNat_toNat, BitVec.setWidth_eq]
  unfold embSuperServerOnReceiveReq
  rw [hget, hone]
  dsimp only
  rw [hsrv, if_pos haddress]
  dsimp only
  rw [callFunction_at hknows]
  rfl

/-- One that the object does not know is answered with an exception, and the blocks stay. -/
theorem reaction_unknown {address : Byte} {r : SrvRun (κ → ServerT)}
    (hat : s.serverAt addr address.toNat = some k)
    (hknows : s.functions k r.rxPdu.function = false) (hroom : 1 ≤ r.txPdu.maxSize.toNat) :
    ∃ answer, (embSuperServerOnReceiveReq (s.ssrv addr) address.toNat r).sent
        = [(↑address.toNat, answer)]
      ∧ embCheckPduForException answer ≠ 0
      ∧ (embSuperServerOnReceiveReq (s.ssrv addr) address.toNat r).run.store = r.store := by
  obtain ⟨getServer, hget, hsrv⟩ := getServer_at hat
  have hcall : callFunction (s.srv k) r = answerException r mbeIllegalFunction := by
    refine callFunction_unknown (s.srv k) rfl ?_
    rw [if_neg (by rw [hknows]; simp)]
  have hreact : embSuperServerOnReceiveReq (s.ssrv addr) address.toNat r
      = ⟨(answerException r mbeIllegalFunction).1,
          [(↑address.toNat, (answerException r mbeIllegalFunction).1.txPdu)],
          [(.onReceivePkt, 0), (.mbException, mbeIllegalFunction), (.respSent, 0)]⟩ := by
    unfold embSuperServerOnReceiveReq
    rw [hget]
    dsimp only
    rw [hsrv]
    dsimp only
    rw [hcall]
    rfl
  rw [hreact]
  refine ⟨_, rfl, ?_, rfl⟩
  have hcode := exception_decoded hroom r.rxPdu.function mbeIllegalFunction
  show embCheckPduForException (embBuildExceptionPdu r.txPdu r.rxPdu.function _).2 ≠ 0
  rw [hcode]
  unfold embExceptionBase
  omega

/-- Nobody is there. -/
theorem reaction_nobody {address : Byte} (r : SrvRun (κ → ServerT))
    (hat : s.serverAt addr address.toNat = none) :
    (embSuperServerOnReceiveReq (s.ssrv addr) address.toNat r).sent = []
      ∧ (embSuperServerOnReceiveReq (s.ssrv addr) address.toNat r).run = r := by
  unfold embSuperServerOnReceiveReq SuperServerT.ssrv
  dsimp only
  rw [BitVec.ofInt_natCast, BitVec.ofNat_toNat, BitVec.setWidth_eq, hat]
  exact ⟨rfl, rfl⟩

omit [DecidableEq κ] in
theorem any_addr (s : SuperServerT κ) (server : κ) :
    (s.servers.any fun i => addr i == addr server) = (s.serverAt addr (addr server)).isSome :=
  List.isSome_find?.symm

omit [DecidableEq κ] in
theorem addServer_taken {server : κ} (hat : s.serverAt addr (addr server) = some k) :
    s.addServer addr server = (s, false) := by
  unfold addServer
  rw [any_addr, hat]
  rfl

omit [DecidableEq κ] in
theorem addServer_free {server : κ} (hat : s.serverAt addr (addr server) = none) :
    s.addServer addr server = ({ s with servers := s.servers ++ [server] }, true) := by
  unfold addServer
  rw [any_addr, hat]
  rfl

omit [DecidableEq κ] in
/-- The first object that is added at an address is the one that is found there. -/
theorem serverAt_append {server : κ} (hat : s.serverAt addr (addr server) = none) :
    serverAt addr { s with servers := s.servers ++ [server] }
      = Function.update (s.serverAt addr) (addr server) (some server) := by
  funext a
  have hor : serverAt addr { s with servers := s.servers ++ [server] } a
      = (s.serverAt addr a).or (if addr server == a then some server else none) := by
    unfold serverAt
    rw [List.find?_append, List.find?_cons, List.find?_nil]
    cases addr server == a <;> rfl
  rw [hor]
  rcases eq_or_ne a (addr server) with rfl | hne
  · rw [hat, Function.update_self]
    simp
  · rw [Function.update_of_ne hne]
    simp [hne.symm]

end SuperServerT

/-! ## One operation -/

/-- The function of what is built is that of the wire form. -/
theorem BuildReq.Makes.function_eq {b : BuildReq} {w w' : Byte × List Byte} (h : b.Makes w)
    (h' : b.Makes w') (hlen : w.2.length ≤ 253) : w.1 = w'.1 := by
  have hbuilt : (b.makeReq ⟨0, 0, 253, fun _ => 0⟩).1 = 0 := (h.built_iff _).2 hlen
  exact (h.carries _ hbuilt).function.symm.trans (h'.carries _ hbuilt).function

/-- The request of an operation is built in a small transaction. -/
theorem MemoryOp.built {op : MemoryOp} {w : Wire} {alloc : ℕ → Bool} {tr : Transaction}
    (halloc : ∀ n ≤ 253, alloc n = true) (htr : tr.Small) (hw : op.1.wire = some w) :
    ∃ code tr', op.1.call.build.run alloc tr = (some code, tr') ∧ tr'.Small
      ∧ tr'.req.pdu.function = w.1 := by
  obtain ⟨b, hb⟩ := onMemory_build op.1 op.2
  have hkeeps (req : EmbPdu) : (op.1.call.build.makeReq req).2.maxSize = req.maxSize := by
    rw [hb]
    exact b.makeReq_maxSize req
  obtain ⟨w', hmakes', hfunction, -⟩ := ProxyOp.makes_iff hw
  have hne : op.1.wire ≠ none := by rw [hw]; exact Option.some_ne_none w
  obtain ⟨function, bytes, hmakes, hlen, hans⟩ : ∃ function bytes,
      op.1.call.build.Makes (function, bytes) ∧ bytes.length ≤ 253
        ∧ unsignedInt op.1.call.build.ansSize ≤ 253 := by
    rcases means_request op.1 op.2 hne with ⟨q, -, hmeans⟩ | ⟨q, -, hmeans⟩ <;>
      exact ⟨_, _, hmeans.makes, hmeans.length_le, hmeans.ansSize_le⟩
  obtain ⟨code, tr', hrun, hsmall, hcarries, -⟩ := hmakes.run_small halloc htr hlen hans hkeeps
  refine ⟨code, tr', hrun, hsmall, ?_⟩
  rw [hcarries.function, ← hfunction]
  exact hmakes.function_eq hmakes' hlen

namespace RemoteServers

variable {alloc : ℕ → Bool} {s : RemoteServers κ} {k : κ} {proxy : ℕ} {address : Byte}
  {op : MemoryOp} {code : ℤ} {tr : Transaction}

/-- An operation on the object at the address, for a function it knows, is one on it alone. -/
theorem operate_eq (hrun : op.1.call.build.run alloc (s.proxies proxy) = (some code, tr))
    (hat : s.ssrv.serverAt addr address.toNat = some k)
    (hknows : s.ssrv.functions k tr.req.pdu.function = true) :
    s.operate addr alloc proxy address op
      = (s.put k ((s.part k).step address alloc (proxy, op)).1,
          ((s.part k).step address alloc (proxy, op)).2) := by
  have hrun' : op.1.call.build.run alloc ((s.part k).proxies proxy) = (some code, tr) := hrun
  obtain ⟨r, hr⟩ :
      ∃ r, { s.ssrv.run with rxPdu := s.ssrv.run.rxPdu.receive tr.req.pdu } = r := ⟨_, rfl⟩
  have hpart : (s.part k).received tr.req.pdu = r.part (.at_ k) := by
    rw [← hr]
    rfl
  have hstore : r.store = s.ssrv.run.store := by rw [← hr]
  have hfunction : r.rxPdu.function = tr.req.pdu.function := by rw [← hr]; rfl
  unfold operate RemoteMemory.step
  dsimp only
  rw [hrun, hrun']
  dsimp only
  rw [hr, hpart, SuperServerT.reaction_at hat (by rw [hfunction]; exact hknows)]
  obtain ⟨x, hx⟩ : ∃ x, embSuperServerOnReceiveReq (superServerT address) address.toNat
      (r.part (.at_ k)) = x := ⟨_, rfl⟩
  rw [hx, hstore]
  obtain ⟨run, sent, events⟩ := x
  dsimp only
  rcases sent with _ | ⟨⟨slave, answer⟩, _ | ⟨second, rest⟩⟩ <;> rfl

/-- The relation: each object's blocks are its memory. -/
structure ServersFlat (addr : κ → ℤ) (l : κ → MemoryLayout) (s : RemoteServers κ)
    (m : ServerMemories κ) : Prop where
  small : ∀ i, (s.proxies i).Small
  rx : s.ssrv.run.rxPdu.maxSize = 253
  tx : s.ssrv.run.txPdu.maxSize = 253
  laid : ∀ k, MemoryLaid (l k) (s.ssrv.run.store k) (m.memory k)
  owner : ∀ a, m.owner a = s.ssrv.serverAt addr a
  knows : m.knows = s.ssrv.functions

section Refines

variable {l : κ → MemoryLayout} {m : ServerMemories κ}

omit [DecidableEq κ] in
theorem ServersFlat.small_update (h : ServersFlat addr l s m) {tr : Transaction}
    (htr : tr.Small) (i : ℕ) : (Function.update s.proxies proxy tr i).Small := by
  rcases eq_or_ne i proxy with rfl | hne
  · rw [Function.update_self]
    exact htr
  · rw [Function.update_of_ne hne]
    exact h.small i

omit [DecidableEq κ] in
/-- Nothing has been done, but the PDUs and the proxy's transaction are others. -/
theorem ServersFlat.untouched (h : ServersFlat addr l s m) (htr : tr.Small)
    {r : SrvRun (κ → ServerT)} (hstore : r.store = s.ssrv.run.store)
    (hrx : r.rxPdu.maxSize = 253) (htx : r.txPdu.maxSize = 253) :
    ServersFlat addr l
      ⟨Function.update s.proxies proxy tr, { s.ssrv with run := r }⟩ m :=
  ⟨h.small_update htr, hrx, htx, fun k => by rw [hstore]; exact h.laid k, h.owner, h.knows⟩

theorem ServersFlat.remote (h : ServersFlat addr l s m) (k : κ) :
    RemoteFlat (l k) (s.part k) (m.memory k) :=
  ⟨h.small, h.rx, h.tx, h.laid k⟩

/-- The one server has taken a step. -/
theorem ServersFlat.put (h : ServersFlat addr l s m) {k : κ} {r : RemoteMemory} {mem : FlatMemory}
    (hr : RemoteFlat (l k) r mem) :
    ServersFlat addr l (s.put k r) { m with memory := Function.update m.memory k mem } := by
  refine ⟨hr.small, hr.rx, hr.tx, fun i => ?_, h.owner, h.knows⟩
  show MemoryLaid (l i) (Function.update s.ssrv.run.store k r.run.store i)
    (Function.update m.memory k mem i)
  rcases eq_or_ne i k with rfl | hne
  · rw [Function.update_self, Function.update_self]
    exact hr.laid
  · rw [Function.update_of_ne hne, Function.update_of_ne hne]
    exact h.laid i

/-- An operation that is answered by no object, or with an exception. -/
theorem operate_refused (h : ServersFlat addr l s m)
    (hrun : op.1.call.build.run alloc (s.proxies proxy) = (some code, tr)) (htr : tr.Small)
    {x : SrvReaction (κ → ServerT)}
    (hx : embSuperServerOnReceiveReq (s.ssrv.ssrv addr) address.toNat
      { s.ssrv.run with rxPdu := s.ssrv.run.rxPdu.receive tr.req.pdu } = x)
    (hsent : x.sent = []
      ∨ ∃ answer, x.sent = [(↑address.toNat, answer)] ∧ embCheckPduForException answer ≠ 0)
    (hstore : x.run.store = s.ssrv.run.store) :
    (s.operate addr alloc proxy address op).2 = none
      ∧ ServersFlat addr l (s.operate addr alloc proxy address op).1 m := by
  have hsame := onReceiveReq_sameMax (s.ssrv.ssrv addr) address.toNat
    { s.ssrv.run with rxPdu := s.ssrv.run.rxPdu.receive tr.req.pdu }
  rw [hx] at hsame
  have hrx : x.run.rxPdu.maxSize = 253 := hsame.rx.trans h.rx
  have htx : x.run.txPdu.maxSize = 253 := hsame.tx.trans h.tx
  unfold operate
  dsimp only
  rw [hrun]
  dsimp only
  rw [hx]
  rcases hsent with hnil | ⟨answer, hone, herrno⟩
  · rw [hnil]
    exact ⟨rfl, h.untouched htr hstore hrx htx⟩
  · rw [hone]
    dsimp only
    rw [if_pos (RemoteMemory.doTransaction_refused tr herrno)]
    exact ⟨rfl, h.untouched (htr.doTransaction answer) hstore hrx htx⟩

/-- An operation is on the memory of the object at the address, if that knows its function. -/
theorem operate_refines (halloc : ∀ n ≤ 253, alloc n = true) (h : ServersFlat addr l s m)
    (hw : op.1.wire ≠ none) :
    (step addr alloc s (.operate proxy address op)).2
        = (m.step addr l (.operate proxy address op)).2
      ∧ ServersFlat addr l (step addr alloc s (.operate proxy address op)).1
          (m.step addr l (.operate proxy address op)).1 := by
  obtain ⟨w, hw'⟩ := Option.ne_none_iff_exists'.1 hw
  obtain ⟨code, tr, hrun, hsmall, hfunction⟩ := MemoryOp.built halloc (h.small proxy) hw'
  unfold step ServerMemories.step
  dsimp only
  rw [h.owner]
  cases hat : s.ssrv.serverAt addr address.toNat with
  | none =>
    obtain ⟨hsent, hsame⟩ := SuperServerT.reaction_nobody
      { s.ssrv.run with rxPdu := s.ssrv.run.rxPdu.receive tr.req.pdu } hat
    obtain ⟨hnone, hflat⟩ := operate_refused h hrun hsmall rfl (.inl hsent) (by rw [hsame])
    rw [hnone]
    exact ⟨rfl, hflat⟩
  | some k =>
    have htakes : m.takes k op = s.ssrv.functions k tr.req.pdu.function := by
      unfold ServerMemories.takes
      rw [hw', h.knows, hfunction]
      rfl
    dsimp only
    split_ifs with hknows
    · rw [htakes] at hknows
      rw [operate_eq hrun hat hknows]
      obtain ⟨hout, hflat⟩ := RemoteMemory.step_refines address halloc (h.remote k)
        (i := (proxy, op)) hw
      rw [hout]
      exact ⟨rfl, h.put hflat⟩
    · rw [htakes, Bool.not_eq_true] at hknows
      have hroom : 1 ≤ s.ssrv.run.txPdu.maxSize.toNat := by
        rw [h.tx]
        simp
      obtain ⟨answer, hsent, herrno, hstore⟩ := SuperServerT.reaction_unknown
        (r := { s.ssrv.run with rxPdu := s.ssrv.run.rxPdu.receive tr.req.pdu }) hat hknows hroom
      obtain ⟨hnone, hflat⟩ :=
        operate_refused h hrun hsmall rfl (.inr ⟨answer, hsent, herrno⟩) hstore
      rw [hnone]
      exact ⟨rfl, hflat⟩

theorem step_refines (halloc : ∀ n ≤ 253, alloc n = true) (h : ServersFlat addr l s m)
    {i : ServersInput κ} (hi : i.HasRequest) :
    (step addr alloc s i).2 = (m.step addr l i).2
      ∧ ServersFlat addr l (step addr alloc s i).1 (m.step addr l i).1 := by
  cases i with
  | addServer server =>
    unfold step ServerMemories.step
    dsimp only
    rw [h.owner]
    cases hat : s.ssrv.serverAt addr (addr server) with
    | some k =>
      rw [SuperServerT.addServer_taken hat]
      exact ⟨rfl, h⟩
    | none =>
      rw [SuperServerT.addServer_free hat]
      refine ⟨rfl, h.small, h.rx, h.tx, h.laid, fun a => ?_, h.knows⟩
      rw [SuperServerT.serverAt_append hat]
      have howner : m.owner = s.ssrv.serverAt addr := funext h.owner
      rw [howner]
  | addFunction server func =>
    refine ⟨rfl, h.small, h.rx, h.tx, h.laid, h.owner, ?_⟩
    show Function.update m.knows server (Function.update (m.knows server) func true)
      = Function.update s.ssrv.functions server
          (Function.update (s.ssrv.functions server) func true)
    rw [h.knows]
  | operate proxy address op => exact operate_refines halloc h hi

end Refines

omit [DecidableEq κ] in
theorem fresh_flat {stores : κ → ServerT} (hstores : ∀ k, (stores k).WellLaid)
    (function : Byte × Byte) :
    ServersFlat addr (fun k => (stores k).memoryLayout) (fresh function stores)
      (ServerMemories.start stores) :=
  ⟨fun _ => ⟨⟨rfl, rfl⟩, Nat.zero_le _, Nat.zero_le _⟩, rfl, rfl,
    fun k => ⟨⟨(hstores k).holdings.laid 0, (hstores k).inputRegs.laid 0⟩,
      ⟨(hstores k).coils.laid false, (hstores k).discreteInputs.laid false⟩⟩,
    fun _ => rfl, rfl⟩

end RemoteServers

/-! ## Every run -/

open RemoteServers in
/-- Objects with blocks of their own are added to a super server, in any order and between the
operations, and functions to them.  Whatever addresses they have, every operation whose arguments
have a request is on the memory of the first object that was added at its address, and the others
stay as they are; it throws where there is no object and where that does not know the function. -/
theorem servers_are_separate_memories (addr : κ → ℤ) (alloc : ℕ → Bool) (function : Byte × Byte)
    (stores : κ → ServerT) (is : List (ServersInput κ)) (halloc : ∀ n ≤ 253, alloc n = true)
    (hstores : ∀ k, (stores k).WellLaid) (his : ∀ i ∈ is, i.HasRequest) :
    let l k := (stores k).memoryLayout
    let final := run (step addr alloc) (fresh function stores) is
    let memories := run (ServerMemories.step addr l) (.start stores) is
    final.2 = memories.2
      ∧ ∀ k, MemoryLaid (l k) (final.1.ssrv.run.store k) (memories.1.memory k) := by
  have hlong : Along (step addr alloc) (fun _ (i : ServersInput κ) => i.HasRequest)
      (fresh function stores) is := along_of_forall his
  obtain ⟨hout, hflat⟩ := run_refines
    (R := ServersFlat addr fun k => (stores k).memoryLayout)
    (fun _ _ i hR hi => step_refines halloc hR (i := i) hi) is _ _
    (fresh_flat hstores function) hlong
  exact ⟨hout, hflat.laid⟩

/-- The first object is at address 1, the second at 2, the third at 1 as well, the last at 257. -/
def fourAddresses : ℕ → ℤ
  | 0 => 1
  | 1 => 2
  | 2 => 1
  | _ => 257

/-- Registers are written to two of the objects and read back; nobody is at 3, the one at 257 is
not spoken to, and coils are not known. -/
def askFour : List (ServersInput ℕ) :=
  [.operate 0 1 ⟨.writeHolding 8 5, rfl⟩,
    .addServer 0, .addServer 1, .addServer 2, .addServer 3,
    .addFunction 0 3, .addFunction 0 6, .addFunction 1 3, .addFunction 1 6, .addFunction 2 3,
    .operate 0 1 ⟨.writeHolding 8 5, rfl⟩, .operate 0 2 ⟨.writeHolding 8 6, rfl⟩,
    .operate 1 1 ⟨.readHoldings 8 1, rfl⟩, .operate 1 2 ⟨.readHoldings 8 1, rfl⟩,
    .operate 1 1 ⟨.readCoils 3 1, rfl⟩, .operate 0 3 ⟨.readHoldings 8 1, rfl⟩]

theorem servers_are_separate_memories_four :
    (run (RemoteServers.step fourAddresses fun _ => true)
        (RemoteServers.fresh (0, 0) fun _ => smallStore) askFour).2
      = [.did none, .added true, .added true, .added false, .added true,
        .added true, .added true, .added true, .added true, .added true,
        .did (some .nothing), .did (some .nothing),
        .did (some (.regs [5])), .did (some (.regs [6])),
        .did none, .did none] := by
  have hstore : smallStore.WellLaid :=
    ⟨⟨by decide, by decide, List.pairwise_singleton _ _⟩,
      ⟨by decide, by decide, List.Pairwise.nil⟩,
      ⟨by decide, by decide, List.pairwise_singleton _ _⟩,
      ⟨by decide, by decide, List.Pairwise.nil⟩⟩
  have his : ∀ i ∈ askFour, i.HasRequest := by
    simp [askFour, ServersInput.HasRequest, ProxyOp.wire, ProxyOp.readRegsWire,
      ProxyOp.readBitsWire]
  exact (servers_are_separate_memories fourAddresses (fun _ => true) (0, 0) (fun _ => smallStore)
    askFour (fun _ _ => rfl) (fun _ => hstore) his).1.trans rfl

end Emodbus
