/-
What the tracker's replies depend on besides the request.

The buffers of a connection are not cleared when it is made or closed, only when a reply has been
sent.  Two things can reach a reply or the cluster from there.  A handler reads fields of the request
that lie behind the end of a short body, and a string that has no NUL in the body goes on behind it.
And the reply has bytes that no handler stores: the padding of its header, the rest of an address
field behind the address, and the gap that the loop of `handle_cmd_heartbeat` leaves.
-/
import Lfs.Tracker.Dispatch

namespace Lfs.Tracker

open Lfs.Lib List Option Handled DatasevrVolume Reply

/-! ### What a handler reads -/

/-- The offset of the last string in the request of a command. -/
def TrackerCmd.lastString : TrackerCmd → Option ℕ
  | .register | .fullsync | .heartbeat | .syncreport | .statreport | .quited => some dsIpaddrOffset
  | .readTrackerReq => some 0
  | .writeTrackerReq | .test => none

/-- The offset of the last number in the request of a command. -/
def TrackerCmd.lastNumber : TrackerCmd → Option ℕ
  | .register => some 82
  | .syncreport => some 50
  | .statreport => some 66
  | .readTrackerReq => some 33
  | .fullsync | .heartbeat | .quited | .writeTrackerReq | .test => none

/-- The body holds all that the handler reads: the last string ends in it, and so does the last
number. -/
structure Complete (cmd : TrackerCmd) (body : List Byte) : Prop where
  string : ∀ p ∈ cmd.lastString, (0 : Byte) ∈ body.drop p
  number : ∀ p ∈ cmd.lastNumber, p + 8 ≤ body.length

instance (cmd : TrackerCmd) (body : List Byte) : Decidable (Complete cmd body) :=
  decidable_of_iff ((∀ p ∈ cmd.lastString, (0 : Byte) ∈ body.drop p) ∧
      ∀ p ∈ cmd.lastNumber, p + 8 ≤ body.length)
    ⟨fun ⟨h1, h2⟩ => ⟨h1, h2⟩, fun h => ⟨h.1, h.2⟩⟩

section Fields

variable {body r : List Byte} {p : ℕ}

lemma cstr_drop_append (h : (0 : Byte) ∈ body.drop p) (r : List Byte) :
    cstr ((body ++ r).drop p) = cstr (body.drop p) := by
  rw [drop_append]
  exact cstr_append_of_mem h _

lemma mapInfoOf_append (h : (0 : Byte) ∈ body.drop p) (r : List Byte) :
    mapInfoOf (body ++ r) = mapInfoOf body := cstr_append_of_mem (mem_of_mem_drop h) r

lemma dsIpaddrOf_append (h : (0 : Byte) ∈ body.drop dsIpaddrOffset) (r : List Byte) :
    dsIpaddrOf (body ++ r) = dsIpaddrOf body := cstr_drop_append h r

lemma longAt_append (h : p + 8 ≤ body.length) (r : List Byte) :
    longAt p (body ++ r) = longAt p body := by
  have hlength : 8 ≤ (body.drop p).length := by
    rw [length_drop]
    omega
  have htake : ((body ++ r).drop p).take 8 = (body.drop p).take 8 := by
    rw [drop_append, take_append_of_le_length hlength]
  exact buff2long_congr htake

/-- Every string can be continued in two ways that the hash function tells apart. -/
def Separates (hashFunc : List Byte → UInt32) : Prop :=
  ∀ s : List Byte, (0 : Byte) ∉ s → ∃ t u : List Byte, (0 : Byte) ∉ t ∧ (0 : Byte) ∉ u ∧
    hashFunc (s ++ t) ≠ hashFunc (s ++ u)

lemma exists_string {hashFunc : List Byte → UInt32} (hhash : Separates hashFunc)
    (h : (0 : Byte) ∉ body.drop p) :
    ∃ r₁ r₂, hashFunc (cstr ((body ++ r₁).drop p)) ≠ hashFunc (cstr ((body ++ r₂).drop p)) := by
  obtain ⟨t, u, ht, hu, hne⟩ := hhash _ h
  have hcstr (x : List Byte) (hx : (0 : Byte) ∉ x) :
      cstr ((body ++ (replicate (p - body.length) 0 ++ (x ++ [0]))).drop p) = body.drop p ++ x := by
    have hdrop : (replicate (p - body.length) (0 : Byte) ++ (x ++ [0])).drop
        (p - body.length) = x ++ [0] := drop_left' length_replicate
    rw [drop_append, hdrop, ← append_assoc]
    exact cstr_append (by simp [h, hx]) (by simp)
  refine ⟨replicate (p - body.length) 0 ++ (t ++ [0]),
    replicate (p - body.length) 0 ++ (u ++ [0]), ?_⟩
  rw [hcstr t ht, hcstr u hu]
  exact hne

lemma exists_number (h : body.length < p + 8) :
    ∃ r₁ r₂, longAt p (body ++ r₂) = longAt p (body ++ r₁) + 1 := by
  set y := body ++ replicate (p + 7 - body.length) (0 : Byte) with hy
  have hlength : y.length = p + 7 := by
    rw [hy, length_append, length_replicate]
    omega
  have hdrop (b : Byte) : (y ++ [b]).drop p = y.drop p ++ [b] :=
    drop_append_of_le_length (by omega)
  have hseven : (y.drop p).length = 7 := by
    rw [length_drop]
    omega
  refine ⟨replicate (p + 7 - body.length) 0 ++ [0], replicate (p + 7 - body.length) 0 ++ [1], ?_⟩
  rw [← append_assoc, ← append_assoc, ← hy, longAt, longAt, hdrop, hdrop]
  exact buff2long_snoc hseven

end Fields

/-! ### What a reply sends -/

/-- The byte at the offset `a` of the write buffer is sent without having been stored. -/
def Reply.Leaks (r : Reply) (a : ℕ) : Prop := a < r.wbytes ∧ ¬ Covered r.stores a

lemma Reply.response_eq_iff {r : Reply} {wbuff₁ wbuff₂ : ℕ → Byte} :
    r.response wbuff₁ = r.response wbuff₂ ↔ ∀ a, r.Leaks a → wbuff₁ a = wbuff₂ a := by
  rw [response, response, readFront_writeAll_eq_iff]
  exact ⟨fun h a ha => h a ha.1 ha.2, fun h a hlt hcov => h a ⟨hlt, hcov⟩⟩

/-- The record `k` of the reply to a heartbeat, with an address of `n` bytes, is stored over the offset
`a`. -/
def InBrief (n k a : ℕ) : Prop :=
  let p := sizeofHeader + recordPlace k * sizeofBrief
  p ≤ a ∧ a < p + 8 + n ∨ p + 24 ≤ a ∧ a < p + sizeofBrief

/-- Some reply to the command sends the byte at the offset `a` of the write buffer without having stored it:
the padding of the header, an address field if there is no address, and between the records of a
heartbeat.  The address of another server is not empty if that of the sender is. -/
def TrackerCmd.Unstored (cmd : TrackerCmd) (body : List Byte) (a : ℕ) : Prop :=
  match cmd with
  | .test => False
  | .register | .syncreport | .statreport | .quited => 10 ≤ a ∧ a < sizeofHeader
  | .fullsync | .writeTrackerReq | .readTrackerReq => 10 ≤ a ∧ a < sizeofHeader + 16
  | .heartbeat => 10 ≤ a ∧ ∀ k, ¬ InBrief (if dsIpaddrOf body = [] then 1 else 0) k a

lemma InBrief.le {n k a : ℕ} (h : InBrief n k a) : sizeofHeader + sizeofBrief * k ≤ a := by
  have hle := Nat.mul_le_mul_right sizeofBrief (recordPlace_strictMono.le_apply (x := k))
  rw [mul_comm]
  rcases h with h | h <;> omega

lemma covered_briefStores_iff {ps : List DatasevrBlock} {a : ℕ} :
    Covered (briefStores sizeofHeader 0 ps) a ↔ ∃ k, ∃ b ∈ ps[k]?, InBrief b.ipAddr.length k a := by
  have hrecord (p : ℕ) (b : DatasevrBlock) : Covered (briefRecord p b) a ↔
      p ≤ a ∧ a < p + 8 + b.ipAddr.length ∨ p + 24 ≤ a ∧ a < p + sizeofBrief := by
    simp [Covered, briefRecord, sizeofBrief, length_long2buff]
    omega
  have hmem (w : ℕ × List Byte) : w ∈ briefStores sizeofHeader 0 ps ↔ ∃ k, ∃ b ∈ ps[k]?,
      w ∈ briefRecord (sizeofHeader + recordPlace k * sizeofBrief) b := by
    have hmem : w ∈ briefStores sizeofHeader (0 * sizeofBrief) ps ↔ _ := mem_briefStores_iff
    simpa using hmem
  simp only [InBrief, ← hrecord]
  constructor
  · rintro ⟨w, hw, ha⟩
    obtain ⟨k, b, hb, hw⟩ := (hmem w).1 hw
    exact ⟨k, b, hb, w, hw, ha⟩
  · rintro ⟨k, b, hb, w, hw, ha⟩
    exact ⟨w, (hmem w).2 ⟨k, b, hb, hw⟩, ha⟩

namespace Reply

variable {r : Reply} {cmd : TrackerCmd} {status : TrackerStatus} {n a : ℕ}

lemma Leaks.ten_le (h : r.Leaks a) (hheader : headerStore n cmd status ∈ r.stores) : 10 ≤ a := by
  by_contra hlt
  refine h.2 ⟨_, hheader, Nat.zero_le a, ?_⟩
  simp only [headerStore, length_append, length_toLittleEndian, length_cons, length_nil]
  omega

lemma Leaks.lt_of_mem {p : ℕ} {d : List Byte} (h : r.Leaks a) (hmem : (p, d) ∈ r.stores)
    (hlt : a < p + d.length) : a < p := by
  by_contra hle
  exact h.2 ⟨_, hmem, Nat.le_of_not_lt hle, hlt⟩

lemma Leaks.ofAddress {dblk : DatasevrBlock} (h : (ofAddress cmd dblk).Leaks a) :
    10 ≤ a ∧ a < sizeofHeader + 16 :=
  ⟨h.ten_le mem_cons_self,
    h.lt_of_mem (d := long2buff dblk.port) (by simp [Reply.ofAddress]) (by rw [length_long2buff]; exact h.1)⟩

lemma leaks_header : (⟨[headerStore n cmd status], sizeofHeader⟩ : Reply).Leaks a ↔
    10 ≤ a ∧ a < sizeofHeader := by
  simp [Leaks, Covered, headerStore, length_toLittleEndian, and_comm]

lemma Leaks.ofPeers_iff {ps : List DatasevrBlock} : (ofPeers ps).Leaks a ↔
    10 ≤ a ∧ a < sizeofHeader + sizeofBrief * ps.length ∧ ∀ k, ∀ b ∈ ps[k]?, ¬ InBrief b.ipAddr.length k a := by
  have hheader : Covered [headerStore (ps.length * sizeofBrief) .heartbeat .success] a ↔ a < 10 := by
    simp [Covered, headerStore, length_toLittleEndian]
  rw [Leaks, ofPeers, covered_append, covered_briefStores_iff, hheader, mul_comm]
  simp only [not_or, not_exists, not_and, not_lt]
  tauto

end Reply

namespace ClusterState

variable {hashFunc : List Byte → UInt32} {heartBeatInterval now : ℤ} {draws a : ℕ} {cmd : TrackerCmd}
  {body : List Byte} {s : ClusterState} {h : Handled}

lemma handler_append (h : Complete cmd body) (r : List Byte) :
    s.handler hashFunc heartBeatInterval now draws cmd (body ++ r) =
      s.handler hashFunc heartBeatInterval now draws cmd body := by
  have hip (hp : dsIpaddrOffset ∈ cmd.lastString) : dsIpaddrOf (body ++ r) = dsIpaddrOf body ∧
      mapInfoOf (body ++ r) = mapInfoOf body :=
    ⟨dsIpaddrOf_append (h.string _ hp) r, mapInfoOf_append (h.string _ hp) r⟩
  have hfind (hp : dsIpaddrOffset ∈ cmd.lastString) :
      s.findBlock hashFunc (body ++ r) = s.findBlock hashFunc body := by
    rw [findBlock, findBlock, (hip hp).1, (hip hp).2]
  have hlong {p q : ℕ} (hp : p ∈ cmd.lastNumber) (hq : q ≤ p) :
      longAt q (body ++ r) = longAt q body :=
    longAt_append (le_trans (Nat.add_le_add_right hq 8) (h.number p hp)) r
  cases cmd with
  | register =>
    have hreq : regBodyReqOf (body ++ r) = regBodyReqOf body := by
      simp only [regBodyReqOf, (hip rfl).1, (hip rfl).2, hlong (p := 82) rfl (by decide : 50 ≤ 82),
        hlong (p := 82) rfl (by decide : 58 ≤ 82), hlong (p := 82) rfl (by decide : 66 ≤ 82),
        hlong (p := 82) rfl (by decide : 74 ≤ 82), hlong (p := 82) rfl le_rfl]
    simp only [handler, handleCmdRegister, hreq]
  | fullsync => simp only [handler, handleCmdFullsyncreq, hfind rfl, (hip rfl).2]
  | heartbeat =>
    simp only [handler, handleCmdHeartbeat, heartbeatPeers, hfind rfl, (hip rfl).1, (hip rfl).2]
  | syncreport => simp only [handler, handleCmdSyncreport, hfind rfl, hlong (p := 50) rfl le_rfl]
  | statreport =>
    simp only [handler, handleCmdStatreport, intAt, hfind rfl,
      hlong (p := 66) rfl (by decide : 50 ≤ 66), hlong (p := 66) rfl (by decide : 58 ≤ 66),
      hlong (p := 66) rfl le_rfl]
  | quited => simp only [handler, handleCmdQuited, hfind rfl]
  | writeTrackerReq => rfl
  | readTrackerReq =>
    have hmap : mapInfoOf (body ++ r) = mapInfoOf body := mapInfoOf_append (h.string 0 rfl) r
    simp only [handler, handleCmdReadtracker, hmap, hlong (p := 33) rfl le_rfl]
  | test => rfl

/-! ### The two executions -/

variable (hashFunc heartBeatInterval now draws) in
/-- The response and the cluster after a request, if the memory at `rcurr` is `req` and the write
buffer holds `wbuff`. -/
def respond (cmd : TrackerCmd) (req : List Byte) (wbuff : ℕ → Byte) (s : ClusterState) :
    Option (List Byte × ClusterState) :=
  (s.dispatchCmd hashFunc heartBeatInterval now draws cmd req).map fun h =>
    (h.reply.response wbuff, h.state)

variable {req₁ req₂ : List Byte} {wbuff₁ wbuff₂ : ℕ → Byte}

lemma map_state_dispatchCmd (req : List Byte) :
    (s.dispatchCmd hashFunc heartBeatInterval now draws cmd req).map state =
      (s.handler hashFunc heartBeatInterval now draws cmd req).map state := by
  rw [dispatchCmd, Option.map_map]
  congr 1
  funext h
  simp only [Function.comp_apply]
  split_ifs <;> rfl

section

variable (hrespond : s.respond hashFunc heartBeatInterval now draws cmd req₁ wbuff₁ =
  s.respond hashFunc heartBeatInterval now draws cmd req₂ wbuff₂)
include hrespond

lemma state_eq_of_respond_eq : (s.handler hashFunc heartBeatInterval now draws cmd req₁).map state =
      (s.handler hashFunc heartBeatInterval now draws cmd req₂).map state := by
  have hsnd := congrArg (Option.map Prod.snd) hrespond
  rw [respond, respond, Option.map_map, Option.map_map] at hsnd
  rw [← map_state_dispatchCmd, ← map_state_dispatchCmd]
  exact hsnd

lemma wbytes_eq_of_respond_eq :
    (s.dispatchCmd hashFunc heartBeatInterval now draws cmd req₁).map (fun h => h.reply.wbytes) =
      (s.dispatchCmd hashFunc heartBeatInterval now draws cmd req₂).map fun h => h.reply.wbytes := by
  have hfst := congrArg (Option.map fun o => o.1.length) hrespond
  rw [respond, respond, Option.map_map, Option.map_map] at hfst
  simpa [Function.comp_def, response, length_readFront] using hfst

end

/-! ### A body that is not complete -/

/-- A cluster with the blocks `bs`; the first block of each volume is its master. -/
def ofBlocks (bs : List DatasevrBlock) : ClusterState := ⟨⟨bs, wlcslCreate⟩, fun _ => 0, fun _ => 0⟩

variable (hashFunc) in
/-- The block of the server that sends `req`. -/
def senderBlock (req : List Byte) : DatasevrBlock :=
  { blockNew with
    parentVolumeId := hashFunc (mapInfoOf req)
    blockId := hashFunc (dsIpaddrOf req)
    ipAddr := dsIpaddrOf req }

lemma findBlock_sender (h : hashFunc (mapInfoOf req₂) = hashFunc (mapInfoOf req₁))
    (h' : hashFunc (dsIpaddrOf req₂) = hashFunc (dsIpaddrOf req₁)) :
    (ofBlocks [senderBlock hashFunc req₁]).findBlock hashFunc req₂ = some 0 := by
  simp [findBlock, Clusters.datasevrblockFind, Clusters.datasevrblockByidFind, ofBlocks,
    senderBlock, h, h', findIdx?_cons]

lemma findBlock_stranger (h : hashFunc (dsIpaddrOf req₁) ≠ hashFunc (dsIpaddrOf req₂)) :
    (ofBlocks [senderBlock hashFunc req₁]).findBlock hashFunc req₂ = none := by
  simp [findBlock, Clusters.datasevrblockFind, Clusters.datasevrblockByidFind, ofBlocks,
    senderBlock, h, findIdx?_cons]

lemma blocks_modifyBlock (b : DatasevrBlock) (f : DatasevrBlock → DatasevrBlock) :
    ((ofBlocks [b]).modifyBlock 0 f).clusters.blocks = [f b] := rfl

lemma blocks_statreport (b : DatasevrBlock) (conns totalMb freeMb : ℤ) :
    ((ofBlocks [b]).clusters.statreport now 0 conns totalMb freeMb draws).blocks =
      [b.statreport now conns totalMb freeMb] := rfl

lemma blocks_register_start (req : DatasevrRegBodyReq) :
    (start.clusters.handleCmdRegister hashFunc req).blocks =
      [(DatasevrBlock.ofRegister (hashFunc req.mapInfo) (hashFunc req.dsIpaddr) req).register req] :=
  rfl

def states (s : ClusterState) : List DatasevrState := s.clusters.blocks.map DatasevrBlock.state

/-- A request of the only server does something to its block, and one of another server does not. -/
lemma state_sender_ne (hcmd : cmd.lastString = some dsIpaddrOffset)
    (hne : hashFunc (dsIpaddrOf req₁) ≠ hashFunc (dsIpaddrOf req₂)) :
    ((ofBlocks [senderBlock hashFunc req₁]).handler hashFunc heartBeatInterval now draws cmd
        req₁).map state ≠
      ((ofBlocks [senderBlock hashFunc req₁]).handler hashFunc heartBeatInterval now draws cmd
        req₂).map state := by
  set s := ofBlocks [senderBlock hashFunc req₁] with hs
  have hself : s.findBlock hashFunc req₁ = some 0 := findBlock_sender rfl rfl
  have hother : s.findBlock hashFunc req₂ = none := findBlock_stranger hne
  intro heq
  have hstates := congrArg (Option.map states) heq
  cases cmd with
  | register =>
    simp only [handler, handleCmdRegister, map_some, some.injEq] at hstates
    have hlength := congrArg List.length hstates
    simp only [states, ok, clusters_register, Clusters.handleCmdRegister] at hlength
    rw [findBlock] at hself hother
    simp only [regBodyReqOf, hself, hother] at hlength
    exact absurd (show 1 = 2 from hlength) (by decide)
  | fullsync =>
    have hmaster : (s.volume (hashFunc (mapInfoOf req₁))).masterBlock =
        some (senderBlock hashFunc req₁) := by
      simp [hs, volume, ofBlocks, masterBlock, senderBlock]
    simp only [handler, handleCmdFullsyncreq, hself, hother, hmaster, map_some,
      some.injEq] at hstates
    exact absurd (show [DatasevrState.syncing] = [.init] from hstates) (by decide)
  | heartbeat =>
    simp only [handler, handleCmdHeartbeat, hself, hother, map_some, some.injEq,
      Clusters.handleCmdHeartbeat] at hstates
    rw [findBlock] at hself
    simp only [hself] at hstates
    simp [states, Clusters.heartbeatPeers, Clusters.modifyBlock, hs, ofBlocks, senderBlock,
      DatasevrBlock.heartbeat, fail, blockNew] at hstates
  | syncreport =>
    simp only [handler, handleCmdSyncreport, hself, hother, map_some, some.injEq] at hstates
    exact absurd (show [DatasevrState.active] = [.init] from hstates) (by decide)
  | statreport =>
    simp only [handler, handleCmdStatreport, hself, hother, map_some, some.injEq] at hstates
    exact absurd (show [DatasevrState.active] = [.init] from hstates) (by decide)
  | quited =>
    simp only [handler, handleCmdQuited, hself, hother, map_some, some.injEq] at hstates
    exact absurd (show [DatasevrState.offLine] = [.init] from hstates) (by decide)
  | writeTrackerReq | readTrackerReq | test => cases hcmd

/-- A read request for a volume with one block is answered with its address, one for a volume that is
not there with an error. -/
lemma wbytes_readTracker_ne (hne : hashFunc (mapInfoOf req₁) ≠ hashFunc (mapInfoOf req₂)) :
    ((ofBlocks [senderBlock hashFunc req₁]).dispatchCmd hashFunc heartBeatInterval now draws
        .readTrackerReq req₁).map (fun h => h.reply.wbytes) ≠
      ((ofBlocks [senderBlock hashFunc req₁]).dispatchCmd hashFunc heartBeatInterval now draws
        .readTrackerReq req₂).map fun h => h.reply.wbytes := by
  set s := ofBlocks [senderBlock hashFunc req₁] with hs
  have hthere : (s.volume (hashFunc (mapInfoOf req₁))).blocks = [senderBlock hashFunc req₁] := by
    simp [hs, volume, ofBlocks, senderBlock]
  have hnone : (s.volume (hashFunc (mapInfoOf req₂))).blocks = [] := by
    simp [hs, volume, ofBlocks, senderBlock, hne]
  have hindex (vid : UInt32) : (s.volume vid).masterBlockIndex = 0 := rfl
  simp [dispatchCmd, handler, handleCmdReadtracker, readdatasevrblockGet,
    readable, hthere, hnone, hindex, fail, writeErrorMsg,
    Reply.ofAddress, sizeofTrackerResp]

lemma bmod_succ_ne (n : ℤ) {m : ℕ} (hm : 1 < m) : (n + 1).bmod m ≠ n.bmod m := by
  intro h
  have hmod : (n + 1) % m = n % m := by rw [← Int.bmod_emod, h, Int.bmod_emod]
  have hdvd : (m : ℤ) ∣ n + 1 - n :=
    Int.dvd_of_emod_eq_zero (Int.emod_eq_emod_iff_emod_sub_eq_zero.1 hmod)
  rw [add_sub_cancel_left] at hdvd
  have hle := Int.le_of_dvd (by decide) hdvd
  omega

lemma state_report_ne {p : ℕ} (hcmd : cmd = .register ∧ p = 82 ∨ cmd = .syncreport ∧ p = 50 ∨
      cmd = .statreport ∧ p = 66)
    (hmap : mapInfoOf req₂ = mapInfoOf req₁) (hip : dsIpaddrOf req₂ = dsIpaddrOf req₁)
    (hlong : longAt p req₂ = longAt p req₁ + 1) :
    ∃ s : ClusterState, (s.handler hashFunc heartBeatInterval now draws cmd req₁).map state ≠
      (s.handler hashFunc heartBeatInterval now draws cmd req₂).map state := by
  have hfind₁ : (ofBlocks [senderBlock hashFunc req₁]).findBlock hashFunc req₁ = some 0 :=
    findBlock_sender rfl rfl
  have hfind₂ : (ofBlocks [senderBlock hashFunc req₁]).findBlock hashFunc req₂ = some 0 :=
    findBlock_sender (congrArg hashFunc hmap) (congrArg hashFunc hip)
  obtain ⟨rfl, rfl⟩ | ⟨rfl, rfl⟩ | ⟨rfl, rfl⟩ := hcmd
  · -- a block that is not known is stored with its `started_time`
    refine ⟨start, fun heq => ?_⟩
    have htimes := congrArg (Option.map fun s => s.clusters.blocks.map DatasevrBlock.startedTime) heq
    simp only [handler, handleCmdRegister, ok, map_some, some.injEq,
      clusters_register, blocks_register_start, map_cons, DatasevrBlock.register,
      DatasevrBlock.ofRegister, regBodyReqOf, cons.injEq, Int64.toInt_ofInt, hlong] at htimes
    exact bmod_succ_ne (longAt 82 req₁) (by decide) htimes.1.symm
  · refine ⟨ofBlocks [senderBlock hashFunc req₁], fun heq => ?_⟩
    have hmarks := congrArg
      (Option.map fun s => s.clusters.blocks.map DatasevrBlock.lastSyncSequence) heq
    simp only [handler, handleCmdSyncreport, hfind₁, hfind₂, ok, map_some,
      some.injEq, blocks_modifyBlock, map_cons, DatasevrBlock.syncreport,
      cons.injEq, hlong] at hmarks
    omega
  · refine ⟨ofBlocks [senderBlock hashFunc req₁], fun heq => ?_⟩
    have hfrees := congrArg (Option.map fun s => s.clusters.blocks.map DatasevrBlock.freeMb) heq
    simp only [handler, handleCmdStatreport, hfind₁, hfind₂, ok, map_some,
      some.injEq, blocks_statreport, map_cons, DatasevrBlock.statreport,
      cons.injEq, intAt, hlong] at hfrees
    exact bmod_succ_ne (longAt 66 req₁) (by decide) hfrees.1.symm

/-- The second server of a volume is read from if it is fresh enough. -/
lemma readdatasevrblockGet_two {dv : DatasevrVolume} {master slave : DatasevrBlock}
    (hblocks : dv.blocks = [master, slave]) (hmaster : dv.masterBlockIndex = 0)
    (hlast : dv.lastReadBlockIndex = 0)
    (halive : now - slave.lastHeartbeatTime ≤ heartBeatInterval) (n : ℤ) :
    dv.readdatasevrblockGet heartBeatInterval (fun _ => now) n =
      if n ≤ slave.lastSyncSequence then (some 1, { dv with lastReadBlockIndex := 1 })
      else (some 0, dv) := by
  have hread₀ : dv.readable heartBeatInterval (fun _ => now) n 0 = false := by
    simp [readable, hmaster]
  have hread₁ : dv.readable heartBeatInterval (fun _ => now) n 1 =
      decide (n ≤ slave.lastSyncSequence) := by
    simp [readable, hmaster, hlast, hblocks, halive]
  have hrange : range dv.blocks.length = [0, 1] := by rw [hblocks]; rfl
  rw [readdatasevrblockGet, hrange, find?_cons, hread₀, find?_cons, hread₁]
  by_cases hle : n ≤ slave.lastSyncSequence
  · simp [hle]
  · simp [hle, hmaster]

/-- Of two read requests for the same volume, one finds its second server fresh and the other one does
not. -/
lemma state_readTracker_ne {n : ℤ} (hmap : mapInfoOf req₂ = mapInfoOf req₁)
    (hlong₁ : longAt 33 req₁ = n) (hlong₂ : longAt 33 req₂ = n + 1) :
    ∃ s : ClusterState,
      (s.handler hashFunc heartBeatInterval now draws .readTrackerReq req₁).map state ≠
        (s.handler hashFunc heartBeatInterval now draws .readTrackerReq req₂).map state := by
  set vid := hashFunc (mapInfoOf req₁) with hvid
  set master : DatasevrBlock := { blockNew with parentVolumeId := vid } with hmaster
  set slave : DatasevrBlock :=
    { blockNew with
      parentVolumeId := vid
      lastHeartbeatTime := now - heartBeatInterval
      lastSyncSequence := n } with hslave
  set s := ofBlocks [master, slave] with hs
  have hblocks : (s.volume vid).blocks = [master, slave] := by
    simp [hs, volume, ofBlocks, hmaster, hslave]
  have hget := readdatasevrblockGet_two hblocks rfl rfl (sub_sub_cancel now heartBeatInterval).le
  refine ⟨s, fun heq => ?_⟩
  have hreads := congrArg (Option.map fun s => s.lastReadBlockIndex vid) heq
  have hstale : ¬ n + 1 ≤ n := by omega
  simp only [handler, handleCmdReadtracker, hmap, ← hvid, hlong₁, hlong₂, hget, hslave, le_refl,
    if_true, hstale, if_false] at hreads
  have hlast : (s.volume vid).lastReadBlockIndex = 0 := rfl
  simp [hblocks, hlast] at hreads

variable (hashFunc heartBeatInterval cmd body wbuff₁ wbuff₂) in
/-- The response and the cluster after a request with this body do not depend on what lies behind it
in the read buffer, nor on which of the two the write buffer holds. -/
def RequestAlone : Prop :=
  ∀ (s : ClusterState) (now : ℤ) (draws : ℕ) (r₁ r₂ : List Byte),
    s.respond hashFunc heartBeatInterval now draws cmd (body ++ r₁) wbuff₁ =
      s.respond hashFunc heartBeatInterval now draws cmd (body ++ r₂) wbuff₂

lemma RequestAlone.string (hhash : Separates hashFunc)
    (h : RequestAlone hashFunc heartBeatInterval cmd body wbuff₁ wbuff₂) :
    ∀ p ∈ cmd.lastString, (0 : Byte) ∈ body.drop p := by
  intro p hp
  by_contra hnul
  obtain ⟨r₁, r₂, hne⟩ := exists_string hhash hnul
  by_cases hip : cmd.lastString = some dsIpaddrOffset
  · obtain rfl : p = dsIpaddrOffset := some.inj (hp.symm.trans hip)
    exact state_sender_ne hip hne (state_eq_of_respond_eq (h _ 0 0 r₁ r₂))
  · -- only a read request has another last string
    obtain ⟨rfl, rfl⟩ : cmd = .readTrackerReq ∧ p = 0 := by
      cases cmd <;> simp_all [TrackerCmd.lastString]
    exact wbytes_readTracker_ne hne (wbytes_eq_of_respond_eq (h _ 0 0 r₁ r₂))

/-- If nothing else matters, every number ends in the body. -/
lemma RequestAlone.number (hhash : Separates hashFunc)
    (h : RequestAlone hashFunc heartBeatInterval cmd body wbuff₁ wbuff₂) :
    ∀ p ∈ cmd.lastNumber, p + 8 ≤ body.length := by
  intro p hp
  by_contra hshort
  obtain ⟨r₁, r₂, hlong⟩ := exists_number (Nat.lt_of_not_le hshort)
  have hstring := h.string hhash
  by_cases hread : cmd = .readTrackerReq
  · subst hread
    obtain rfl := some.inj hp
    have hmap : mapInfoOf (body ++ r₂) = mapInfoOf (body ++ r₁) := by
      rw [mapInfoOf_append (hstring 0 rfl), mapInfoOf_append (hstring 0 rfl)]
    obtain ⟨s, hs⟩ := @state_readTracker_ne hashFunc heartBeatInterval 0 0 _ _ _ hmap rfl hlong
    exact hs (state_eq_of_respond_eq (h s 0 0 r₁ r₂))
  · have hnul : (0 : Byte) ∈ body.drop dsIpaddrOffset := by
      refine hstring _ ?_
      cases cmd <;> simp_all [TrackerCmd.lastString, TrackerCmd.lastNumber]
    have hmap : mapInfoOf (body ++ r₂) = mapInfoOf (body ++ r₁) := by
      rw [mapInfoOf_append hnul, mapInfoOf_append hnul]
    have hip : dsIpaddrOf (body ++ r₂) = dsIpaddrOf (body ++ r₁) := by
      rw [dsIpaddrOf_append hnul, dsIpaddrOf_append hnul]
    have hcmd : cmd = .register ∧ p = 82 ∨ cmd = .syncreport ∧ p = 50 ∨ cmd = .statreport ∧ p = 66 := by
      cases cmd <;> simp_all [TrackerCmd.lastNumber]
    obtain ⟨s, hs⟩ := state_report_ne hcmd hmap hip hlong
    exact hs (state_eq_of_respond_eq (h s 0 0 r₁ r₂))

/-! ### A reply that is not stored as a whole -/

lemma unstored_of_header (hcmd : cmd ≠ .test) (ha : 10 ≤ a ∧ a < sizeofHeader) : cmd.Unstored body a := by
  cases cmd with
  | test => exact absurd rfl hcmd
  | register | syncreport | statreport | quited => exact ha
  | fullsync | writeTrackerReq | readTrackerReq => exact ⟨ha.1, ha.2.trans (by decide)⟩
  | heartbeat =>
    refine ⟨ha.1, fun k hk => ?_⟩
    have hle := hk.le
    omega

lemma ipAddr_ne_of_mem_heartbeatPeers {b : DatasevrBlock} (hb : b ∈ s.heartbeatPeers hashFunc body) :
    b.ipAddr ≠ dsIpaddrOf body := by
  unfold heartbeatPeers at hb
  dsimp only at hb
  split_ifs at hb
  · exact of_decide_eq_true (mem_filter.1 hb).2
  · exact absurd hb not_mem_nil

/-- What a handler that succeeds leaves unstored. -/
lemma Effect.unstored (he : s.Effect hashFunc heartBeatInterval now draws body cmd h)
    (hstatus : h.status = .success) (ha : h.reply.Leaks a) : cmd.Unstored body a := by
  cases he with
  | register | syncreport | statreport => exact leaks_header.1 ha
  | fullsync hfind master =>
    have hnow : a < sizeofHeader + 24 :=
      ha.lt_of_mem (d := long2buff now) (by simp) (by rw [length_long2buff]; exact ha.1)
    exact ⟨ha.ten_le mem_cons_self,
      ha.lt_of_mem (d := long2buff master.port) (by simp) (by rw [length_long2buff]; exact hnow)⟩
  | heartbeat =>
    obtain ⟨hten, hlt, hbriefs⟩ := Reply.Leaks.ofPeers_iff.1 ha
    refine ⟨hten, fun k hk => ?_⟩
    generalize hps : heartbeatPeers hashFunc body _ = ps at hlt hbriefs
    rcases hb : ps[k]? with _ | b
    · -- the record would lie behind the end of the reply
      have hle := hk.le
      have hk' := Nat.mul_le_mul_left sizeofBrief (getElem?_eq_none_iff.1 hb)
      omega
    · have hmem : b ∈ ps := mem_of_getElem? hb
      refine hbriefs k b hb (hk.imp_left fun hk => ⟨hk.1, hk.2.trans_le (Nat.add_le_add_left ?_ _)⟩)
      split_ifs with hip
      · subst hps
        exact length_pos_of_ne_nil (hip ▸ ipAddr_ne_of_mem_heartbeatPeers hmem)
      · exact Nat.zero_le _
  | quited => exact absurd ha.1 (Nat.not_lt_zero a)
  | write | read => exact ha.ofAddress
  | test =>
    have hten := ha.ten_le mem_cons_self
    exact absurd ha.1 (by simp only [handleCmdTest]; omega)
  | unknown _ _ hne => exact absurd hstatus hne
  | waiting | noWrite | noRead => exact absurd hstatus (by simp [fail])

/-- Only these bytes are sent without having been stored. -/
lemma unstored_of_leaks (hh : h ∈ s.dispatchCmd hashFunc heartBeatInterval now draws cmd body)
    (ha : h.reply.Leaks a) : cmd.Unstored body a := by
  obtain ⟨h, hhandler, rfl⟩ := map_eq_some_iff.1 hh
  split_ifs at ha with hstatus
  · exact (effect_handler hhandler).unstored hstatus ha
  · refine unstored_of_header ?_ ⟨ha.ten_le (mem_append_right _ mem_cons_self), ha.1⟩
    rintro rfl
    obtain rfl := some.inj hhandler
    exact hstatus rfl

variable (body) in
/-- An address as short as that of another server can be. -/
def shortAddress : List Byte := if dsIpaddrOf body = [] then [1] else []

variable (hashFunc body) in
/-- A volume with the server that sends `body` and `n` others with short addresses. -/
def crowd (n : ℕ) : ClusterState :=
  ofBlocks (senderBlock hashFunc body :: replicate n
    { blockNew with parentVolumeId := hashFunc (mapInfoOf body), ipAddr := shortAddress body })

lemma heartbeatPeers_eq_replicate {b c : DatasevrBlock} {n : ℕ}
    (hblocks : s.clusters.blocks = c :: replicate n b)
    (hsender : c.parentVolumeId = hashFunc (mapInfoOf body) ∧ c.ipAddr = dsIpaddrOf body)
    (hb : b.parentVolumeId = hashFunc (mapInfoOf body) ∧ b.ipAddr ≠ dsIpaddrOf body) :
    s.heartbeatPeers hashFunc body = replicate n b := by
  have hvolume : (s.volume (hashFunc (mapInfoOf body))).blocks = c :: replicate n b := by
    simp [volume, hblocks, hsender, hb]
  rw [heartbeatPeers, hvolume]
  cases n <;> simp [peers, hsender, hb]

variable (hashFunc heartBeatInterval now draws body) in
/-- The reply to a heartbeat names the others. -/
lemma heartbeat_crowd (n : ℕ) : ∃ b : DatasevrBlock, b.ipAddr = shortAddress body ∧
    ∃ h ∈ (crowd hashFunc body n).dispatchCmd hashFunc heartBeatInterval now draws .heartbeat body,
      h.reply = .ofPeers (replicate n b) := by
  have hshort : shortAddress body ≠ dsIpaddrOf body := by
    unfold shortAddress
    split_ifs with hnil
    · simp [hnil]
    · exact Ne.symm hnil
  have hfind : (crowd hashFunc body n).clusters.datasevrblockFind hashFunc (mapInfoOf body)
      (dsIpaddrOf body) = some 0 := by
    simp [Clusters.datasevrblockFind, Clusters.datasevrblockByidFind, crowd, ofBlocks, senderBlock,
      findIdx?_cons]
  -- what the loop of the handler does to a block
  set f : DatasevrBlock → DatasevrBlock := fun b =>
    if b.parentVolumeId = hashFunc (mapInfoOf body) ∧ b.ipAddr ≠ dsIpaddrOf body ∧
      heartBeatInterval < 0 then b.setOffLine else b with hf
  have hframe (b : DatasevrBlock) : (f b).parentVolumeId = b.parentVolumeId ∧ (f b).ipAddr = b.ipAddr := by
    simp only [hf]
    split_ifs <;> exact ⟨rfl, rfl⟩
  refine ⟨f { blockNew with parentVolumeId := hashFunc (mapInfoOf body), ipAddr := shortAddress body },
    (hframe _).2, _, rfl, ?_⟩
  simp only [handleCmdHeartbeat, findBlock, hfind, if_true]
  refine congrArg ofPeers (heartbeatPeers_eq_replicate
    (c := f ((senderBlock hashFunc body).heartbeat now)) ?_ (hframe _) ?_)
  · rw [Clusters.blocks_handleCmdHeartbeat hfind, ← map_replicate]
    rfl
  · rw [(hframe _).1, (hframe _).2]
    exact ⟨rfl, hshort⟩

variable (hashFunc body) in
/-- A volume with only the server that sends `body`, whose address is not known. -/
def nameless : ClusterState := ofBlocks [{ senderBlock hashFunc body with ipAddr := [] }]

/-- Each of these bytes is sent without having been stored in some state. -/
lemma exists_leaks (ha : cmd.Unstored body a) : ∃ (s : ClusterState) (now : ℤ) (draws : ℕ),
    ∃ h ∈ s.dispatchCmd hashFunc heartBeatInterval now draws cmd body, h.reply.Leaks a := by
  have haddress {cmd : TrackerCmd} {dblk : DatasevrBlock} (hip : dblk.ipAddr = [])
      (ha : 10 ≤ a ∧ a < sizeofHeader + 16) : (Reply.ofAddress cmd dblk).Leaks a := by
    simp [Reply.Leaks, Reply.ofAddress, Covered, headerStore, length_toLittleEndian, length_long2buff, hip]
    exact ⟨ha.2.trans (by decide), ha.1, by omega⟩
  have hblocks : ((nameless hashFunc body).volume (hashFunc (mapInfoOf body))).blocks =
      [{ senderBlock hashFunc body with ipAddr := [] }] := by
    simp [nameless, volume, ofBlocks, senderBlock]
  have hindex (vid : UInt32) : ((nameless hashFunc body).volume vid).masterBlockIndex = 0 := rfl
  cases cmd with
  | test => exact ha.elim
  | register | syncreport | statreport | quited => exact ⟨start, 0, 0, _, rfl, leaks_header.2 ha⟩
  | fullsync =>
    have hfind : (nameless hashFunc body).findBlock hashFunc body = some 0 := by
      simp [findBlock, Clusters.datasevrblockFind, Clusters.datasevrblockByidFind, nameless, ofBlocks,
        senderBlock, findIdx?_cons]
    refine ⟨nameless hashFunc body, 0, 0, _, rfl, ?_⟩
    simp only [handleCmdFullsyncreq, hfind, masterBlock, hblocks, hindex]
    simp [Reply.Leaks, Covered, headerStore, length_toLittleEndian, length_long2buff]
    have hlt : a < sizeofHeader + 16 := ha.2
    exact ⟨hlt.trans (by decide), ha.1, by omega, by omega⟩
  | heartbeat =>
    obtain ⟨b, hip, h, hh, hreply⟩ := heartbeat_crowd hashFunc heartBeatInterval 0 0 body a
    refine ⟨crowd hashFunc body a, 0, 0, h, hh, ?_⟩
    rw [hreply, Reply.Leaks.ofPeers_iff, length_replicate, sizeofHeader, sizeofBrief]
    refine ⟨ha.1, by omega, fun k b' hb' => ?_⟩
    obtain rfl := eq_of_mem_replicate (mem_of_getElem? hb')
    have hnot := ha.2 k
    rw [hip, shortAddress]
    split_ifs at hnot ⊢ with hnil <;> exact hnot
  | writeTrackerReq =>
    -- a server whose last heartbeat is not too long ago
    set b : DatasevrBlock := { blockNew with lastHeartbeatTime := -heartBeatInterval } with hb
    set t : Clusters := ⟨[b], wlcslCreate.wlcslInsert (fun _ => 0) 1 1 0⟩ with ht
    have hexpired : t.expired heartBeatInterval 0 0 = false := by
      simp [Clusters.expired, Clusters.block, ht, hb]
    have hforward : t.wlcsl.forward none 0 = some 0 := rfl
    have hget : t.handleCmdWritetracker heartBeatInterval 0 = some (some 0, t) := by
      have hdblk : t.wlcsl.dblk 0 = 0 := rfl
      simp [Clusters.handleCmdWritetracker, WlcSkiplist.clusterWlcWriteBlockGet, WlcSkiplist.writeBlockLoop,
        hforward, hdblk, hexpired]
    refine ⟨⟨t, fun _ => 0, fun _ => 0⟩, 0, 0, ⟨.success, .ofAddress .writeTrackerReq b, false,
      ⟨t, fun _ => 0, fun _ => 0⟩⟩, ?_, haddress rfl ha⟩
    simp only [dispatchCmd, handler, handleCmdWritetracker, hget, map_some, if_true]
    rfl
  | readTrackerReq =>
    refine ⟨nameless hashFunc body, 0, 0, _, rfl, ?_⟩
    simp only [handleCmdReadtracker, readdatasevrblockGet, hblocks, hindex]
    exact haddress rfl ha

/-! ### The two conditions -/

lemma respond_eq_iff (hbody : Complete cmd body) (r₁ r₂ : List Byte) :
    s.respond hashFunc heartBeatInterval now draws cmd (body ++ r₁) wbuff₁ =
        s.respond hashFunc heartBeatInterval now draws cmd (body ++ r₂) wbuff₂ ↔
      ∀ h ∈ s.dispatchCmd hashFunc heartBeatInterval now draws cmd body,
        ∀ a, h.reply.Leaks a → wbuff₁ a = wbuff₂ a := by
  rw [respond, respond, dispatchCmd, dispatchCmd, handler_append hbody, handler_append hbody,
    ← dispatchCmd]
  cases s.dispatchCmd hashFunc heartBeatInterval now draws cmd body with
  | none => simp
  | some h => simp [response_eq_iff]

/-- **Replies to the request alone.**  The response and the cluster after a request depend on nothing
but the request if and only if the body is complete, and the write buffers are the same at the offsets
that replies to the command leave unstored. -/
theorem request_alone_iff (hhash : Separates hashFunc) (heartBeatInterval : ℤ) (cmd : TrackerCmd)
    (body : List Byte) (wbuff₁ wbuff₂ : ℕ → Byte) :
    RequestAlone hashFunc heartBeatInterval cmd body wbuff₁ wbuff₂ ↔
      Complete cmd body ∧ ∀ a, cmd.Unstored body a → wbuff₁ a = wbuff₂ a := by
  constructor
  · intro h
    have hbody : Complete cmd body := ⟨h.string hhash, h.number hhash⟩
    refine ⟨hbody, fun a ha => ?_⟩
    obtain ⟨s, now, draws, handled, hhandled, hleaks⟩ := exists_leaks ha
    exact (respond_eq_iff hbody [] []).1 (h s now draws [] []) handled hhandled a hleaks
  · rintro ⟨hbody, hsame⟩ s now draws r₁ r₂
    exact (respond_eq_iff hbody r₁ r₂).2 fun _ hhandled a hleaks => hsame a (unstored_of_leaks hhandled hleaks)

def lengthHash (s : List Byte) : UInt32 := UInt32.ofNat s.length

lemma separates_lengthHash : Separates lengthHash := by
  intro s _
  refine ⟨[], [1], by decide, by decide, fun heq => ?_⟩
  have hnat := congrArg UInt32.toNat heq
  simp only [lengthHash, UInt32.toNat_ofNat', append_nil, length_append, length_singleton] at hnat
  omega

/-- A read request for the volume `A` and the time 1. -/
def readBody : List Byte := 65 :: replicate 39 0 ++ [1]

/-- A server of this volume with the address `1.2`. -/
def readServer : DatasevrBlock :=
  { blockNew with parentVolumeId := lengthHash [65], ipAddr := [49, 46, 50], port := 80 }

/-- Two write buffers that are the same from the padding of the header to the end of the address field, and
nowhere else. -/
theorem readBody_alone : RequestAlone lengthHash 30 .readTrackerReq readBody (fun _ => 0)
      (fun a => if 10 ≤ a ∧ a < sizeofHeader + 16 then 0 else 53) :=
  (request_alone_iff separates_lengthHash 30 .readTrackerReq readBody _ _).2
    ⟨by decide, fun _ ha => (if_pos ha).symm⟩

/-- On a new connection the write buffer may hold anything, here the letter `5`, and then the address
in the response is another one.  And of a register request without a body everything is what the
read buffer holds. -/
theorem staleBytes_not_alone :
    (((ofBlocks [readServer]).respond lengthHash 30 7 0 .readTrackerReq readBody fun _ => 0).map
        fun o => cstr (o.1.drop 16)) = some [49, 46, 50] ∧
      (((ofBlocks [readServer]).respond lengthHash 30 7 0 .readTrackerReq readBody fun _ => 53).map
        fun o => cstr (o.1.drop 16)) = some ([49, 46, 50] ++ replicate 13 53) ∧
      ¬ RequestAlone lengthHash 30 .readTrackerReq readBody (fun _ => 0) (fun _ => 53) ∧
      ¬ RequestAlone lengthHash 30 .register [] (fun _ => 0) (fun _ => 0) := by
  have hzero : (((ofBlocks [readServer]).respond lengthHash 30 7 0 .readTrackerReq readBody
      fun _ => 0).map fun o => cstr (o.1.drop 16)) = some [49, 46, 50] := by decide +kernel
  have hfive : (((ofBlocks [readServer]).respond lengthHash 30 7 0 .readTrackerReq readBody
      fun _ => 53).map fun o => cstr (o.1.drop 16)) = some ([49, 46, 50] ++ replicate 13 53) := by
    decide +kernel
  refine ⟨hzero, hfive, fun h => ?_, fun h => ?_⟩
  · have heq := h (ofBlocks [readServer]) 7 0 [] []
    rw [append_nil] at heq
    rw [heq, hfive] at hzero
    exact absurd hzero (by decide)
  · have heq := congrArg (Option.map fun o => o.2.clusters.blocks.map DatasevrBlock.mapInfo)
      (h start 7 0 [65] [66])
    exact absurd heq (by decide +kernel)

end ClusterState

end Lfs.Tracker
