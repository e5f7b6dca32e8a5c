/-
The command handlers of the tracker on the buffers of a connection (`dispatch_cmd` in `ts_thread.c`,
`ts_service.c`).

A handler lays a struct over the read buffer at `rcurr`, without a look at `body_len`: what it takes
for the request is all the memory from there on.  Of the write buffer it reads nothing, so what it
does there is the list of its stores, and of the reply only `wbytes` is known besides.  The first
`wbytes` bytes of the buffer are sent, whether they have been stored or not.  What each handler does is
said once (`Effect`), and that of a heartbeat is the loop of `Lfs.Tracker.Heartbeat`
(`handleCmdHeartbeat_volume`).
-/
import Lfs.Tracker.Heartbeat
import Lfs.Tracker.Master
import Mathlib.Order.Monotone.Basic

namespace Lfs.Tracker

open Lfs.Lib List Option

/-! ### The protocol -/

/-- The values of `protocol_cmd` that the tracker dispatches. -/
inductive TrackerCmd where
  | register
  | fullsync
  | heartbeat
  | syncreport
  | statreport
  | quited
  | writeTrackerReq
  | readTrackerReq
  | test
deriving DecidableEq

def TrackerCmd.toByte : TrackerCmd → Byte
  | .register => 0x01
  | .fullsync => 0x02
  | .heartbeat => 0x03
  | .syncreport => 0x04
  | .statreport => 0x05
  | .quited => 0x0F
  | .writeTrackerReq => 0x10
  | .readTrackerReq => 0x11
  | .test => 0x99

/-- The values of `protocol_resp_status` that the tracker answers. -/
inductive TrackerStatus where
  | success
  | error
  | errorPackagesizeOverflow
  | errorNonedatasevrblocks
  | errorUnregister
  | syncsettingWaiting
  | errorNoWriteDataserver
  | errorNoReadDataserver
deriving DecidableEq

def TrackerStatus.toByte : TrackerStatus → Byte
  | .success => 0x00
  | .error => 0x01
  | .errorPackagesizeOverflow => 0x0B
  | .errorNonedatasevrblocks => 0x0C
  | .errorUnregister => 0x0E
  | .syncsettingWaiting => 0x0F
  | .errorNoWriteDataserver => 0x40
  | .errorNoReadDataserver => 0x41

/-- `sizeof(protocol_header)`.  The fields take 10 bytes of it. -/
def sizeofHeader : ℕ := 16

/-- `sizeof(lfs_tracker_resp)`. -/
def sizeofTrackerResp : ℕ := 24

/-- `sizeof(datasevr_masterblock_body_resp)`. -/
def sizeofMasterblock : ℕ := 32

/-- What a handler does to the write buffer. -/
structure Reply where
  /-- The bytes that are stored, with their offsets in the buffer. -/
  stores : List (ℕ × List Byte)
  wbytes : ℕ
deriving DecidableEq

/-- The bytes that are sent, if `wbuff` was in the write buffer. -/
def Reply.response (r : Reply) (wbuff : ℕ → Byte) : List Byte :=
  readFront r.wbytes (writeAll r.stores wbuff)

def headerStore (bodyLen : ℕ) (cmd : TrackerCmd) (status : TrackerStatus) : ℕ × List Byte :=
  (0, toLittleEndian 8 bodyLen ++ [cmd.toByte, status.toByte])

def Reply.ofStatus (cmd : TrackerCmd) (status : TrackerStatus) : Reply :=
  ⟨[headerStore 0 cmd status], sizeofHeader⟩

/-- An `lfs_tracker_resp` with the address of a block.  It is copied without its NUL. -/
def Reply.ofAddress (cmd : TrackerCmd) (dblk : DatasevrBlock) : Reply where
  stores := [headerStore sizeofTrackerResp cmd .success, (sizeofHeader, dblk.ipAddr),
    (sizeofHeader + 16, long2buff dblk.port)]
  wbytes := sizeofHeader + sizeofTrackerResp

/-- The stores of a `block_brief_info_resp` at the address `p`. -/
def briefRecord (p : ℕ) (b : DatasevrBlock) : List (ℕ × List Byte) :=
  [(p, long2buff b.state.toInt), (p + 8, b.ipAddr), (p + 24, long2buff b.port),
    (p + 32, long2buff b.lastSyncSequence)]

/-- The stores of the loop of `handle_cmd_heartbeat` for the blocks of the other servers, from its
variables `p` and `body_len` on. -/
def briefStores : ℕ → ℕ → List DatasevrBlock → List (ℕ × List Byte)
  | _, _, [] => []
  | p, bodyLen, b :: bs =>
    briefRecord p b ++ briefStores (p + (bodyLen + sizeofBrief)) (bodyLen + sizeofBrief) bs

/-- The place in which the loop stores the record number `j`, counted in records. -/
def recordPlace : ℕ → ℕ
  | 0 => 0
  | j + 1 => recordPlace j + (j + 1)

/-- The reply to a heartbeat.  The header is stored after the records. -/
def Reply.ofPeers (ps : List DatasevrBlock) : Reply where
  stores := briefStores sizeofHeader 0 ps ++
    [headerStore (ps.length * sizeofBrief) .heartbeat .success]
  wbytes := sizeofHeader + ps.length * sizeofBrief

/-! ### The cluster -/

/-- `clusters`, with the two indices of each volume.  A volume is the blocks that belong to it. -/
structure ClusterState where
  clusters : Clusters
  masterBlockIndex : UInt32 → ℤ
  lastReadBlockIndex : UInt32 → ℤ

/-- The master, as `cluster_datasevrmasterblock_get` returns it. -/
def DatasevrVolume.masterBlock (dv : DatasevrVolume) : Option DatasevrBlock :=
  if 0 ≤ dv.masterBlockIndex then dv.blocks[dv.masterBlockIndex.toNat]? else none

namespace ClusterState

def start : ClusterState := ⟨.start, fun _ => -1, fun _ => 0⟩

/-- The volume `vid`, which has no blocks if it is not there. -/
def volume (s : ClusterState) (vid : UInt32) : DatasevrVolume where
  volumeId := vid
  blocks := s.clusters.blocks.filter fun b => b.parentVolumeId = vid
  masterBlockIndex := s.masterBlockIndex vid
  lastReadBlockIndex := s.lastReadBlockIndex vid

/-- The block `i` is changed in place. -/
def modifyBlock (i : ℕ) (f : DatasevrBlock → DatasevrBlock) (s : ClusterState) : ClusterState :=
  { s with clusters := s.clusters.modifyBlock i f }

/-- What `handle_cmd_register` does.  The first block of a volume is its master. -/
def register (hashFunc : List Byte → UInt32) (req : DatasevrRegBodyReq) (s : ClusterState) :
    ClusterState :=
  let vid := hashFunc req.mapInfo
  let clusters := s.clusters.handleCmdRegister hashFunc req
  if (s.clusters.datasevrblockFind hashFunc req.mapInfo req.dsIpaddr).isSome then
    { s with clusters := clusters }
  else if (s.volume vid).blocks = [] then
    -- `volume_new`
    { clusters := clusters
      masterBlockIndex := Function.update s.masterBlockIndex vid 0
      lastReadBlockIndex := Function.update s.lastReadBlockIndex vid 0 }
  else if s.masterBlockIndex vid = -1 then
    { s with clusters := clusters, masterBlockIndex := Function.update s.masterBlockIndex vid 0 }
  else { s with clusters := clusters }

lemma clusters_register (hashFunc : List Byte → UInt32) (req : DatasevrRegBodyReq)
    (s : ClusterState) :
    (s.register hashFunc req).clusters = s.clusters.handleCmdRegister hashFunc req := by
  unfold register
  dsimp only
  split_ifs <;> rfl

end ClusterState

/-! ### The requests -/

/-- The offset of `ds_ipaddr` in the requests of the dataservers, behind `map_info`. -/
def dsIpaddrOffset : ℕ := 34

/-- The string `map_info` of a request. -/
def mapInfoOf (req : List Byte) : List Byte := cstr req

/-- The string `ds_ipaddr` of a request. -/
def dsIpaddrOf (req : List Byte) : List Byte := cstr (req.drop dsIpaddrOffset)

/-- `buff2long` of the field at the offset `p`. -/
def longAt (p : ℕ) (req : List Byte) : ℤ := buff2long (req.drop p)

/-- `(int)buff2long` of the field at the offset `p`. -/
def intAt (p : ℕ) (req : List Byte) : ℤ := (longAt p req).bmod (2 ^ 32)

/-- `datasevr_reg_body_req`. -/
def regBodyReqOf (req : List Byte) : DatasevrRegBodyReq where
  mapInfo := mapInfoOf req
  dsIpaddr := dsIpaddrOf req
  dsPort := Int32.ofInt (longAt 50 req)
  weight := Int32.ofInt (longAt 58 req)
  heartBeatInterval := Int32.ofInt (longAt 66 req)
  regTime := Int64.ofInt (longAt 74 req)
  startedTime := Int64.ofInt (longAt 82 req)

/-! ### The handlers -/

structure Handled where
  status : TrackerStatus
  reply : Reply
  closes : Bool
  state : ClusterState

namespace Handled

/-- The handler has stored a header and is done. -/
def ok (cmd : TrackerCmd) (s : ClusterState) : Handled := ⟨.success, .ofStatus cmd .success, false, s⟩

/-- The handler has returned before it stored anything. -/
def fail (status : TrackerStatus) (s : ClusterState) : Handled := ⟨status, ⟨[], 0⟩, false, s⟩

def writeErrorMsg (cmd : TrackerCmd) (h : Handled) : Handled :=
  { h with reply := ⟨h.reply.stores ++ [headerStore 0 cmd h.status], sizeofHeader⟩ }

end Handled

namespace ClusterState

variable (hashFunc : List Byte → UInt32) (heartBeatInterval now : ℤ)

/-- `cluster_datasevrblock_find` for the strings of a request. -/
def findBlock (req : List Byte) (s : ClusterState) : Option ℕ :=
  s.clusters.datasevrblockFind hashFunc (mapInfoOf req) (dsIpaddrOf req)

def handleCmdRegister (req : List Byte) (s : ClusterState) : Handled :=
  .ok .register (s.register hashFunc (regBodyReqOf req))

/-- `handle_cmd_fullsyncreq`.  A header is stored before the block is looked up. -/
def handleCmdFullsyncreq (req : List Byte) (s : ClusterState) : Handled :=
  let header := headerStore sizeofMasterblock .fullsync .success
  match s.findBlock hashFunc req with
  | none => ⟨.errorUnregister, ⟨[header], sizeofHeader⟩, false, s⟩
  | some i =>
    match (s.volume (hashFunc (mapInfoOf req))).masterBlock with
    | none =>
      ⟨.syncsettingWaiting, ⟨[header], sizeofHeader⟩, false, s.modifyBlock i (.setState .waitSync)⟩
    | some master =>
      { status := .success
        reply :=
          { stores := [header, (sizeofHeader, master.ipAddr),
              (sizeofHeader + 16, long2buff master.port), (sizeofHeader + 24, long2buff now)]
            wbytes := sizeofHeader + sizeofMasterblock }
        closes := false
        state := s.modifyBlock i (.setState .syncing) }

/-- The other servers of the volume that the reply to a heartbeat names. -/
def heartbeatPeers (req : List Byte) (s : ClusterState) : List DatasevrBlock :=
  let blocks := (s.volume (hashFunc (mapInfoOf req))).blocks
  if 1 < blocks.length then peers (dsIpaddrOf req) blocks else []

def handleCmdHeartbeat (req : List Byte) (s : ClusterState) : Handled :=
  match s.findBlock hashFunc req with
  | none => .fail .errorUnregister s
  | some _ =>
    let s := { s with
      clusters := s.clusters.handleCmdHeartbeat hashFunc heartBeatInterval now (mapInfoOf req)
        (dsIpaddrOf req) }
    ⟨.success, .ofPeers (s.heartbeatPeers hashFunc req), false, s⟩

def handleCmdSyncreport (req : List Byte) (s : ClusterState) : Handled :=
  match s.findBlock hashFunc req with
  | none => .fail .errorNonedatasevrblocks s
  | some i => .ok .syncreport (s.modifyBlock i (.syncreport now (longAt 50 req)))

def handleCmdStatreport (draws : ℕ) (req : List Byte) (s : ClusterState) : Handled :=
  match s.findBlock hashFunc req with
  | none => .fail .errorNonedatasevrblocks s
  | some i =>
    .ok .statreport { s with
      clusters := s.clusters.statreport now i (intAt 50 req) (intAt 58 req) (intAt 66 req) draws }

/-- `handle_cmd_test`.  It sets `wbytes` to the size of a pointer. -/
def handleCmdTest (s : ClusterState) : Handled :=
  ⟨.success, ⟨[headerStore 0 .test .success], 8⟩, false, s⟩

def handleCmdQuited (req : List Byte) (s : ClusterState) : Handled :=
  match s.findBlock hashFunc req with
  | none => .fail .error s
  | some i => ⟨.success, ⟨[], 0⟩, true, s.modifyBlock i .setOffLine⟩

/-- `handle_cmd_writetracker`; `none` if freed memory is read. -/
def handleCmdWritetracker (s : ClusterState) : Option Handled :=
  (s.clusters.handleCmdWritetracker heartBeatInterval now).map fun (dblk, clusters) =>
    let s := { s with clusters := clusters }
    match dblk with
    | none => .fail .errorNoWriteDataserver s
    | some i => ⟨.success, .ofAddress .writeTrackerReq (clusters.block i), false, s⟩

def handleCmdReadtracker (req : List Byte) (s : ClusterState) : Handled :=
  let vid := hashFunc (mapInfoOf req)
  let dv := s.volume vid
  let (i, dv') := dv.readdatasevrblockGet heartBeatInterval (fun _ => now) (longAt 33 req)
  let s := { s with
    lastReadBlockIndex := Function.update s.lastReadBlockIndex vid dv'.lastReadBlockIndex }
  match i.bind fun i => dv.blocks[i]? with
  | none => .fail .errorNoReadDataserver s
  | some dblk => ⟨.success, .ofAddress .readTrackerReq dblk, false, s⟩

/-- The `switch` of `dispatch_cmd`.  The level of a new node of the skip list is drawn with
`draws`. -/
def handler (draws : ℕ) (cmd : TrackerCmd) (req : List Byte) (s : ClusterState) : Option Handled :=
  match cmd with
  | .register => some (s.handleCmdRegister hashFunc req)
  | .fullsync => some (s.handleCmdFullsyncreq hashFunc now req)
  | .heartbeat => some (s.handleCmdHeartbeat hashFunc heartBeatInterval now req)
  | .syncreport => some (s.handleCmdSyncreport hashFunc now req)
  | .statreport => some (s.handleCmdStatreport hashFunc now draws req)
  | .quited => some (s.handleCmdQuited hashFunc req)
  | .writeTrackerReq => s.handleCmdWritetracker heartBeatInterval now
  | .readTrackerReq => some (s.handleCmdReadtracker hashFunc heartBeatInterval now req)
  | .test => some s.handleCmdTest

/-- `dispatch_cmd` with the memory `req` at `rcurr`. -/
def dispatchCmd (draws : ℕ) (cmd : TrackerCmd) (req : List Byte) (s : ClusterState) :
    Option Handled :=
  (s.handler hashFunc heartBeatInterval now draws cmd req).map fun h =>
    if h.status = .success then h else h.writeErrorMsg cmd

end ClusterState

/-! ### The header of a reply -/

/-- A store that fills the fields of a header, or lies behind it. -/
def HeaderOrBody (w : ℕ × List Byte) : Prop := w.1 = 0 ∧ w.2.length = 10 ∨ sizeofHeader ≤ w.1

lemma headerOrBody_headerStore (n : ℕ) (cmd : TrackerCmd) (status : TrackerStatus) :
    HeaderOrBody (headerStore n cmd status) := by
  left
  constructor
  · rfl
  · simp [headerStore, length_toLittleEndian]

/-- The stores of a reply with a header that announces `n` bytes: after this header only the body is
stored. -/
structure Reply.Announces (r : Reply) (cmd : TrackerCmd) (n : ℕ) : Prop where
  wbytes : r.wbytes = sizeofHeader + n
  stores : ∃ before status after, r.stores = before ++ headerStore n cmd status :: after ∧
    (∀ w ∈ before, HeaderOrBody w) ∧ ∀ w ∈ after, sizeofHeader ≤ w.1

lemma le_of_mem_briefRecord {w : ℕ × List Byte} {b : DatasevrBlock} {p : ℕ}
    (h : w ∈ briefRecord p b) : p ≤ w.1 := by
  simp only [briefRecord, mem_cons, not_mem_nil, or_false] at h
  rcases h with rfl | rfl | rfl | rfl <;> simp

lemma recordPlace_strictMono : StrictMono recordPlace :=
  strictMono_nat_of_lt_succ fun j => by
    rw [recordPlace]
    omega

lemma mem_briefStores_iff {w : ℕ × List Byte} {ps : List DatasevrBlock} {p n : ℕ} :
    w ∈ briefStores p (n * sizeofBrief) ps ↔ ∃ j b, ps[j]? = some b ∧
      w ∈ briefRecord (p + (j * n + recordPlace j) * sizeofBrief) b := by
  induction ps generalizing p n with
  | nil => simp [briefStores]
  | cons b ps ih =>
    have hn : n * sizeofBrief + sizeofBrief = (n + 1) * sizeofBrief := (Nat.succ_mul _ _).symm
    have hplace (j : ℕ) : p + (n + 1) * sizeofBrief + (j * (n + 1) + recordPlace j) * sizeofBrief =
        p + ((j + 1) * n + recordPlace (j + 1)) * sizeofBrief := by
      rw [recordPlace]
      ring
    rw [briefStores, hn, mem_append, ih]
    constructor
    · rintro (hw | ⟨j, b', hb', hw⟩)
      · exact ⟨0, b, rfl, by simpa [briefRecord, recordPlace] using hw⟩
      · refine ⟨j + 1, b', hb', ?_⟩
        rwa [hplace] at hw
    · rintro ⟨j, b', hb', hw⟩
      cases j with
      | zero =>
        obtain rfl : b = b' := by simpa using hb'
        exact .inl (by simpa [briefRecord, recordPlace] using hw)
      | succ j =>
        refine .inr ⟨j, b', by simpa using hb', ?_⟩
        rwa [hplace]

namespace Reply

variable {r : Reply} {cmd : TrackerCmd} {n : ℕ}

lemma announces_ofStatus (cmd : TrackerCmd) (status : TrackerStatus) :
    (ofStatus cmd status).Announces cmd 0 :=
  ⟨rfl, [], status, [], rfl, by simp, by simp⟩

lemma announces_ofAddress (cmd : TrackerCmd) (dblk : DatasevrBlock) :
    (ofAddress cmd dblk).Announces cmd sizeofTrackerResp :=
  ⟨rfl, [], .success, _, rfl, by simp, by simp⟩

lemma announces_ofPeers (ps : List DatasevrBlock) :
    (ofPeers ps).Announces .heartbeat (ps.length * sizeofBrief) :=
  ⟨rfl, _, .success, [], rfl, fun _ hw => by
    obtain ⟨j, b, -, hw⟩ := (mem_briefStores_iff (n := 0)).1 (by simpa using hw)
    exact .inr ((Nat.le_add_right ..).trans (le_of_mem_briefRecord hw)), by simp⟩

/-- The first bytes of the response are the length that the header announces. -/
lemma Announces.take_response (h : r.Announces cmd n) (wbuff : ℕ → Byte) :
    (r.response wbuff).take 8 = toLittleEndian 8 n := by
  obtain ⟨before, status, after, hstores, -, hafter⟩ := h.stores
  have hfront : (r.response wbuff).take 8 = readFront 8 (writeAll r.stores wbuff) := by
    have hwbytes : r.wbytes = 8 + (8 + n) := by
      rw [h.wbytes, sizeofHeader]
      omega
    rw [response, hwbytes, readFront_add]
    exact take_left' length_readFront
  have hheader (a : ℕ) (ha : a < 8) : writeAll r.stores wbuff a =
      writeAt 0 (headerStore n cmd status).2 (writeAll before wbuff) a := by
    have hcov : ¬ Covered after a := by
      rintro ⟨w, hw, hle, -⟩
      have hlow := (hafter w hw).trans hle
      rw [sizeofHeader] at hlow
      omega
    rw [hstores, writeAll, foldl_append, foldl_cons, ← writeAll, ← writeAll]
    exact writeAll_of_not_covered hcov
  rw [hfront, readFront_eq_iff.2 hheader, readFront_writeAt (by simp [headerStore, length_toLittleEndian])]
  exact take_left' (length_toLittleEndian ..)

end Reply

/-- A handler has either stored its whole reply, or it has returned an error. -/
def Handled.Answers (h : Handled) (cmd : TrackerCmd) : Prop :=
  (h.status = .success ∧ ∃ n, h.reply.Announces cmd n) ∨
    (h.status ≠ .success ∧ ∀ w ∈ h.reply.stores, HeaderOrBody w)

namespace Handled

variable {h : Handled} {cmd : TrackerCmd} {s : ClusterState}

lemma answers_ok : (ok cmd s).Answers cmd := .inl ⟨rfl, 0, Reply.announces_ofStatus cmd .success⟩

lemma answers_fail {status : TrackerStatus} (hstatus : status ≠ .success) :
    (fail status s).Answers cmd := .inr ⟨hstatus, by simp [fail]⟩

/-- `dispatch_cmd` turns an error into a reply without a body. -/
lemma Answers.announces (hanswers : h.Answers cmd) :
    ∃ n, (if h.status = .success then h else h.writeErrorMsg cmd).reply.Announces cmd n := by
  rcases hanswers with ⟨hstatus, n, hn⟩ | ⟨hstatus, hstores⟩
  · rw [if_pos hstatus]
    exact ⟨n, hn⟩
  · rw [if_neg hstatus]
    exact ⟨0, rfl, h.reply.stores, h.status, [], rfl, hstores, by simp⟩

end Handled

namespace ClusterState

variable {hashFunc : List Byte → UInt32} {heartBeatInterval now : ℤ} {draws : ℕ} {cmd : TrackerCmd}
  {req : List Byte} {s : ClusterState} {h : Handled}

variable (hashFunc heartBeatInterval now draws req s) in
/-- What a handler answers and what it does to the cluster, command by command. -/
inductive Effect : TrackerCmd → Handled → Prop
  | register : Effect .register (.ok .register (s.register hashFunc (regBodyReqOf req)))
  /-- The volume has no master. -/
  | waiting {i : ℕ} (hfind : s.findBlock hashFunc req = some i) :
      Effect .fullsync ⟨.syncsettingWaiting,
        ⟨[headerStore sizeofMasterblock .fullsync .success], sizeofHeader⟩, false,
        s.modifyBlock i (.setState .waitSync)⟩
  | fullsync {i : ℕ} (hfind : s.findBlock hashFunc req = some i) (master : DatasevrBlock) :
      Effect .fullsync ⟨.success,
        ⟨[headerStore sizeofMasterblock .fullsync .success, (sizeofHeader, master.ipAddr),
          (sizeofHeader + 16, long2buff master.port), (sizeofHeader + 24, long2buff now)],
          sizeofHeader + sizeofMasterblock⟩, false, s.modifyBlock i (.setState .syncing)⟩
  | heartbeat {i : ℕ} {s' : ClusterState} (hfind : s.findBlock hashFunc req = some i)
      (hs' : s' = { s with
        clusters := s.clusters.handleCmdHeartbeat hashFunc heartBeatInterval now (mapInfoOf req)
          (dsIpaddrOf req) }) :
      Effect .heartbeat ⟨.success, .ofPeers (s'.heartbeatPeers hashFunc req), false, s'⟩
  | syncreport {i : ℕ} (hfind : s.findBlock hashFunc req = some i) :
      Effect .syncreport (.ok .syncreport (s.modifyBlock i (.syncreport now (longAt 50 req))))
  | statreport {i : ℕ} (hfind : s.findBlock hashFunc req = some i) :
      Effect .statreport (.ok .statreport { s with
        clusters := s.clusters.statreport now i (intAt 50 req) (intAt 58 req) (intAt 66 req) draws })
  | quited {i : ℕ} (hfind : s.findBlock hashFunc req = some i) :
      Effect .quited ⟨.success, ⟨[], 0⟩, true, s.modifyBlock i .setOffLine⟩
  | write {i : ℕ} {clusters : Clusters}
      (hw : s.clusters.handleCmdWritetracker heartBeatInterval now = some (some i, clusters)) :
      Effect .writeTrackerReq ⟨.success, .ofAddress .writeTrackerReq (clusters.block i), false,
        { s with clusters := clusters }⟩
  | noWrite {clusters : Clusters}
      (hw : s.clusters.handleCmdWritetracker heartBeatInterval now = some (none, clusters)) :
      Effect .writeTrackerReq (.fail .errorNoWriteDataserver { s with clusters := clusters })
  | read (lastRead : UInt32 → ℤ) (dblk : DatasevrBlock) :
      Effect .readTrackerReq ⟨.success, .ofAddress .readTrackerReq dblk, false,
        { s with lastReadBlockIndex := lastRead }⟩
  | noRead (lastRead : UInt32 → ℤ) :
      Effect .readTrackerReq (.fail .errorNoReadDataserver { s with lastReadBlockIndex := lastRead })
  | test : Effect .test s.handleCmdTest
  /-- The sender is not registered. -/
  | unknown {cmd : TrackerCmd} {status : TrackerStatus} {r : Reply} (hcmd : cmd ≠ .register)
      (hfind : s.findBlock hashFunc req = none) (hstatus : status ≠ .success)
      (hstores : ∀ w ∈ r.stores, HeaderOrBody w) : Effect cmd ⟨status, r, false, s⟩

lemma effect_handler (hh : h ∈ s.handler hashFunc heartBeatInterval now draws cmd req) :
    s.Effect hashFunc heartBeatInterval now draws req cmd h := by
  cases cmd with
  | register =>
    obtain rfl := some.inj hh
    exact .register
  | fullsync =>
    obtain rfl := some.inj hh
    rw [handleCmdFullsyncreq]
    cases hfind : s.findBlock hashFunc req with
    | none => exact .unknown (by simp) hfind (by simp) (by simp [headerOrBody_headerStore])
    | some i =>
      cases (s.volume (hashFunc (mapInfoOf req))).masterBlock with
      | none => exact .waiting hfind
      | some master => exact .fullsync hfind master
  | heartbeat =>
    obtain rfl := some.inj hh
    rw [handleCmdHeartbeat]
    cases hfind : s.findBlock hashFunc req with
    | none => exact .unknown (by simp) hfind (by simp) (by simp)
    | some i => exact .heartbeat hfind rfl
  | syncreport =>
    obtain rfl := some.inj hh
    rw [handleCmdSyncreport]
    cases hfind : s.findBlock hashFunc req with
    | none => exact .unknown (by simp) hfind (by simp) (by simp)
    | some i => exact .syncreport hfind
  | statreport =>
    obtain rfl := some.inj hh
    rw [handleCmdStatreport]
    cases hfind : s.findBlock hashFunc req with
    | none => exact .unknown (by simp) hfind (by simp) (by simp)
    | some i => exact .statreport hfind
  | quited =>
    obtain rfl := some.inj hh
    rw [handleCmdQuited]
    cases hfind : s.findBlock hashFunc req with
    | none => exact .unknown (by simp) hfind (by simp) (by simp)
    | some i => exact .quited hfind
  | writeTrackerReq =>
    obtain ⟨⟨dblk, clusters⟩, hw, rfl⟩ := map_eq_some_iff.1 hh
    cases dblk with
    | none => exact .noWrite hw
    | some i => exact .write hw
  | readTrackerReq =>
    obtain rfl := some.inj hh
    rw [handleCmdReadtracker]
    dsimp only
    split
    · exact .noRead _
    · exact .read _ _
  | test =>
    obtain rfl := some.inj hh
    exact .test

/-- Every handler but that of a test answers, unless the connection is to be closed. -/
lemma Effect.answers (he : s.Effect hashFunc heartBeatInterval now draws req cmd h)
    (hcmd : cmd ≠ .test) (hcloses : h.closes = false) : h.Answers cmd := by
  cases he with
  | register | syncreport | statreport => exact Handled.answers_ok
  | waiting => exact .inr ⟨by simp, by simp [headerOrBody_headerStore]⟩
  | fullsync => exact .inl ⟨rfl, sizeofMasterblock, rfl, [], .success, _, rfl, by simp, by simp⟩
  | heartbeat => exact .inl ⟨rfl, _, Reply.announces_ofPeers _⟩
  | quited => exact absurd hcloses (by simp)
  | write | read => exact .inl ⟨rfl, _, Reply.announces_ofAddress _ _⟩
  | noWrite | noRead => exact Handled.answers_fail (by simp)
  | test => exact absurd rfl hcmd
  | unknown _ _ hstatus hstores => exact .inr ⟨hstatus, hstores⟩

/-- Only the handler of a server that quits closes the connection. -/
lemma Effect.closes (he : s.Effect hashFunc heartBeatInterval now draws req cmd h)
    (hcmd : cmd ≠ .quited) : h.closes = false := by
  cases he with
  | quited => exact absurd rfl hcmd
  | register | waiting | fullsync | heartbeat | syncreport | statreport | write | noWrite | read
  | noRead | test | unknown => rfl

lemma closes_dispatchCmd (hh : h ∈ s.dispatchCmd hashFunc heartBeatInterval now draws cmd req)
    (hcmd : cmd ≠ .quited) : h.closes = false := by
  obtain ⟨h, hhandler, rfl⟩ := map_eq_some_iff.1 hh
  have hcloses := (effect_handler hhandler).closes hcmd
  split_ifs
  · exact hcloses
  · exact hcloses

/-- **The length of a reply** to every command but a test is the one that its header announces. -/
lemma announces_dispatchCmd (hh : h ∈ s.dispatchCmd hashFunc heartBeatInterval now draws cmd req)
    (hcmd : cmd ≠ .test) (hcloses : h.closes = false) : ∃ n, h.reply.Announces cmd n := by
  obtain ⟨h, hhandler, rfl⟩ := map_eq_some_iff.1 hh
  have hcloses' : h.closes = false := by
    split_ifs at hcloses
    · exact hcloses
    · exact hcloses
  exact ((effect_handler hhandler).answers hcmd hcloses').announces

end ClusterState

/-! ### The loop of a heartbeat -/

/-- The loop does the stores of the reply, whose records start at the offset `q` of the write buffer. -/
lemma HeartbeatLoop.rounds_eq_stores {heartBeatInterval lastHeartbeatTime : ℤ} {dsIpaddr : List Byte}
    {now : ℕ → ℤ} {bs : List (DatasevrBlock × ℕ)} {q p n : ℕ} {m : ℕ → Byte}
    {l blocks ps : List DatasevrBlock}
    (hblocks : blocks = bs.map (after heartBeatInterval lastHeartbeatTime dsIpaddr now))
    (hps : ps = peers dsIpaddr blocks) :
    ∃ p', rounds heartBeatInterval lastHeartbeatTime dsIpaddr now
        ⟨fun a => m (q + a), p, n, l⟩ bs =
      ⟨fun a => writeAll (briefStores (q + p) n ps) m (q + a), p', n + ps.length * sizeofBrief,
        l ++ blocks⟩ := by
  subst hblocks hps
  induction bs generalizing p n m l with
  | nil => exact ⟨p, by simp [rounds, peers, briefStores, writeAll]⟩
  | cons bj bs ih =>
    rw [rounds, foldl_cons, step, ← rounds]
    by_cases hds : dsIpaddr = bj.1.ipAddr
    · obtain ⟨p', hrounds⟩ := ih (p := p) (n := n) (m := m) (l := l ++ [bj.1])
      refine ⟨p', ?_⟩
      rw [if_pos hds, hrounds]
      simp [after, hds, peers]
    · set b := peer heartBeatInterval lastHeartbeatTime (now bj.2) bj.1 with hb
      have hafter : after heartBeatInterval lastHeartbeatTime dsIpaddr now bj = b := if_neg hds
      have hwbuff : b.writeBrief p (fun a => m (q + a)) =
          fun a => writeAll (briefRecord (q + p) b) m (q + a) := by
        simp only [DatasevrBlock.writeBrief, writeAll, briefRecord, foldl_cons, foldl_nil, add_assoc,
          writeAt_shift]
      obtain ⟨p', hrounds⟩ := ih (p := p + (n + sizeofBrief)) (n := n + sizeofBrief)
        (m := writeAll (briefRecord (q + p) b) m) (l := l ++ [b])
      refine ⟨p', ?_⟩
      rw [if_neg hds]
      dsimp only
      rw [hwbuff, hrounds, map_cons, peers_cons_after hds, hafter, ← hb, briefStores, writeAll_append,
        length_cons, Nat.succ_mul]
      simp only [append_assoc, singleton_append, add_assoc, add_comm sizeofBrief]

lemma exists_filter_modify {α : Type} {p : α → Bool} {f : α → α} (hf : ∀ a, p (f a) = p a)
    {l : List α} {i : ℕ} {a : α} (ha : l[i]? = some a) (hp : p a = true) :
    ∃ j, (l.filter p)[j]? = some a ∧ (l.modify i f).filter p = (l.filter p).modify j f := by
  induction l generalizing i with
  | nil => simp at ha
  | cons b l ih =>
    cases i with
    | zero =>
      obtain rfl : b = a := by simpa using ha
      exact ⟨0, by simp [hp], by simp [hp, hf]⟩
    | succ i =>
      obtain ⟨j, hj, hmodify⟩ := ih ha
      by_cases hb : p b = true
      · exact ⟨j + 1, by simp [hb, hj], by simp [hb, hmodify]⟩
      · exact ⟨j, by simp [hb, hj], by simp [hb, hmodify]⟩

namespace ClusterState

variable {hashFunc : List Byte → UInt32} {heartBeatInterval now : ℤ} {req : List Byte} {s : ClusterState}
  {i : ℕ}

variable (heartBeatInterval now) in
/-- What a heartbeat does to the blocks of the volume. -/
lemma blocks_volume_heartbeat (hfind : s.findBlock hashFunc req = some i) {vid : UInt32}
    (hvid : hashFunc (mapInfoOf req) = vid) : ∃ j, (s.volume vid).blocks[j]? = s.clusters.blocks[i]? ∧
      ((s.handleCmdHeartbeat hashFunc heartBeatInterval now req).state.volume vid).blocks =
        (((s.volume vid).modifyBlock j (.heartbeat now)).blocks.zipIdx).map
          (HeartbeatLoop.after heartBeatInterval now (dsIpaddrOf req) fun _ => now) := by
  have hfind' : s.clusters.datasevrblockFind hashFunc (mapInfoOf req) (dsIpaddrOf req) = some i := hfind
  have hi := Clusters.lt_of_datasevrblockFind hfind'
  have hparent : s.clusters.blocks[i].parentVolumeId = vid := by
    have hids := (findIdx?_eq_some_iff_getElem.1 hfind').2.1
    simp only [Bool.and_eq_true, decide_eq_true_eq] at hids
    exact hids.1.trans hvid
  obtain ⟨j, hj, hmodify⟩ := exists_filter_modify (p := fun b : DatasevrBlock => b.parentVolumeId = vid)
    (f := .heartbeat now) (fun _ => rfl) (getElem?_eq_getElem hi) (by simpa using hparent)
  refine ⟨j, hj.trans (getElem?_eq_getElem hi).symm, ?_⟩
  set peer : DatasevrBlock → DatasevrBlock := fun b =>
    if b.parentVolumeId = vid ∧ b.ipAddr ≠ dsIpaddrOf req ∧ heartBeatInterval < 0 then b.setOffLine
    else b with hpeer
  have hframe (b : DatasevrBlock) : (peer b).parentVolumeId = b.parentVolumeId := by
    simp only [hpeer]
    split_ifs <;> rfl
  have hstate : (s.handleCmdHeartbeat hashFunc heartBeatInterval now req).state.clusters.blocks =
      (s.clusters.blocks.modify i (.heartbeat now)).map peer := by
    simp only [handleCmdHeartbeat, hfind, Clusters.blocks_handleCmdHeartbeat hfind', hvid, hpeer]
  have hfst : HeartbeatLoop.after heartBeatInterval now (dsIpaddrOf req) (fun _ => now) =
      (fun b => if dsIpaddrOf req = b.ipAddr then b
        else HeartbeatLoop.peer heartBeatInterval now now b) ∘ Prod.fst := rfl
  rw [hfst, ← List.map_map, zipIdx_map_fst, DatasevrVolume.modifyBlock, volume, volume, ← hmodify, hstate,
    List.filter_map]
  simp only [Function.comp_def, hframe]
  refine map_congr_left fun b hb => ?_
  have hb' : b.parentVolumeId = vid := of_decide_eq_true (mem_filter.1 hb).2
  by_cases hip : b.ipAddr = dsIpaddrOf req
  · simp [hpeer, hip]
  · simp [hpeer, hb', HeartbeatLoop.peer, hip, Ne.symm hip]

/-- **The two forms of the handler.**  In a volume of several servers `handle_cmd_heartbeat` leaves the
blocks and sends the body that it leaves and sends on this volume by itself. -/
lemma handleCmdHeartbeat_volume (hfind : s.findBlock hashFunc req = some i) {vid : UInt32}
    (hvid : hashFunc (mapInfoOf req) = vid) (htwo : 1 < (s.volume vid).blocks.length)
    (wbuff : ℕ → Byte) {h : Handled} (hh : h = s.handleCmdHeartbeat hashFunc heartBeatInterval now req) :
    ∃ j, (s.volume vid).blocks[j]? = s.clusters.blocks[i]? ∧
      let r := (s.volume vid).handleCmdHeartbeat heartBeatInterval now (fun _ => now) (dsIpaddrOf req) j
        fun a => wbuff (sizeofHeader + a)
      (h.state.volume vid).blocks = r.blocks ∧ (h.reply.response wbuff).drop sizeofHeader = r.body := by
  obtain ⟨j, hj, hblocks⟩ := blocks_volume_heartbeat heartBeatInterval now hfind hvid
  rw [← hh] at hblocks
  have hlen : 1 < ((s.volume vid).modifyBlock j (.heartbeat now)).blocks.length := by
    simpa [DatasevrVolume.modifyBlock] using htwo
  have hlen' : 1 < (h.state.volume vid).blocks.length := by
    rw [hblocks, length_map, length_zipIdx]
    exact hlen
  have hreply : h.reply = .ofPeers (peers (dsIpaddrOf req) (h.state.volume vid).blocks) := by
    have hpeers : h.reply = .ofPeers (h.state.heartbeatPeers hashFunc req) := by
      simp only [hh, handleCmdHeartbeat, hfind]
    rw [hpeers, heartbeatPeers, hvid, if_pos hlen']
  obtain ⟨p', hrounds⟩ := HeartbeatLoop.rounds_eq_stores (q := sizeofHeader) (p := 0) (n := 0)
    (m := wbuff) (l := []) hblocks rfl
  refine ⟨j, hj, ?_⟩
  rw [DatasevrVolume.handleCmdHeartbeat, if_pos hlen, hrounds, hreply]
  refine ⟨rfl, ?_⟩
  rw [Reply.response, Reply.ofPeers, readFront_add, drop_left' length_readFront, HeartbeatLoop.body,
    zero_add]
  refine readFront_eq_iff.2 fun a _ => ?_
  -- the header is stored in front of the records
  rw [writeAll_append]
  refine writeAll_of_not_covered ?_
  simp [Covered, headerStore, length_toLittleEndian, sizeofHeader]
  omega

end ClusterState

end Lfs.Tracker
