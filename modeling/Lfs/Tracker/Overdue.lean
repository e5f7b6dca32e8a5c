/-
Servers that have not been heard of, in the reply to a heartbeat (`handle_cmd_heartbeat` in
`ts_service.c`).

The loop over the blocks of the volume is to set those off-line whose last heartbeat is too old.  It
compares the time with the last heartbeat of the sender, which has just been set to the time.  So a block
is listed with the state that its own last request has given it.  Besides, the records leave gaps, and
those that come to lie behind the end of the reply are not sent.
-/
import Lfs.Tracker.Handling

namespace Lfs.Tracker

open Lfs.Lib List Option Function DatasevrBlock TrackerOp

variable {b : DatasevrBlock} {ps : List DatasevrBlock} {l : List Byte} {i : ℕ}

/-! ### The reply -/

/-- One of the records that are sent is that of the block. -/
def Reply.Lists (r : Reply) (b : DatasevrBlock) : Prop :=
  ∃ k, sizeofHeader + (k + 1) * sizeofBrief ≤ r.wbytes ∧
    briefRecord (sizeofHeader + k * sizeofBrief) b ⊆ r.stores

/-- Of the records with the addresses `ips`, the one with the address `ip` is among those that are
sent. -/
def InPlace (ips : List (List Byte)) (ip : List Byte) : Prop :=
  ∃ j, ips[j]? = some ip ∧ recordPlace j < ips.length

lemma long2buff_state_inj {a b : DatasevrState} (h : long2buff a.toInt = long2buff b.toInt) :
    a = b := by
  cases a <;> cases b <;> first | rfl | exact absurd h (by decide)

lemma of_mem_briefRecord {k t d : ℕ} (hd : d < sizeofBrief)
    (h : (sizeofHeader + k * sizeofBrief + d, l) ∈ briefRecord (sizeofHeader + t * sizeofBrief) b) :
    k = t ∧ (d, l) ∈ briefRecord 0 b := by
  simp only [briefRecord, sizeofHeader, sizeofBrief, mem_cons, Prod.mk.injEq, not_mem_nil,
    or_false] at h hd ⊢
  rcases h with ⟨hp, rfl⟩ | ⟨hp, rfl⟩ | ⟨hp, rfl⟩ | ⟨hp, rfl⟩
  all_goals
    refine ⟨by omega, ?_⟩
    simp
    omega

lemma mem_stores_ofPeers {a : ℕ} (ha : a ≠ 0) :
    (a, l) ∈ (Reply.ofPeers ps).stores ↔ ∃ j b, ps[j]? = some b ∧
      (a, l) ∈ briefRecord (sizeofHeader + recordPlace j * sizeofBrief) b := by
  have hheader : (a, l) ∉ [headerStore (ps.length * sizeofBrief) .heartbeat .success] := by
    simp [headerStore, ha]
  have hstores : (a, l) ∈ briefStores sizeofHeader (0 * sizeofBrief) ps ↔ _ := mem_briefStores_iff
  simp only [zero_mul, mul_zero, zero_add] at hstores
  rw [Reply.ofPeers, mem_append, or_iff_left hheader, hstores]

/-- **What a reply lists.**  A block is listed with the state that it has, if its record is sent. -/
lemma lists_ofPeers_iff (hips : (ps.map ipAddr).Nodup)
    (hb : b ∈ ps) (state : DatasevrState) : (Reply.ofPeers ps).Lists (.setState state b) ↔
      InPlace (ps.map ipAddr) b.ipAddr ∧ b.state = state := by
  constructor
  · rintro ⟨k, hk, hsub⟩
    have hip := hsub (mem_cons_of_mem _ mem_cons_self)
    rw [mem_stores_ofPeers (by simp [sizeofHeader])] at hip
    obtain ⟨j, b', hj, hip⟩ := hip
    obtain ⟨rfl, hip⟩ := of_mem_briefRecord (by decide) hip
    have hsame : b.ipAddr = b'.ipAddr := by simpa [briefRecord, setState] using hip
    obtain rfl : b = b' := inj_on_of_nodup_map hips hb (mem_of_getElem? hj) hsame
    have hstate := hsub mem_cons_self
    rw [mem_stores_ofPeers (by simp [sizeofHeader])] at hstate
    obtain ⟨j', b', hj', hstate⟩ := hstate
    obtain ⟨hplace, hstate⟩ := of_mem_briefRecord (d := 0) (by decide) hstate
    have hbytes : long2buff state.toInt = long2buff b'.state.toInt := by
      simpa [briefRecord, setState] using hstate
    obtain rfl := recordPlace_strictMono.injective hplace
    obtain rfl := some.inj (hj.symm.trans hj')
    refine ⟨⟨j, by rw [getElem?_map, hj, map_some], ?_⟩, (long2buff_state_inj hbytes).symm⟩
    rw [Reply.ofPeers, Nat.add_le_add_iff_left] at hk
    rw [length_map]
    exact Nat.le_of_mul_le_mul_right hk (by decide)
  · rintro ⟨⟨j, hj, hlt⟩, rfl⟩
    rw [getElem?_map, map_eq_some_iff] at hj
    obtain ⟨b', hj, hip⟩ := hj
    obtain rfl : b' = b := inj_on_of_nodup_map hips (mem_of_getElem? hj) hb hip
    rw [length_map] at hlt
    refine ⟨recordPlace j, ?_, fun w hw => ?_⟩
    · rw [Reply.ofPeers, Nat.add_le_add_iff_left]
      exact Nat.mul_le_mul_right _ hlt
    · refine (mem_stores_ofPeers ?_).2 ⟨j, b', hj, hw⟩
      have hle := le_of_mem_briefRecord hw
      rw [sizeofHeader] at hle
      omega

lemma forall_inPlace_iff {ips : List (List Byte)} (hnodup : ips.Nodup) :
    (∀ ip ∈ ips, InPlace ips ip) ↔ ips.length ≤ 2 := by
  constructor
  · intro h
    by_contra hlt
    -- the last record lies behind the end
    have hlast (j : ℕ) : j + 3 ≤ recordPlace (j + 2) := by
      induction j with
      | zero => decide
      | succ j ih =>
        rw [recordPlace]
        omega
    obtain ⟨n, hn⟩ : ∃ n, ips.length = n + 3 := ⟨ips.length - 3, by omega⟩
    obtain ⟨j, hj, hplace⟩ := h (ips[n + 2]) (getElem_mem _)
    obtain ⟨hjlt, hj⟩ := List.getElem?_eq_some_iff.1 hj
    obtain rfl := (hnodup.getElem_inj_iff).1 hj
    have hle := hlast n
    omega
  · intro hle ip hip
    obtain ⟨j, hj⟩ := mem_iff_getElem?.1 hip
    have hlt := (List.getElem?_eq_some_iff.1 hj).1
    refine ⟨j, hj, ?_⟩
    obtain rfl | rfl : j = 0 ∨ j = 1 := by omega
    · exact hlt
    · exact hlt

/-! ### The requests of the servers -/

/-- The state that a request gives to the block of its sender, for the requests of the servers other
than that for the master. -/
def TrackerCmd.gives : TrackerCmd → Option DatasevrState
  | .register => some .init
  | .heartbeat | .syncreport | .statreport => some .active
  | .quited => some .offLine
  | .fullsync | .writeTrackerReq | .readTrackerReq | .test => none

namespace TrackerOp

variable (hashFunc : List Byte → UInt32) (heartBeatInterval : ℤ)

def ids (op : TrackerOp) : UInt32 × UInt32 :=
  (hashFunc (mapInfoOf op.req), hashFunc (dsIpaddrOf op.req))

/-- What a request does to the block of its sender. -/
def update (op : TrackerOp) : DatasevrBlock → DatasevrBlock :=
  match op.cmd with
  | .register => .register (regBodyReqOf op.req)
  | .heartbeat => .heartbeat op.now
  | .syncreport => .syncreport op.now (longAt 50 op.req)
  | .statreport => .statreport op.now (intAt 50 op.req) (intAt 58 op.req) (intAt 66 op.req)
  | .quited => .setOffLine
  | .fullsync | .writeTrackerReq | .readTrackerReq | .test => id

/-- What a heartbeat does to the other blocks of the volume: the last heartbeat of the sender is not
old. -/
def updateOther (op : TrackerOp) (b : DatasevrBlock) : DatasevrBlock :=
  if op.cmd = .heartbeat ∧ heartBeatInterval < 0 ∧ b.parentVolumeId = hashFunc (mapInfoOf op.req) ∧
      b.ipAddr ≠ dsIpaddrOf op.req then
    b.setOffLine
  else b

/-- A block after the request of a server that is registered. -/
def after (op : TrackerOp) (b : DatasevrBlock) : DatasevrBlock :=
  op.updateOther hashFunc heartBeatInterval (if b.ids = op.ids hashFunc then op.update b else b)

/-- The state that the last request of a server has given to its block. -/
def ownState (ids : UInt32 × UInt32) (ops : List TrackerOp) : DatasevrState :=
  ops.foldl (fun state op => if op.ids hashFunc = ids then op.cmd.gives.getD state else state) .init

variable {hashFunc heartBeatInterval} {op : TrackerOp} {ops : List TrackerOp}

lemma ownState_append (ids : UInt32 × UInt32) : ownState hashFunc ids (ops ++ [op]) =
      if op.ids hashFunc = ids then op.cmd.gives.getD (ownState hashFunc ids ops)
      else ownState hashFunc ids ops := by
  rw [ownState, foldl_append]
  rfl

lemma key_update (b : DatasevrBlock) : (op.update b).key = b.key := by
  obtain ⟨now, draws, cmd, req⟩ := op
  cases cmd <;> rfl

lemma key_after (b : DatasevrBlock) : (op.after hashFunc heartBeatInterval b).key = b.key := by
  have hother (b : DatasevrBlock) : (op.updateOther hashFunc heartBeatInterval b).key = b.key := by
    rw [updateOther]
    split_ifs <;> rfl
  rw [after, hother]
  split_ifs
  · exact key_update b
  · rfl

lemma state_update (hgives : op.cmd.gives.isSome) (b : DatasevrBlock) (state : DatasevrState) :
    (op.update b).state = op.cmd.gives.getD state := by
  obtain ⟨now, draws, cmd, req⟩ := op
  cases cmd <;> first | rfl | exact absurd hgives (by simp [TrackerCmd.gives])

lemma lastHeartbeatTime_after (b : DatasevrBlock) :
    (op.after hashFunc heartBeatInterval b).lastHeartbeatTime = op.now ∨
      (op.after hashFunc heartBeatInterval b).lastHeartbeatTime = b.lastHeartbeatTime := by
  have hother (b : DatasevrBlock) :
      (op.updateOther hashFunc heartBeatInterval b).lastHeartbeatTime = b.lastHeartbeatTime := by
    rw [updateOther]
    split_ifs <;> rfl
  have hupdate : (op.update b).lastHeartbeatTime = op.now ∨
      (op.update b).lastHeartbeatTime = b.lastHeartbeatTime := by
    obtain ⟨now, draws, cmd, req⟩ := op
    cases cmd <;> first | exact .inl rfl | exact .inr rfl
  rw [after, hother]
  split_ifs
  · exact hupdate
  · exact .inr rfl

lemma updateOther_of_nonneg (hinterval : 0 ≤ heartBeatInterval) (b : DatasevrBlock) :
    op.updateOther hashFunc heartBeatInterval b = b :=
  if_neg fun h => absurd h.2.1 (not_lt.2 hinterval)

end TrackerOp

/-! ### The blocks after a request -/

namespace ClusterState

variable {hashFunc : List Byte → UInt32} {heartBeatInterval : ℤ} {op : TrackerOp} {s s' : ClusterState}

lemma modify_findBlock (hnodup : (s.clusters.blocks.map DatasevrBlock.ids).Nodup)
    (hfind : s.findBlock hashFunc op.req = some i) (f : DatasevrBlock → DatasevrBlock) :
    s.clusters.blocks.modify i f =
      s.clusters.blocks.map fun b => if b.ids = op.ids hashFunc then f b else b := by
  rw [findBlock, Clusters.datasevrblockFind,
    DatasevrCluster.datasevrblockByidFind_eq_findIdx?] at hfind
  have hpair : s.clusters.blocks.Pairwise fun b b' =>
      ¬ (decide (b.ids = op.ids hashFunc) ∧ decide (b'.ids = op.ids hashFunc)) := by
    refine (pairwise_map.1 hnodup).imp fun {b b'} hne => ?_
    rintro ⟨hb, hb'⟩
    exact hne ((of_decide_eq_true hb).trans (of_decide_eq_true hb').symm)
  have hmodify := DatasevrCluster.modify_eq_map (f := f) hfind hpair
  simp only [decide_eq_true_eq] at hmodify
  exact hmodify

lemma findBlock_eq_none_iff : s.findBlock hashFunc op.req = none ↔
    op.ids hashFunc ∉ s.clusters.blocks.map DatasevrBlock.ids := by
  rw [TrackerOp.ids, ← DatasevrCluster.datasevrblockFind_isSome_iff, findBlock]
  simp

lemma after_eq_of_ne (hcmd : op.cmd ≠ .heartbeat) (b : DatasevrBlock) :
    op.after hashFunc heartBeatInterval b = if b.ids = op.ids hashFunc then op.update b else b :=
  if_neg fun h => hcmd h.1

lemma blocks_heartbeat (hnodup : (s.clusters.blocks.map DatasevrBlock.ids).Nodup)
    (hcmd : op.cmd = .heartbeat) (hfind : s.findBlock hashFunc op.req = some i) :
    (s.clusters.handleCmdHeartbeat hashFunc heartBeatInterval op.now (mapInfoOf op.req)
      (dsIpaddrOf op.req)).blocks = s.clusters.blocks.map (op.after hashFunc heartBeatInterval) := by
  have hupdate : op.update = DatasevrBlock.heartbeat op.now := by
    unfold TrackerOp.update
    rw [hcmd]
  rw [Clusters.blocks_handleCmdHeartbeat hfind, modify_findBlock hnodup hfind, List.map_map]
  refine map_congr_left fun b _ => ?_
  simp only [comp_apply, TrackerOp.after, TrackerOp.updateOther, hcmd, hupdate, true_and]
  congr 1
  rw [eq_iff_iff]
  tauto

/-- **The blocks after a request of a server.**  The block of a server that is registered is changed,
that of one that registers is added, and nothing is done for a server that is not known. -/
lemma blocks_effect (hnodup : (s.clusters.blocks.map DatasevrBlock.ids).Nodup)
    (hgives : op.cmd.gives.isSome)
    (he : s.Effect hashFunc heartBeatInterval op.now op.draws op.req op.cmd h) :
    h.state.clusters.blocks = s.clusters.blocks.map (op.after hashFunc heartBeatInterval) ∨
    (op.ids hashFunc ∉ s.clusters.blocks.map DatasevrBlock.ids ∧
      ((op.cmd = .register ∧ ∃ b, b.key = (regBodyReqOf op.req).key hashFunc ∧ b.state = .init ∧
          b.lastHeartbeatTime = 0 ∧ h.state.clusters.blocks = s.clusters.blocks ++ [b]) ∨
        (op.cmd ≠ .register ∧ h.state.clusters.blocks = s.clusters.blocks))) := by
  have hmodify {i : ℕ} {f : DatasevrBlock → DatasevrBlock}
      (hfind : s.findBlock hashFunc op.req = some i) (hcmd : op.cmd ≠ .heartbeat)
      (hf : op.update = f) :
      s.clusters.blocks.modify i f = s.clusters.blocks.map (op.after hashFunc heartBeatInterval) := by
    rw [modify_findBlock hnodup hfind, ← hf]
    exact map_congr_left fun b _ => (after_eq_of_ne hcmd b).symm
  have hupdate {cmd : TrackerCmd} (hcmd : op.cmd = cmd) :
      op.update = TrackerOp.update ⟨op.now, op.draws, cmd, op.req⟩ := by rw [← hcmd]
  generalize hcmd : op.cmd = cmd at he hgives
  cases he with
  | register =>
    rw [Handled.ok, clusters_register, Clusters.handleCmdRegister]
    cases hfind : s.findBlock hashFunc op.req with
    | some i =>
      have hfind' : s.clusters.datasevrblockFind hashFunc (regBodyReqOf op.req).mapInfo
        (regBodyReqOf op.req).dsIpaddr = some i := hfind
      rw [hfind']
      exact .inl (hmodify hfind (by simp [hcmd]) (hupdate hcmd))
    | none =>
      have hfind' : s.clusters.datasevrblockFind hashFunc (regBodyReqOf op.req).mapInfo
        (regBodyReqOf op.req).dsIpaddr = none := hfind
      rw [hfind']
      exact .inr ⟨findBlock_eq_none_iff.1 hfind, .inl ⟨rfl, _, rfl, rfl, rfl, rfl⟩⟩
  | heartbeat hfind hs' =>
    subst hs'
    exact .inl (blocks_heartbeat hnodup hcmd hfind)
  | syncreport hfind | statreport hfind
  | quited hfind => exact .inl (hmodify hfind (by simp [hcmd]) (hupdate hcmd))
  | waiting | fullsync | write | noWrite | read | noRead | test =>
    exact absurd hgives (by simp [TrackerCmd.gives])
  | unknown hne hfind => exact .inr ⟨findBlock_eq_none_iff.1 hfind, .inr ⟨hne, rfl⟩⟩

/-! ### Along a run -/

/-- What is known of the blocks after the requests `ops`: a block has the id of its address, its last
heartbeat is at the time of a request, and its state is the one of the server's last request unless
`heart_beat_interval` is negative. -/
structure Heard (hashFunc : List Byte → UInt32) (heartBeatInterval : ℤ) (ops : List TrackerOp)
    (s : ClusterState) : Prop where
  nodup : (s.clusters.blocks.map DatasevrBlock.ids).Nodup
  hash : ∀ b ∈ s.clusters.blocks, b.blockId = hashFunc b.ipAddr
  state : 0 ≤ heartBeatInterval → ∀ b ∈ s.clusters.blocks, b.state = ownState hashFunc b.ids ops
  time : ∀ b ∈ s.clusters.blocks, b.lastHeartbeatTime ∈ 0 :: ops.map now

variable {ops : List TrackerOp}

lemma heard_start : start.Heard hashFunc heartBeatInterval [] where
  nodup := nodup_nil
  hash := by simp [start, Clusters.start]
  state := by simp [start, Clusters.start]
  time := by simp [start, Clusters.start]

lemma mem_times_append {t : ℤ} (h : t ∈ 0 :: ops.map now) : t ∈ 0 :: (ops ++ [op]).map now := by
  rw [map_append]
  exact mem_append_left _ h

section

variable (hs : s.Heard hashFunc heartBeatInterval ops)
include hs

lemma Heard.state_append (hinterval : 0 ≤ heartBeatInterval) (hb : b ∈ s.clusters.blocks)
    (hne : b.ids ≠ op.ids hashFunc) : b.state = ownState hashFunc b.ids (ops ++ [op]) := by
  rw [ownState_append, if_neg hne.symm]
  exact hs.state hinterval b hb

lemma Heard.changed (hgives : op.cmd.gives.isSome)
    (hblocks : s'.clusters.blocks = s.clusters.blocks.map (op.after hashFunc heartBeatInterval)) :
    s'.Heard hashFunc heartBeatInterval (ops ++ [op]) := by
  have hids (b : DatasevrBlock) : (op.after hashFunc heartBeatInterval b).ids = b.ids :=
    congrArg Prod.fst (key_after b)
  have hip (b : DatasevrBlock) : (op.after hashFunc heartBeatInterval b).ipAddr = b.ipAddr :=
    congrArg Prod.snd (key_after b)
  refine ⟨?_, ?_, fun hinterval => ?_, ?_⟩
  · have hcomp : DatasevrBlock.ids ∘ op.after hashFunc heartBeatInterval = DatasevrBlock.ids :=
      funext hids
    rw [hblocks, List.map_map, hcomp]
    exact hs.nodup
  all_goals
    rw [hblocks, List.forall_mem_map]
    intro b hb
  · rw [hip, ← hs.hash b hb]
    exact congrArg Prod.snd (hids b)
  · rw [hids, TrackerOp.after, updateOther_of_nonneg hinterval]
    by_cases heq : b.ids = op.ids hashFunc
    · rw [if_pos heq, ownState_append, if_pos heq.symm]
      exact state_update hgives b _
    · rw [if_neg heq]
      exact hs.state_append hinterval hb heq
  · rcases lastHeartbeatTime_after b with heq | heq
    · rw [heq]
      simp
    · rw [heq]
      exact mem_times_append (hs.time b hb)

/-- **A server that registers** for the first time has a block in its first state. -/
lemma Heard.added (hcmd : op.cmd = .register)
    (hnew : op.ids hashFunc ∉ s.clusters.blocks.map DatasevrBlock.ids)
    (hkey : b.key = (regBodyReqOf op.req).key hashFunc) (hstate : b.state = .init)
    (htime : b.lastHeartbeatTime = 0) (hblocks : s'.clusters.blocks = s.clusters.blocks ++ [b]) :
    s'.Heard hashFunc heartBeatInterval (ops ++ [op]) := by
  have hids : b.ids = op.ids hashFunc := congrArg Prod.fst hkey
  have hip : b.ipAddr = dsIpaddrOf op.req := congrArg Prod.snd hkey
  refine ⟨?_, ?_, fun hinterval => ?_, ?_⟩
  · rw [hblocks, map_append, map_singleton, ← concat_eq_append, nodup_concat]
    exact ⟨hids ▸ hnew, hs.nodup⟩
  all_goals
    rw [hblocks, forall_mem_append, forall_mem_singleton]
  · exact ⟨hs.hash, hip ▸ congrArg Prod.snd hids⟩
  · refine ⟨fun b' hb' => hs.state_append hinterval hb' ?_, ?_⟩
    · intro heq
      exact hnew (heq ▸ mem_map_of_mem hb')
    · rw [ownState_append, if_pos hids.symm, hstate, hcmd]
      rfl
  · refine ⟨fun b' hb' => mem_times_append (hs.time b' hb'), ?_⟩
    rw [htime]
    exact mem_cons_self

lemma Heard.effect (hgives : op.cmd.gives.isSome)
    (he : s.Effect hashFunc heartBeatInterval op.now op.draws op.req op.cmd h) :
    h.state.Heard hashFunc heartBeatInterval (ops ++ [op]) := by
  obtain hblocks | ⟨hnew, ⟨hcmd, b, hkey, hstate, htime, hblocks⟩ | ⟨-, hblocks⟩⟩ :=
    blocks_effect hs.nodup hgives he
  · exact hs.changed hgives hblocks
  · exact hs.added hcmd hnew hkey hstate htime hblocks
  · -- the sender is not known
    refine ⟨hblocks ▸ hs.nodup, hblocks ▸ hs.hash, fun hinterval => ?_, ?_⟩
    all_goals
      rw [hblocks]
      intro b hb
    · refine hs.state_append hinterval hb fun heq => ?_
      exact hnew (heq ▸ mem_map_of_mem hb)
    · exact mem_times_append (hs.time b hb)

end

lemma heard_run (hgives : ∀ op ∈ ops, op.cmd.gives.isSome)
    (hrun : run (serve hashFunc heartBeatInterval) (some start) ops = some s) :
    s.Heard hashFunc heartBeatInterval ops := by
  induction ops using reverseRecOn generalizing s with
  | nil =>
    obtain rfl := some.inj hrun
    exact heard_start
  | append_singleton ops op ih =>
    rw [run_append, run_cons, run_nil] at hrun
    obtain ⟨s₁, hs₁, hs⟩ := bind_eq_some_iff.1 hrun
    obtain ⟨h, hh, rfl⟩ := map_eq_some_iff.1 hs
    refine (ih (fun o ho => hgives o (mem_append_left _ ho)) hs₁).effect ?_ (effect_handler hh)
    exact hgives op (by simp)

/-! ### The reply to a heartbeat -/

variable (hashFunc heartBeatInterval) in
/-- The reply lists the other blocks of the volume: as off-line those whose last heartbeat is older
than `heart_beat_interval`, and the others with the state of their own last request. -/
def Reports (ops : List TrackerOp) (op : TrackerOp) (s : ClusterState) (r : Reply) : Prop :=
  ∀ b ∈ (s.volume (hashFunc (mapInfoOf op.req))).blocks, b.ids ≠ op.ids hashFunc →
    r.Lists (.setState
      (if heartBeatInterval < op.now - b.lastHeartbeatTime then .offLine
        else ownState hashFunc b.ids ops) b)

lemma Heard.ids_eq (hs : s.Heard hashFunc heartBeatInterval ops)
    (hb : b ∈ (s.volume (hashFunc (mapInfoOf op.req))).blocks) (hip : b.ipAddr = dsIpaddrOf op.req) :
    b.ids = op.ids hashFunc := by
  obtain ⟨hb, hvid⟩ := mem_filter.1 hb
  have hbid := hs.hash b hb
  rw [hip] at hbid
  exact Prod.ext (of_decide_eq_true hvid) hbid

lemma Heard.nodup_ipAddr (hs : s.Heard hashFunc heartBeatInterval ops) (vid : UInt32) :
    ((s.volume vid).blocks.map ipAddr).Nodup := by
  refine nodup_map_volumeOf hs.nodup (fun b hb b' hb' hip => ?_) vid
  rw [hs.hash b hb, hs.hash b' hb', hip]

lemma heartbeatPeers_map {f : DatasevrBlock → DatasevrBlock} (hf : ∀ b, (f b).key = b.key)
    (hblocks : s'.clusters.blocks = s.clusters.blocks.map f) (req : List Byte) :
    s'.heartbeatPeers hashFunc req = (s.heartbeatPeers hashFunc req).map f := by
  have hvid (b : DatasevrBlock) : (f b).parentVolumeId = b.parentVolumeId :=
    congrArg (fun k => k.1.1) (hf b)
  have hip (b : DatasevrBlock) : (f b).ipAddr = b.ipAddr := congrArg Prod.snd (hf b)
  have hvolume : (s'.volume (hashFunc (mapInfoOf req))).blocks =
      (s.volume (hashFunc (mapInfoOf req))).blocks.map f := by
    simp only [volume, hblocks, List.filter_map, comp_def, hvid]
  simp only [heartbeatPeers, hvolume, length_map]
  split_ifs
  · simp only [peers, List.filter_map, comp_def, hip]
  · rfl

/-- The other blocks of the volume are among those that the loop lists. -/
lemma Heard.mem_heartbeatPeers (hs : s.Heard hashFunc heartBeatInterval ops)
    (hfind : s.findBlock hashFunc op.req = some i)
    (hb : b ∈ (s.volume (hashFunc (mapInfoOf op.req))).blocks) (hne : b.ids ≠ op.ids hashFunc) :
    b ∈ s.heartbeatPeers hashFunc op.req := by
  -- the block of the sender is in the volume too
  have hsender : op.ids hashFunc ∈ s.clusters.blocks.map DatasevrBlock.ids := by
    by_contra hnew
    rw [findBlock_eq_none_iff.2 hnew] at hfind
    exact absurd hfind (by simp)
  obtain ⟨b₀, hb₀, hids⟩ := mem_map.1 hsender
  have hb₀ : b₀ ∈ (s.volume (hashFunc (mapInfoOf op.req))).blocks :=
    mem_filter.2 ⟨hb₀, decide_eq_true (congrArg Prod.fst hids)⟩
  have hlen : 1 < (s.volume (hashFunc (mapInfoOf op.req))).blocks.length := by
    by_contra hle
    have heq : b = b₀ := by
      obtain ⟨j, hj, rfl⟩ := mem_iff_getElem.1 hb
      obtain ⟨j₀, hj₀, rfl⟩ := mem_iff_getElem.1 hb₀
      congr 1
      omega
    exact hne (heq ▸ hids)
  rw [heartbeatPeers, if_pos hlen]
  exact mem_filter.2 ⟨hb, decide_eq_true fun hip => hne (hs.ids_eq hb hip)⟩

/-- **The record of another server.**  It has the state that the block had before, or that of an
off-line one if `heart_beat_interval` is negative. -/
lemma Heard.lists_iff (hs : s.Heard hashFunc heartBeatInterval ops) (hcmd : op.cmd = .heartbeat)
    (hfind : s.findBlock hashFunc op.req = some i)
    (hb : b ∈ (s.volume (hashFunc (mapInfoOf op.req))).blocks) (hne : b.ids ≠ op.ids hashFunc)
    (hblocks : s'.clusters.blocks = s.clusters.blocks.map (op.after hashFunc heartBeatInterval))
    (state : DatasevrState) :
    (Reply.ofPeers (s'.heartbeatPeers hashFunc op.req)).Lists (.setState state b) ↔
      InPlace ((s.heartbeatPeers hashFunc op.req).map ipAddr) b.ipAddr ∧
        (if heartBeatInterval < 0 then .offLine else b.state) = state := by
  set f := op.after hashFunc heartBeatInterval with hf
  have hpeer := hs.mem_heartbeatPeers hfind hb hne
  have hkey (b : DatasevrBlock) : (f b).key = b.key := key_after b
  have hip (b : DatasevrBlock) : (f b).ipAddr = b.ipAddr := congrArg Prod.snd (hkey b)
  have hips : (((s.heartbeatPeers hashFunc op.req).map f).map ipAddr) =
      (s.heartbeatPeers hashFunc op.req).map ipAddr := by
    rw [List.map_map]
    exact map_congr_left fun b _ => hip b
  have hnodup : ((s.heartbeatPeers hashFunc op.req).map ipAddr).Nodup := by
    rw [heartbeatPeers]
    split_ifs
    · exact (hs.nodup_ipAddr _).sublist (filter_sublist.map _)
    · exact nodup_nil
  have hafter : f b = if heartBeatInterval < 0 then b.setOffLine else b := by
    have hvid : b.parentVolumeId = hashFunc (mapInfoOf op.req) :=
      of_decide_eq_true (mem_filter.1 hb).2
    have hne' : b.ipAddr ≠ dsIpaddrOf op.req := fun hip => hne (hs.ids_eq hb hip)
    rw [hf, TrackerOp.after, if_neg hne, TrackerOp.updateOther]
    simp only [hcmd, hvid, hne', true_and, and_true, Ne, not_false_iff]
  have hset : setState state b = .setState state (f b) := by
    rw [hafter]
    split_ifs <;> rfl
  rw [heartbeatPeers_map hkey hblocks, hset,
    lists_ofPeers_iff (hips ▸ hnodup) (mem_map_of_mem hpeer), hips, hip, hafter]
  split_ifs <;> rfl

lemma handler_heartbeat {h : Handled} (hcmd : op.cmd = .heartbeat)
    (hh : s.handler hashFunc heartBeatInterval op.now op.draws op.cmd op.req = some h)
    (hsuccess : h.status = .success) :
    ∃ i, s.findBlock hashFunc op.req = some i ∧
      h.reply = .ofPeers (h.state.heartbeatPeers hashFunc op.req) ∧
      h.state.clusters = s.clusters.handleCmdHeartbeat hashFunc heartBeatInterval op.now
        (mapInfoOf op.req) (dsIpaddrOf op.req) := by
  rw [hcmd] at hh
  cases effect_handler hh with
  | heartbeat hfind hs' => exact ⟨_, hfind, rfl, by rw [hs']⟩
  | unknown _ _ hstatus => exact absurd hsuccess hstatus

/-- **The reply to a heartbeat.**  After requests of the servers with a clock that does not go back,
it lists every other block of the volume as off-line or with the state of its own last request,
according to the age of the last heartbeat, exactly if all their records are sent (`forall_inPlace_iff`:
there are at most two) and the servers that are overdue have quit, or `heart_beat_interval` is
negative. -/
theorem heartbeat_reports_iff {h : Handled} (hgives : ∀ op ∈ ops, op.cmd.gives.isSome)
    (hrun : run (serve hashFunc heartBeatInterval) (some start) ops = some s)
    (hcmd : op.cmd = .heartbeat)
    (hclock : (0 :: (ops ++ [op]).map now).Pairwise (· ≤ ·))
    (hh : s.handler hashFunc heartBeatInterval op.now op.draws op.cmd op.req = some h)
    (hsuccess : h.status = .success) :
    s.Reports hashFunc heartBeatInterval ops op h.reply ↔
      ∀ b ∈ (s.volume (hashFunc (mapInfoOf op.req))).blocks, b.ids ≠ op.ids hashFunc →
        InPlace ((s.heartbeatPeers hashFunc op.req).map ipAddr) b.ipAddr ∧
          (heartBeatInterval < op.now - b.lastHeartbeatTime →
            heartBeatInterval < 0 ∨ ownState hashFunc b.ids ops = .offLine) := by
  have hs := heard_run hgives hrun
  obtain ⟨i, hfind, hreply, hclusters⟩ := handler_heartbeat hcmd hh hsuccess
  have hblocks : h.state.clusters.blocks =
      s.clusters.blocks.map (op.after hashFunc heartBeatInterval) := by
    rw [hclusters]
    exact blocks_heartbeat hs.nodup hcmd hfind
  rw [Reports, hreply]
  refine forall₃_congr fun b hb hne => ?_
  rw [hs.lists_iff hcmd hfind hb hne hblocks]
  refine and_congr_right fun _ => ?_
  have hmem : b ∈ s.clusters.blocks := (mem_filter.1 hb).1
  by_cases hinterval : heartBeatInterval < 0
  · -- every other server is set off-line, and every one is overdue
    have hle : b.lastHeartbeatTime ≤ op.now := by
      rw [map_append, ← cons_append, pairwise_append] at hclock
      exact hclock.2.2 _ (hs.time b hmem) _ (mem_singleton.2 rfl)
    have hoverdue : heartBeatInterval < op.now - b.lastHeartbeatTime := by omega
    simp [hinterval, hoverdue]
  · rw [if_neg hinterval, hs.state (not_lt.1 hinterval) b hmem]
    by_cases hoverdue : heartBeatInterval < op.now - b.lastHeartbeatTime
    · simp [hinterval, hoverdue]
    · simp [hoverdue]

end ClusterState

/-- The servers `ips` of the volume `A` register at the time 5, and send a heartbeat. -/
def heardAtFive (ips : List Byte) : List TrackerOp :=
  ips.map (fun ip => ⟨5, 0, .register, requestOf ip⟩) ++
    ips.map fun ip => ⟨5, 0, .heartbeat, requestOf ip⟩

/-- The heartbeat of the server `1` at the time 100. -/
def heartbeatAtHundred : TrackerOp := ⟨100, 0, .heartbeat, requestOf 49⟩

/-- Of three servers one has quit, and another has just sent a heartbeat. -/
theorem heartbeat_reports_quited :
    ∃ s h, run (ClusterState.serve letterHash 30) (some .start) (heardAtFive [49, 50, 51] ++
        [⟨6, 0, .quited, requestOf 51⟩, ⟨90, 0, .heartbeat, requestOf 50⟩]) = some s ∧
      s.handler letterHash 30 100 0 .heartbeat (requestOf 49) = some h ∧
      s.Reports letterHash 30 (heardAtFive [49, 50, 51] ++
        [⟨6, 0, .quited, requestOf 51⟩, ⟨90, 0, .heartbeat, requestOf 50⟩]) heartbeatAtHundred
        h.reply := by
  refine ⟨_, _, rfl, rfl, (ClusterState.heartbeat_reports_iff (by decide) rfl rfl (by decide) rfl
    rfl).2 fun b hb hne => ⟨?_, ?_⟩⟩
  · refine (forall_inPlace_iff (by decide)).2 (by decide) _ ?_
    revert b
    decide
  · revert b
    decide

/-- The other server has not been heard of for 95 seconds, and is listed as active. -/
theorem heartbeat_overdue_not_reported :
    ∃ s h, run (ClusterState.serve letterHash 30) (some .start) (heardAtFive [49, 50]) = some s ∧
      s.handler letterHash 30 100 0 .heartbeat (requestOf 49) = some h ∧ h.status = .success ∧
      ¬ s.Reports letterHash 30 (heardAtFive [49, 50]) heartbeatAtHundred h.reply := by
  refine ⟨_, _, rfl, rfl, rfl, fun hreports => ?_⟩
  obtain ⟨k, hk, hsub⟩ := hreports _ (mem_cons_of_mem _ mem_cons_self) (by decide)
  -- one record is sent, and it starts with the state
  have hk : sizeofHeader + (k + 1) * sizeofBrief ≤ sizeofHeader + sizeofBrief := hk
  obtain rfl : k = 0 := by
    rw [sizeofBrief] at hk
    omega
  exact absurd (hsub mem_cons_self) (by decide)

end Lfs.Tracker
