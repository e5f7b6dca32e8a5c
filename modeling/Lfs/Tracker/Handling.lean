/-
Runs of the tracker: it handles one request after another (`ts_thread.c`, `ts_service.c`).

A request is a command and the memory at `rcurr`, and is handled at one time of the clock.  What
the handlers keep follows from what each of them does (`Effect`): only a registration adds a block,
and the first block of a volume is its master, whatever is done after it.
-/
import Lfs.Tracker.Dispatch

namespace Lfs.Tracker

open Lfs.Lib Option DatasevrBlock

structure TrackerOp where
  now : ℤ
  /-- With these draws the level of a new node of the skip list is chosen. -/
  draws : ℕ
  cmd : TrackerCmd
  /-- The memory at `rcurr`. -/
  req : List Byte
deriving DecidableEq

namespace ClusterState

/-- `clusters` when `snapshot_load` has inserted the blocks `bs`. -/
def ofSnapshot (bs : List DatasevrBlock) : ClusterState where
  clusters := ⟨bs, wlcslCreate⟩
  masterBlockIndex := fun vid => if ∃ b ∈ bs, b.parentVolumeId = vid then 0 else -1
  lastReadBlockIndex := fun _ => 0

section Step

variable (hashFunc : List Byte → UInt32) (heartBeatInterval : ℤ)

/-- One request; `none` once freed memory has been read. -/
def serve (s : Option ClusterState) (op : TrackerOp) : Option ClusterState :=
  s.bind fun s =>
    (s.handler hashFunc heartBeatInterval op.now op.draws op.cmd op.req).map Handled.state

end Step

/-! ### What the handlers do to the blocks -/

variable {hashFunc : List Byte → UInt32} {heartBeatInterval now : ℤ} {draws : ℕ} {cmd : TrackerCmd}
  {req : List Byte} {s s' : ClusterState} {h : Handled}

/-- What a request other than a registration keeps of the blocks. -/
lemma Effect.map_blocks {β : Type} {π : DatasevrBlock → β} (hπ : Clusters.Untouched π)
    (hstate : ∀ state b, π (.setState state b) = π b) (hcmd : cmd ≠ .register)
    (he : s.Effect hashFunc heartBeatInterval now draws req cmd h) :
    h.state.clusters.blocks.map π = s.clusters.blocks.map π := by
  cases he with
  | register => exact absurd rfl hcmd
  | waiting | fullsync => exact Clusters.map_modifyBlock π (hstate _)
  | heartbeat hfind hs' =>
    subst hs'
    exact hπ.handleCmdHeartbeat _ _
  | syncreport hfind => exact Clusters.map_modifyBlock π (hπ.syncreport _ _)
  | statreport hfind => exact Clusters.map_modifyBlock π (hπ.statreport _ _ _ _)
  | quited hfind => exact Clusters.map_modifyBlock π hπ.setOffLine
  | write hw | noWrite hw => exact hπ.handleCmdWritetracker hw
  | read | noRead | test | unknown => rfl

/-! ### The master of a volume -/

/-- The master of a volume is its first block. -/
def Mastered (s : ClusterState) : Prop :=
  ∀ vid, s.masterBlockIndex vid = if (s.volume vid).blocks = [] then -1 else 0

lemma blocks_volume_eq_nil_iff {vid : UInt32} :
    (s.volume vid).blocks = [] ↔ vid ∉ s.clusters.blocks.map parentVolumeId := by
  simp [volume, List.filter_eq_nil_iff]

lemma Mastered.congr (h : s.Mastered) (hmaster : s'.masterBlockIndex = s.masterBlockIndex)
    (hids : s'.clusters.blocks.map parentVolumeId =
      s.clusters.blocks.map parentVolumeId) : s'.Mastered := by
  intro vid
  rw [hmaster, h vid]
  simp only [blocks_volume_eq_nil_iff, hids]

lemma mastered_start : start.Mastered := fun _ => rfl

lemma mastered_ofSnapshot (bs : List DatasevrBlock) : (ofSnapshot bs).Mastered := by
  intro vid
  by_cases hvid : ∃ b ∈ bs, b.parentVolumeId = vid
  · have hne : ¬ ((ofSnapshot bs).volume vid).blocks = [] := by
      rw [blocks_volume_eq_nil_iff, not_not]
      exact List.mem_map.2 hvid
    rw [if_neg hne]
    exact if_pos hvid
  · have hnil : ((ofSnapshot bs).volume vid).blocks = [] := by
      rw [blocks_volume_eq_nil_iff]
      exact fun hmem => hvid (List.mem_map.1 hmem)
    rw [if_pos hnil]
    exact if_neg hvid

lemma mem_parents_register (req : DatasevrRegBodyReq) {vid : UInt32} :
    vid ∈ (s.register hashFunc req).clusters.blocks.map parentVolumeId ↔
      vid ∈ s.clusters.blocks.map parentVolumeId ∨ vid = hashFunc req.mapInfo := by
  have hparents (bs : List DatasevrBlock) : vid ∈ bs.map parentVolumeId ↔
      ∃ bid, (vid, bid) ∈ bs.map ids := by
    simp [ids]
  rw [clusters_register, hparents, hparents]
  simp [DatasevrCluster.mem_ids_handleCmdRegister, exists_or]

lemma Mastered.register (h : s.Mastered) (req : DatasevrRegBodyReq) :
    (s.register hashFunc req).Mastered := by
  set vid := hashFunc req.mapInfo with hvid
  have hnil (v : UInt32) : ((s.register hashFunc req).volume v).blocks = [] ↔
      (s.volume v).blocks = [] ∧ v ≠ vid := by
    rw [blocks_volume_eq_nil_iff, blocks_volume_eq_nil_iff, mem_parents_register, not_or]
  -- the index of the volume becomes 0, and those of the others stay
  have hmaster : (s.register hashFunc req).masterBlockIndex =
      Function.update s.masterBlockIndex vid 0 := by
    have hself (hne : (s.volume vid).blocks ≠ []) :
        s.masterBlockIndex = Function.update s.masterBlockIndex vid 0 := by
      have hzero := h vid
      rw [if_neg hne] at hzero
      rw [← hzero, Function.update_eq_self]
    rw [ClusterState.register]
    split_ifs with hfound hempty
    · refine hself ?_
      rw [Ne, blocks_volume_eq_nil_iff, not_not]
      have hmem := DatasevrCluster.datasevrblockFind_isSome_iff.1 hfound
      obtain ⟨b, hb, hids⟩ := List.mem_map.1 hmem
      exact List.mem_map.2 ⟨b, hb, (Prod.mk.inj hids).1⟩
    · rfl
    · rfl
    · exact hself hempty
  intro v
  rw [hmaster]
  simp only [hnil]
  by_cases hv : v = vid
  · subst hv
    simp
  · rw [Function.update_of_ne hv, h v]
    simp [hv]

lemma Mastered.effect (hs : s.Mastered)
    (he : s.Effect hashFunc heartBeatInterval now draws req cmd h) : h.state.Mastered := by
  have huntouched : Clusters.Untouched parentVolumeId :=
    ⟨fun _ _ => rfl, fun _ _ _ => rfl, fun _ _ _ _ _ => rfl, fun _ => rfl⟩
  by_cases hcmd : cmd = .register
  · subst hcmd
    cases he with
    | register => exact hs.register _
    | unknown hcmd => exact absurd rfl hcmd
  · have hids := he.map_blocks huntouched (fun _ _ => rfl) hcmd
    refine hs.congr ?_ hids
    cases he with
    | register => exact absurd rfl hcmd
    | heartbeat hfind hs' => rw [hs']
    | waiting | fullsync | syncreport | statreport | quited | write | noWrite | read | noRead | test
    | unknown => rfl

/-- **A run.**  The master of a volume is its first block, from the start of the tracker on. -/
lemma Mastered.run {ops : List TrackerOp} (hs : s.Mastered)
    (hrun : Lib.run (serve hashFunc heartBeatInterval) (some s) ops = some s') : s'.Mastered := by
  have hall : ∀ s' ∈ Lib.run (serve hashFunc heartBeatInterval) (some s) ops, s'.Mastered := by
    refine Along.run_inv (I := fun o : Option ClusterState => ∀ s' ∈ o, s'.Mastered) ?_ ?_
    · rintro _ ⟨⟩
      exact hs
    · rintro o op hI s' hs'
      obtain ⟨s, hso, hs'⟩ := bind_eq_some_iff.1 hs'
      obtain ⟨h, hh, rfl⟩ := map_eq_some_iff.1 hs'
      exact (hI s hso).effect (effect_handler hh)
  exact hall s' hrun

end ClusterState

/-! ### Requests with names of one letter -/

/-- The request of the server `ip` of the volume `A`.  All numbers are zero. -/
def requestOf (ip : Byte) : List Byte :=
  65 :: List.replicate 33 0 ++ (ip :: List.replicate 55 0)

/-- A hash function that tells the names of one letter apart. -/
def letterHash (s : List Byte) : UInt32 := UInt32.ofNat s.headI.toNat

end Lfs.Tracker
