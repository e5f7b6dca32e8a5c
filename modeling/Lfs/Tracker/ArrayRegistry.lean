/-
The volumes of the tracker after registrations, with the arrays of their blocks.

The table with arrays (`Lfs.Tracker.BlockArray`) refines the table in which a volume holds the list of
its blocks: `ClusterHeap.toCluster` replaces each linked volume by the list in the used slots of its
array, and a step of the one table is a step of the other (`ClusterHeap.Faithful.step`).
-/
import Lfs.Lib.Keyed
import Lfs.Tracker.BlockArray

namespace Lfs.Tracker

open Lfs.Lib List Option DatasevrCluster RegisterOp ClusterHeap DatasevrRegBodyReq

/-! ### Changing all volumes of a table -/

namespace DatasevrCluster

/-- All volumes of the two tables are changed. -/
def mapVolumes (f : DatasevrVolume → DatasevrVolume) (c : DatasevrCluster) : DatasevrCluster :=
  { c with
    oldVolumes := c.oldVolumes.map (List.map f)
    primaryVolumes := c.primaryVolumes.map (List.map f) }

def linked (c : DatasevrCluster) : List DatasevrVolume :=
  c.oldVolumes.flatten ++ c.primaryVolumes.flatten

variable {c : DatasevrCluster} {f g : DatasevrVolume → DatasevrVolume}

lemma linked_mapVolumes (f : DatasevrVolume → DatasevrVolume) (c : DatasevrCluster) :
    (c.mapVolumes f).linked = c.linked.map f := by
  rw [linked, linked, map_append, map_flatten, map_flatten]
  rfl

lemma mapVolumes_congr (h : ∀ v ∈ c.linked, f v = g v) : c.mapVolumes f = c.mapVolumes g := by
  have hmap {t : Buckets DatasevrVolume} (ht : ∀ v ∈ t.flatten, f v = g v) :
      t.map (List.map f) = t.map (List.map g) :=
    map_congr_left fun b hb => map_congr_left fun v hv =>
      ht v (mem_flatten.2 ⟨b, hb, hv⟩)
  rw [mapVolumes, mapVolumes, hmap fun v hv => h v (mem_append_left _ hv),
    hmap fun v hv => h v (mem_append_right _ hv)]

lemma mapVolumes_mapVolumes (f g : DatasevrVolume → DatasevrVolume) (c : DatasevrCluster) :
    (c.mapVolumes f).mapVolumes g = c.mapVolumes (g ∘ f) := by
  simp [mapVolumes]

lemma modifyVolume_eq (vid : UInt32) (f : DatasevrVolume → DatasevrVolume) (c : DatasevrCluster) :
    c.modifyVolume vid f = c.mapVolumes fun v => if v.volumeId = vid then f v else v := rfl

lemma doClusterFind_mapVolumes (hf : ∀ v, (f v).volumeId = v.volumeId) (vid : UInt32) :
    (c.mapVolumes f).doClusterFind vid = (c.doClusterFind vid).map (Option.map f) := by
  have hwalk (t : Buckets DatasevrVolume) (i : ℕ) :
      ((t.map (List.map f))[i]?).map (fun b => b.find? fun dv => dv.volumeId == vid) =
        ((t[i]?).map fun b => b.find? fun dv => dv.volumeId == vid).map (Option.map f) := by
    rw [getElem?_map, Option.map_map, Option.map_map]
    congr 1
    funext b
    simp only [Function.comp_apply, find?_map, hf]
  by_cases hold : (c.expanding && decide (c.expandBucket ≤ bucket vid (c.hashSize - 1))) = true
  · have hold' : ((c.mapVolumes f).expanding && decide ((c.mapVolumes f).expandBucket ≤
        bucket vid ((c.mapVolumes f).hashSize - 1))) = true := hold
    rw [doClusterFind, doClusterFind, if_pos hold, if_pos hold']
    exact hwalk _ _
  · have hold' : ¬ ((c.mapVolumes f).expanding && decide ((c.mapVolumes f).expandBucket ≤
        bucket vid ((c.mapVolumes f).hashSize - 1))) = true := hold
    rw [doClusterFind, doClusterFind, if_neg hold, if_neg hold']
    exact hwalk _ _

lemma doClusterInsert_mapVolumes (hf : ∀ v, (f v).volumeId = v.volumeId) (dv : DatasevrVolume) :
    (c.mapVolumes f).doClusterInsert (f dv) = (c.doClusterInsert dv).map (mapVolumes f) := by
  have hcount (c : DatasevrCluster) : (c.mapVolumes f).countVolume = c.countVolume.mapVolumes f := by
    rw [countVolume_eq, countVolume_eq]
    rfl
  rw [doClusterInsert, doClusterInsert, linkVolume, linkVolume]
  simp only [mapVolumes, hf, Buckets.push_map]
  split_ifs
  · cases c.oldVolumes.push (bucket dv.volumeId c.hashSize) dv with
    | none => rfl
    | some t => exact congrArg some (hcount { c with oldVolumes := t })
  · cases c.primaryVolumes.push (bucket dv.volumeId c.hashSize) dv with
    | none => rfl
    | some t => exact congrArg some (hcount { c with primaryVolumes := t })

lemma clusterExpand_mapVolumes (f : DatasevrVolume → DatasevrVolume) (c : DatasevrCluster) :
    (c.mapVolumes f).clusterExpand true = (c.clusterExpand true).mapVolumes f := by
  simp [clusterExpand, mapVolumes, Buckets.empty]

lemma migrateBucket_mapVolumes (hf : ∀ v, (f v).volumeId = v.volumeId) (c : DatasevrCluster) :
    (c.mapVolumes f).migrateBucket = c.migrateBucket.map (mapVolumes f) := by
  have hfinish (c : DatasevrCluster) : (c.mapVolumes f).finishBucket = c.finishBucket.mapVolumes f := by
    by_cases hlast : c.expandBucket = hashsize (c.hashSize - 1)
    · have hlast' : (c.mapVolumes f).expandBucket = hashsize ((c.mapVolumes f).hashSize - 1) := hlast
      rw [finishBucket, finishBucket, if_pos hlast, if_pos hlast']
      rfl
    · have hlast' : ¬ (c.mapVolumes f).expandBucket = hashsize ((c.mapVolumes f).hashSize - 1) := hlast
      rw [finishBucket, finishBucket, if_neg hlast, if_neg hlast']
  simp only [migrateBucket, bind_eq_bind, mapVolumes, getElem?_map]
  cases c.oldVolumes[c.expandBucket]? with
  | none => rfl
  | some moved =>
    simp only [map_some, bind_some]
    rw [Buckets.pushAll_map (f := fun dv => bucket dv.volumeId c.hashSize) fun v => by rw [hf]]
    cases Buckets.pushAll (fun dv => bucket dv.volumeId c.hashSize) c.primaryVolumes moved with
    | none => rfl
    | some primary =>
      simp only [map_some, bind_some, length_map]
      rw [← hfinish]
      simp [mapVolumes, map_set]

end DatasevrCluster

/-! ### The lists in the arrays -/

def VolumeArray.toVolume (dv : VolumeArray) : DatasevrVolume where
  volumeId := dv.volumeId
  blocks := dv.blocks.view
  masterBlockIndex := dv.masterBlockIndex
  lastReadBlockIndex := dv.lastReadBlockIndex

lemma VolumeArray.doInsert_true {dv : VolumeArray} (hdv : dv.blocks.Filled) (dblk : DatasevrBlock) :
    (dv.doInsert true dblk).2 = some dv.blocks.count ∧ (dv.doInsert true dblk).1.blocks.Filled ∧
      (dv.doInsert true dblk).1.toVolume = dv.toVolume.doInsert dblk := by
  have htry (dv : VolumeArray) (hdv : dv.blocks.Filled) (dblk : DatasevrBlock) :
      (dv.tryBlockInsert true dblk).2 = some dv.blocks.count ∧
        (dv.tryBlockInsert true dblk).1.blocks.Filled ∧
        (dv.tryBlockInsert true dblk).1.toVolume = dv.toVolume.doBlockInsert dblk := by
    have hsome : (dv.blocks.push lfsMaxBlocksEachVolume_pos true dblk).isSome :=
      GrowArray.push_isSome_iff.2 (.inr rfl)
    obtain ⟨blocks, hblocks⟩ := isSome_iff_exists.1 hsome
    obtain ⟨hfilled, hview⟩ := hdv.push hblocks
    rw [tryBlockInsert_eq, hblocks]
    refine ⟨rfl, hfilled, ?_⟩
    rw [DatasevrVolume.doBlockInsert]
    exact congrArg (fun l => DatasevrVolume.mk _ l _ _) hview
  have hcount : dv.toVolume.blocks.length = dv.blocks.count := hdv.length_view
  rw [VolumeArray.doInsert, DatasevrVolume.doInsert, hcount]
  by_cases hfirst : dv.blocks.count = 0 ∨ dv.masterBlockIndex = -1
  · have hfirst' : dv.blocks.count = 0 ∨ dv.toVolume.masterBlockIndex = -1 := hfirst
    rw [if_pos hfirst, if_pos hfirst']
    exact htry { dv with masterBlockIndex := 0 } hdv _
  · have hfirst' : ¬ (dv.blocks.count = 0 ∨ dv.toVolume.masterBlockIndex = -1) := hfirst
    rw [if_neg hfirst, if_neg hfirst']
    exact htry dv hdv dblk

namespace ClusterHeap

/-- The table in which the volumes hold the lists of their blocks. -/
def toCluster (s : ClusterHeap) : DatasevrCluster :=
  s.cluster.mapVolumes fun v => (s.volume v.volumeId).toVolume

/-- The volumes have their ids, and no used slot is null. -/
structure Faithful (s : ClusterHeap) : Prop where
  volumeId : ∀ vid, (s.volume vid).volumeId = vid
  filled : ∀ vid, (s.volume vid).blocks.Filled

lemma faithful_init : init.Faithful where
  volumeId := fun _ => rfl
  filled := fun _ => (GrowArray.filled_empty _).1

variable {s : ClusterHeap} {vid bid : UInt32} {regs : List DatasevrBlock}

lemma Faithful.setVolume (hs : s.Faithful) {dv : VolumeArray} (hid : dv.volumeId = vid)
    (hfilled : dv.blocks.Filled) : (s.setVolume vid dv).Faithful where
  volumeId := by
    intro v
    by_cases hv : v = vid
    · subst hv
      rw [volume_setVolume_self]
      exact hid
    · rw [volume_setVolume_of_ne hv]
      exact hs.volumeId v
  filled := by
    intro v
    by_cases hv : v = vid
    · subst hv
      rw [volume_setVolume_self]
      exact hfilled
    · rw [volume_setVolume_of_ne hv]
      exact hs.filled v

lemma toCluster_setVolume (hs : s.Faithful) {dv : VolumeArray} {f : DatasevrVolume → DatasevrVolume}
    (hf : dv.toVolume = f (s.volume vid).toVolume) :
    (s.setVolume vid dv).toCluster = s.toCluster.modifyVolume vid f := by
  rw [modifyVolume_eq, toCluster, toCluster, mapVolumes_mapVolumes]
  refine mapVolumes_congr fun v _ => ?_
  have hid : (s.volume v.volumeId).toVolume.volumeId = v.volumeId := hs.volumeId _
  rw [Function.comp_apply, hid]
  split_ifs with hv
  · rw [hv, volume_setVolume_self, hf]
  · rw [volume_setVolume_of_ne hv]

lemma doClusterFind_toCluster (hs : s.Faithful) (vid : UInt32) : s.toCluster.doClusterFind vid =
      (s.cluster.doClusterFind vid).map (Option.map fun v => (s.volume v.volumeId).toVolume) :=
  doClusterFind_mapVolumes (fun v => hs.volumeId v.volumeId) vid

lemma doClusterFind_toCluster_of_found (hs : s.Faithful) {dv : DatasevrVolume}
    (hfind : s.cluster.doClusterFind vid = some (some dv)) :
    s.toCluster.doClusterFind vid = some (some (s.volume vid).toVolume) := by
  have hid : dv.volumeId = vid := by
    obtain ⟨b, -, hb⟩ := map_eq_some_iff.1 hfind
    simpa using find?_some hb
  rw [doClusterFind_toCluster hs, hfind, map_some, map_some, hid]

/-- **Looking up a block** leads to the slot in which the block of the list is. -/
lemma datasevrblockByidFind_toCluster (hs : s.Faithful) (vid bid : UInt32) :
    s.toCluster.datasevrblockByidFind vid bid =
      (s.datasevrblockByidFind vid bid).map fun slot => slot.bind (s.volume vid).blocks.get? := by
  rw [DatasevrCluster.datasevrblockByidFind, datasevrblockByidFind]
  rcases hfind : s.cluster.doClusterFind vid with _ | _ | dv
  · rw [doClusterFind_toCluster hs, hfind]
    rfl
  · rw [doClusterFind_toCluster hs, hfind]
    rfl
  · have hfilled := hs.filled vid
    have hslot : (s.volume vid).doBlockFind bid =
        (s.volume vid).blocks.view.findIdx? fun b => b.blockId == bid := hfilled.findIdx?_eq _
    rw [doClusterFind_toCluster_of_found hs hfind, map_some, map_some, map_some,
      bind_some, bind_some, DatasevrVolume.doBlockFind, hslot,
      find?_eq_bind_findIdx?_getElem?]
    congr 1
    refine bind_congr fun i hi => ?_
    have hlt := (findIdx?_eq_some_iff_getElem.1 hi).1
    exact (hfilled.get?_eq (hlt.trans_eq hfilled.length_view)).symm

lemma exists_of_datasevrblockByidFind {i : ℕ}
    (hslot : s.datasevrblockByidFind vid bid = some (some i)) :
    ∃ dv, s.cluster.doClusterFind vid = some (some dv) ∧ (s.volume vid).doBlockFind bid = some i := by
  obtain ⟨o, ho, hi⟩ := map_eq_some_iff.1 hslot
  obtain ⟨dv, rfl, hi⟩ := bind_eq_some_iff.1 hi
  exact ⟨dv, ho, hi⟩

/-- **The end of a registration** changes the block in the slot, or that with the id in the list. -/
lemma Faithful.modifySlot (hs : s.Faithful) (hregs : s.toCluster.Registered regs) {i : ℕ}
    (hslot : s.datasevrblockByidFind vid bid = some (some i)) (req : DatasevrRegBodyReq) :
    (s.modifySlot vid i (.register req)).Faithful ∧ (s.modifySlot vid i (.register req)).toCluster =
        s.toCluster.modifyVolume vid (.modifyBlockId bid (.register req)) := by
  obtain ⟨dv, hfind, hslot⟩ := exists_of_datasevrblockByidFind hslot
  have hfilled := hs.filled vid
  have hidx : (s.volume vid).blocks.view.findIdx? (fun b => b.blockId == bid) = some i :=
    (hfilled.findIdx?_eq _).symm.trans hslot
  -- the volume has one block with the id
  have hvolume : (s.volume vid).toVolume = volumeOf regs vid := by
    have heq := (doClusterFind_toCluster_of_found hs hfind).symm.trans (hregs.doClusterFind_eq vid)
    split_ifs at heq
    · exact some.inj (some.inj heq)
    · exact absurd heq (by simp)
  have hnodup : ((s.volume vid).blocks.view.map DatasevrBlock.blockId).Nodup := by
    have hview : (s.volume vid).blocks.view = (volumeOf regs vid).blocks :=
      congrArg DatasevrVolume.blocks hvolume
    rw [hview]
    exact nodup_map_volumeOf hregs.distinct (fun _ _ _ _ => id) vid
  have hpair : (s.volume vid).blocks.view.Pairwise fun b b' =>
      ¬ ((b.blockId == bid) = true ∧ (b'.blockId == bid) = true) := by
    refine (pairwise_map.1 hnodup).imp fun {b b'} hne => ?_
    rintro ⟨hb, hb'⟩
    exact hne ((beq_iff_eq.1 hb).trans (beq_iff_eq.1 hb').symm)
  obtain ⟨hfilled', hview⟩ := hfilled.modifyAt i (.register req)
  refine ⟨hs.setVolume (hs.volumeId vid) hfilled', toCluster_setVolume hs ?_⟩
  have hmap := modify_eq_map (f := .register req) hidx hpair
  simp only [beq_iff_eq] at hmap
  exact congrArg (fun l => DatasevrVolume.mk _ l _ _) (hview.trans hmap)

/-- **`__do_insert`** adds the block to the list of its volume. -/
lemma Faithful.doInsert (hs : s.Faithful) (dblk : DatasevrBlock) :
    (s.doInsert true dblk).2 = some (s.volume dblk.parentVolumeId).blocks.count ∧
      (s.doInsert true dblk).1.Faithful ∧
      (s.doInsert true dblk).1.toCluster =
        s.toCluster.modifyVolume dblk.parentVolumeId (.doInsert dblk) := by
  obtain ⟨hslot, hfilled, hvolume⟩ :=
    VolumeArray.doInsert_true (hs.filled dblk.parentVolumeId) dblk
  refine ⟨hslot, hs.setVolume ?_ hfilled, toCluster_setVolume hs hvolume⟩
  have hid := congrArg DatasevrVolume.volumeId hvolume
  rw [volumeId_doInsert] at hid
  exact hid.trans (hs.volumeId _)

lemma toCluster_setVolume_new (hmissing : ∀ v ∈ s.cluster.linked, v.volumeId ≠ vid) :
    (s.setVolume vid (.new vid)).toCluster = s.toCluster :=
  mapVolumes_congr fun v hv => by rw [volume_setVolume_of_ne (hmissing v hv)]

lemma toVolume_mem_linked {v : DatasevrVolume} (hv : v ∈ s.cluster.linked) :
    (s.volume v.volumeId).toVolume ∈ s.toCluster.linked := by
  rw [toCluster, linked_mapVolumes]
  exact mem_map.2 ⟨v, hv, rfl⟩

section

variable (hs : s.Faithful) (hregs : s.toCluster.Registered regs)
    (hfind : s.cluster.doClusterFind vid = some none)
include hs hregs hfind

lemma Faithful.ne_of_missing : ∀ v ∈ s.cluster.linked, v.volumeId ≠ vid := by
  intro v hv hid
  have hnone : s.toCluster.doClusterFind vid = some none := by
    rw [doClusterFind_toCluster hs, hfind]
    rfl
  obtain ⟨ins, hregs⟩ := hregs
  rw [hregs.inv.doClusterFind_eq, some.injEq, find?_eq_none] at hnone
  refine hnone _ (hregs.linked.perm.subset (toVolume_mem_linked hv)) (beq_iff_eq.2 ?_)
  exact (hs.volumeId _).trans hid

/-- **Linking a volume** that is not found, with an empty array. -/
lemma Faithful.doClusterInsert {c : DatasevrCluster}
    (hinsert : s.toCluster.doClusterInsert (volumeWithId vid) = some c) :
    ∃ c₁, s.cluster.doClusterInsert (volumeWithId vid) = some c₁ ∧
      (ClusterHeap.mk c₁ (s.setVolume vid (.new vid)).volume).Faithful ∧
      (ClusterHeap.mk c₁ (s.setVolume vid (.new vid)).volume).toCluster = c := by
  set s₀ := s.setVolume vid (.new vid) with hs₀
  have hfaithful₀ : s₀.Faithful := hs.setVolume rfl (GrowArray.filled_empty _).1
  have hcluster₀ : s₀.toCluster = s.toCluster :=
    toCluster_setVolume_new (hs.ne_of_missing hregs hfind)
  have hnew : (s₀.volume (volumeWithId vid).volumeId).toVolume = volumeWithId vid :=
    congrArg VolumeArray.toVolume (volume_setVolume_self _)
  have hlink : (s.cluster.doClusterInsert (volumeWithId vid)).map (mapVolumes
      fun v => (s₀.volume v.volumeId).toVolume) = some c := by
    rw [← hinsert, ← hcluster₀, toCluster, ← doClusterInsert_mapVolumes
      (fun v => hfaithful₀.volumeId v.volumeId), hnew]
    rfl
  obtain ⟨c₁, hc₁, hc⟩ := map_eq_some_iff.1 hlink
  exact ⟨c₁, hc₁, ⟨hfaithful₀.volumeId, hfaithful₀.filled⟩, hc⟩

end

/-- **In a volume that is linked** the block comes into the next slot, and is found there. -/
lemma Faithful.doInsert_of_found (hs : s.Faithful) {dblk : DatasevrBlock} {dv : DatasevrVolume}
    (hfind : s.cluster.doClusterFind dblk.parentVolumeId = some (some dv))
    (hslot : (s.volume dblk.parentVolumeId).doBlockFind dblk.blockId = none) :
    ∃ s' i, s.doInsert true dblk = (s', some i) ∧ s'.Faithful ∧
      s'.toCluster = s.toCluster.modifyVolume dblk.parentVolumeId (.doInsert dblk) ∧
      s'.datasevrblockByidFind dblk.parentVolumeId dblk.blockId = some (some i) := by
  obtain ⟨hi, hfaithful, hcluster⟩ := hs.doInsert dblk
  refine ⟨_, _, Prod.ext rfl hi, hfaithful, hcluster, ?_⟩
  have hfind' : (s.doInsert true dblk).1.cluster.doClusterFind dblk.parentVolumeId =
      some (some dv) := hfind
  rw [datasevrblockByidFind_eq hfind', bind_some]
  congr 1
  show ((s.setVolume _ _).volume _).doBlockFind _ = _
  rw [volume_setVolume_self]
  exact VolumeArray.doBlockFind_doInsert_of_room hslot (.inr rfl)

/-- **Inserting a block** that is not found, with memory for everything. -/
lemma Faithful.datasevrblockInsert (hs : s.Faithful) (hregs : s.toCluster.Registered regs)
    {dblk : DatasevrBlock} {c' : DatasevrCluster}
    (hnone : s.datasevrblockByidFind dblk.parentVolumeId dblk.blockId = some none)
    (hinsert : s.toCluster.datasevrblockInsert dblk = some c')
    (hregs' : c'.Registered (regs ++ [dblk])) :
    ∃ s' i, s.datasevrblockInsert .all dblk = some (s', some i) ∧ s'.Faithful ∧ s'.toCluster = c' ∧
      s'.datasevrblockByidFind dblk.parentVolumeId dblk.blockId = some (some i) := by
  obtain ⟨dv, hfind, hslot⟩ := map_eq_some_iff.1 hnone
  cases dv with
  | some dv =>
    rw [bind_some] at hslot
    obtain ⟨s', i, hs', hfaithful, hcluster, hbyid⟩ := hs.doInsert_of_found hfind hslot
    refine ⟨s', i, ?_, hfaithful, ?_, hbyid⟩
    · rw [datasevrblockInsert_of_found hfind]
      exact congrArg some hs'
    · have hfound := doClusterFind_toCluster_of_found hs hfind
      rw [hcluster]
      simpa [DatasevrCluster.datasevrblockInsert, hfound] using hinsert
  | none =>
    -- the volume is made and linked before
    set vid := dblk.parentVolumeId with hvid
    obtain ⟨c, hc, hc'⟩ : ∃ c, s.toCluster.doClusterInsert (volumeWithId vid) = some c ∧
        c.modifyVolume vid (.doInsert dblk) = c' := by
      have hmissing : s.toCluster.doClusterFind vid = some none := by
        rw [doClusterFind_toCluster hs, hfind]
        rfl
      rw [DatasevrCluster.datasevrblockInsert, ← hvid, hmissing] at hinsert
      refine map_eq_some_iff.1 ?_
      rw [← hinsert]
      cases s.toCluster.doClusterInsert (volumeWithId vid) <;> rfl
    obtain ⟨c₁, hc₁, hfaithful₁, rfl⟩ := hs.doClusterInsert hregs hfind hc
    set s₁ : ClusterHeap := ⟨c₁, (s.setVolume vid (.new vid)).volume⟩ with hs₁
    obtain ⟨dv, hfind₁⟩ : ∃ dv, s₁.cluster.doClusterFind vid = some (some dv) := by
      obtain ⟨-, hfaithful, hcluster⟩ := hfaithful₁.doInsert dblk
      have hfound := hregs'.doClusterFind_eq vid
      rw [if_pos ⟨dblk, by simp, rfl⟩, ← hc', ← hcluster, doClusterFind_toCluster hfaithful] at hfound
      obtain ⟨o, ho, hsome⟩ := map_eq_some_iff.1 hfound
      obtain ⟨dv, rfl, -⟩ := map_eq_some_iff.1 hsome
      exact ⟨dv, ho⟩
    have hslot₁ : (s₁.volume vid).doBlockFind dblk.blockId = none := by
      have hvolume : s₁.volume vid = .new vid := volume_setVolume_self _
      rw [hvolume]
      rfl
    obtain ⟨s', i, hs', hfaithful, hcluster, hbyid⟩ := hfaithful₁.doInsert_of_found hfind₁ hslot₁
    refine ⟨s', i, ?_, hfaithful, hcluster.trans hc', hbyid⟩
    rw [datasevrblockInsert_of_missing hfind, if_pos ⟨rfl, rfl⟩, ← hvid, hc₁, map_some]
    exact congrArg some hs'

/-- **A registration** with memory for everything does to the arrays what it does to the lists. -/
lemma Faithful.handleCmdRegister (hs : s.Faithful) {t : Clusters}
    (hregs : s.toCluster.Registered t.blocks) (hexp : s.cluster.expanding = false)
    (hashFunc : List Byte → UInt32) (req : DatasevrRegBodyReq) :
    ∃ s', s.handleCmdRegister hashFunc .all req = some (.success, s') ∧ s'.Faithful ∧
      s.toCluster.handleCmdRegister hashFunc req = some s'.toCluster := by
  set vid := hashFunc req.mapInfo with hvid
  set bid := hashFunc req.dsIpaddr with hbid
  have hbyid := datasevrblockByidFind_toCluster hs vid bid
  obtain ⟨slot, hslot, hfound⟩ := map_eq_some_iff.1
    (hbyid.symm.trans (hregs.datasevrblockByidFind_eq vid bid))
  rw [hslot, map_some] at hbyid
  cases slot with
  | some i =>
    -- the block is there
    obtain ⟨hfaithful, hcluster⟩ := hs.modifySlot hregs hslot req
    refine ⟨s.modifySlot vid i (.register req), ?_, hfaithful, ?_⟩
    · simp [ClusterHeap.handleCmdRegister, ← hvid, ← hbid, hslot]
    · obtain ⟨-, -, hfind⟩ := exists_of_datasevrblockByidFind hslot
      obtain ⟨b, hb⟩ := GrowArray.exists_get?_of_findIdx? hfind
      rw [bind_some, hb] at hbyid
      rw [hcluster]
      simp [DatasevrCluster.handleCmdRegister, ← hvid, ← hbid, hbyid]
  | none =>
    have hnew : ∀ b ∈ t.blocks, b.ids ≠ (vid, bid) := fun b hb hids =>
      find?_eq_none.1 hfound.symm b hb (decide_eq_true hids)
    obtain ⟨c₁, hc₁, hregs₁, -⟩ :=
      hregs.datasevrblockInsert (b := .ofRegister vid bid req) hexp hnew rfl
    obtain ⟨s₁, i, hs₁, hfaithful₁, rfl, hslot₁⟩ := hs.datasevrblockInsert hregs hslot hc₁ hregs₁
    have hslot₁ : s₁.datasevrblockByidFind vid bid = some (some i) := hslot₁
    have halloc : RegisterAllocs.all.block = true := rfl
    obtain ⟨hfaithful, hcluster⟩ := hfaithful₁.modifySlot hregs₁ hslot₁ req
    refine ⟨s₁.modifySlot vid i (.register req), ?_, hfaithful, ?_⟩
    · simp [ClusterHeap.handleCmdRegister, ← hvid, ← hbid, hslot, hs₁, halloc]
    · rw [bind_none] at hbyid
      rw [hcluster]
      simp [DatasevrCluster.handleCmdRegister, ← hvid, ← hbid, hbyid, hc₁]

end ClusterHeap

/-! ### Runs of registrations -/

/-- One step of the table with arrays, with memory for everything. -/
def RegisterOp.arrayStep (hashFunc : List Byte → UInt32) (s : Option ClusterHeap) :
    RegisterOp → Option ClusterHeap
  | .register req => s.bind fun s => (s.handleCmdRegister hashFunc .all req).map Prod.snd
  | .expand => s.map fun s => { s with cluster := s.cluster.clusterExpand true }
  | .migrate => s.bind fun s => s.cluster.migrateBucket.map fun c => { s with cluster := c }

namespace ClusterHeap

variable {s : ClusterHeap} {hashFunc : List Byte → UInt32}

lemma enabled_toCluster {op : RegisterOp} (hop : RegisterOp.Enabled (some s.cluster) op) :
    RegisterOp.Enabled (some s.toCluster) op := by
  cases op with
  | register req | expand | migrate =>
    rintro _ ⟨⟩
    exact hop s.cluster rfl

/-- **One step** of the arrays is a step of the lists. -/
lemma Faithful.step (hs : s.Faithful) {t : Clusters} (hregs : s.toCluster.Registered t.blocks)
    {op : RegisterOp} (hop : RegisterOp.Enabled (some s.cluster) op) :
    ∃ s', arrayStep hashFunc (some s) op = some s' ∧ s'.Faithful ∧
      step hashFunc (some s.toCluster) op = some s'.toCluster := by
  cases op with
  | register req =>
    obtain ⟨s', hs', hfaithful, hstep⟩ := hs.handleCmdRegister hregs (hop _ rfl) hashFunc req
    refine ⟨s', ?_, hfaithful, hstep⟩
    show (s.handleCmdRegister hashFunc .all req).map Prod.snd = some s'
    rw [hs', map_some]
  | expand =>
    refine ⟨_, rfl, ⟨hs.volumeId, hs.filled⟩, ?_⟩
    exact congrArg some (clusterExpand_mapVolumes _ _)
  | migrate =>
    obtain ⟨c', hc', -⟩ := hregs.migrateBucket (enabled_toCluster hop _ rfl)
    have hmigrate : s.toCluster.migrateBucket = _ :=
      migrateBucket_mapVolumes (fun v => hs.volumeId v.volumeId) s.cluster
    rw [hc'] at hmigrate
    obtain ⟨c, hc, rfl⟩ := map_eq_some_iff.1 hmigrate.symm
    refine ⟨{ s with cluster := c }, ?_, ⟨hs.volumeId, hs.filled⟩, hc'⟩
    show s.cluster.migrateBucket.map _ = _
    rw [hc, map_some]

lemma Faithful.run (hs : s.Faithful) {t : Clusters} (hregs : s.toCluster.Registered t.blocks)
    {ops : List RegisterOp}
    (hops : Along (arrayStep hashFunc)
      (fun s op _ => RegisterOp.Enabled (s.map cluster) op) (some s) ops) :
    ∃ s', Lib.run (arrayStep hashFunc) (some s) ops = some s' ∧ s'.Faithful ∧
      s'.toCluster.Registered (registrations hashFunc t (ops.filterMap request)).blocks := by
  induction ops generalizing s t with
  | nil => exact ⟨s, rfl, hs, hregs⟩
  | cons op ops ih =>
    obtain ⟨henabled, hops⟩ := hops
    obtain ⟨s₁, hs₁, hfaithful₁, hstep₁⟩ := hs.step hregs henabled
    obtain ⟨c₁, hc₁, hregs₁⟩ := hregs.step (enabled_toCluster henabled)
    obtain rfl := some.inj (hstep₁.symm.trans hc₁)
    rw [hs₁] at hops
    rw [run_cons, hs₁, registrations_cons]
    exact ih hfaithful₁ hregs₁ hops

end ClusterHeap

/-! ### The arrays after registrations -/

def DatasevrRegBodyReq.ids (hashFunc : List Byte → UInt32) (req : DatasevrRegBodyReq) :
    UInt32 × UInt32 :=
  (hashFunc req.mapInfo, hashFunc req.dsIpaddr)

/-- The ids of the servers, in the order in which they are first registered. -/
def firstIds (hashFunc : List Byte → UInt32) (ops : List RegisterOp) : List (UInt32 × UInt32) :=
  ((ops.filterMap request).map (ids hashFunc)).eraseDups

/-- The registered blocks have the ids of the servers in this order. -/
lemma ids_registrations (hashFunc : List Byte → UInt32) (reqs : List DatasevrRegBodyReq) :
    (registrations hashFunc Clusters.start reqs).blocks.map DatasevrBlock.ids =
      (reqs.map (ids hashFunc)).eraseDups := by
  induction reqs using reverseRecOn with
  | nil => rfl
  | append_singleton reqs req ih =>
    have hstep : registrations hashFunc Clusters.start (reqs ++ [req]) =
        (registrations hashFunc Clusters.start reqs).handleCmdRegister hashFunc req := by
      rw [registrations, foldl_append]
      rfl
    rw [hstep, ids_handleCmdRegister, ih, map_append, map_singleton, eraseDups_append]
    have hkey : (hashFunc req.mapInfo, hashFunc req.dsIpaddr) = req.ids hashFunc := rfl
    rw [hkey]
    by_cases hmem : req.ids hashFunc ∈ reqs.map (ids hashFunc)
    · have hold : [req.ids hashFunc].removeAll (reqs.map (ids hashFunc)) = [] := by
        simpa [removeAll] using hmem
      rw [if_pos (mem_eraseDups.2 hmem), hold, eraseDups_nil, append_nil]
    · have hnew : [req.ids hashFunc].removeAll (reqs.map (ids hashFunc)) = [req.ids hashFunc] := by
        simpa [removeAll] using hmem
      rw [if_neg fun h => hmem (mem_eraseDups.1 h), hnew, eraseDups_cons, filter_nil, eraseDups_nil]

/-- The array of the volume `vid` holds the blocks with those of the ids `ids` that are of the volume, in
this order. -/
structure VolumeArray.Represents (dv : VolumeArray) (vid : UInt32) (ids : List (UInt32 × UInt32)) :
    Prop where
  volumeId : dv.volumeId = vid
  count_pos : 1 ≤ dv.blocks.count
  count_le : dv.blocks.count ≤ dv.blocks.slots.length
  filled : dv.blocks.Filled
  distinct : (dv.blocks.view.map DatasevrBlock.blockId).Nodup
  parent : ∀ b ∈ dv.blocks.view, b.parentVolumeId = dv.volumeId
  order : dv.blocks.view.map DatasevrBlock.ids = ids.filter fun k => k.1 = vid
  master : dv.masterBlockIndex = 0

namespace ClusterHeap

variable {s : ClusterHeap} {regs : List DatasevrBlock}

def blocks (s : ClusterHeap) : List DatasevrBlock :=
  s.cluster.linked.flatMap fun v => (s.volume v.volumeId).blocks.view

/-- The block that `cluster_datasevrblock_byid_find` returns. -/
def blockByid (vid bid : UInt32) (s : ClusterHeap) : Option (Option DatasevrBlock) :=
  (s.datasevrblockByidFind vid bid).map fun slot => slot.bind (s.volume vid).blocks.get?

lemma Faithful.toVolume_eq (hs : s.Faithful) {ins : List DatasevrVolume}
    (hregs : s.toCluster.Holds regs ins) {v : DatasevrVolume} (hv : v ∈ s.cluster.linked) :
    (s.volume v.volumeId).toVolume ∈ ins ∧
      (s.volume v.volumeId).toVolume = volumeOf regs v.volumeId := by
  have hins := hregs.linked.perm.subset (toVolume_mem_linked hv)
  have hvolume := hregs.volume _ hins
  have hid : (s.volume v.volumeId).toVolume.volumeId = v.volumeId := hs.volumeId _
  rw [hid] at hvolume
  exact ⟨hins, hvolume⟩

lemma Faithful.represents (hs : s.Faithful) (hregs : s.toCluster.Registered regs) {v : DatasevrVolume}
    (hv : v ∈ s.cluster.linked) :
    (s.volume v.volumeId).Represents v.volumeId (regs.map DatasevrBlock.ids) := by
  have hdistinct := hregs.distinct
  obtain ⟨ins, hregs⟩ := hregs
  obtain ⟨hins, hvolume⟩ := hs.toVolume_eq hregs hv
  have hview : (s.volume v.volumeId).blocks.view =
      regs.filter fun b => b.parentVolumeId = v.volumeId := congrArg DatasevrVolume.blocks hvolume
  have hid := hs.volumeId v.volumeId
  refine ⟨hid, ?_, GrowArray.count_le _, hs.filled _, ?_, fun b hb => ?_, ?_,
    congrArg DatasevrVolume.masterBlockIndex hvolume⟩
  · rw [← (hs.filled _).length_view, hview, Nat.one_le_iff_ne_zero, Ne, length_eq_zero_iff,
      filter_eq_nil_iff]
    intro hnone
    obtain ⟨b, hb, hparent⟩ := (hregs.mem_iff v.volumeId).1 ⟨_, hins, hid⟩
    exact hnone b hb (decide_eq_true hparent)
  · rw [hview]
    exact nodup_map_volumeOf hdistinct (fun _ _ _ _ => id) v.volumeId
  · rw [hview] at hb
    rw [hid]
    exact of_decide_eq_true (mem_filter.1 hb).2
  · rw [hview, List.filter_map]
    rfl

/-- The linked volumes have all registered blocks, and no others. -/
lemma Faithful.mem_blocks_iff (hs : s.Faithful) (hregs : s.toCluster.Registered regs)
    (b : DatasevrBlock) : b ∈ s.blocks ↔ b ∈ regs := by
  obtain ⟨ins, hregs⟩ := hregs
  have hview {v : DatasevrVolume} (hv : v ∈ s.cluster.linked) : (s.volume v.volumeId).blocks.view =
      regs.filter fun b => b.parentVolumeId = v.volumeId :=
    congrArg DatasevrVolume.blocks (hs.toVolume_eq hregs hv).2
  rw [blocks, mem_flatMap]
  constructor
  · rintro ⟨v, hv, hb⟩
    rw [hview hv] at hb
    exact (mem_filter.1 hb).1
  · intro hb
    obtain ⟨w, hw, hid⟩ := (hregs.mem_iff b.parentVolumeId).2 ⟨b, hb, rfl⟩
    have hmem : w ∈ s.toCluster.linked := hregs.linked.perm.symm.subset hw
    rw [toCluster, linked_mapVolumes] at hmem
    obtain ⟨v, hv, rfl⟩ := mem_map.1 hmem
    have hparent : v.volumeId = b.parentVolumeId := (hs.volumeId _).symm.trans hid
    refine ⟨v, hv, ?_⟩
    rw [hview hv]
    exact mem_filter.2 ⟨hb, decide_eq_true hparent.symm⟩

end ClusterHeap

/-- **The volumes after registrations.**  For any requests, with memory for everything and no expansion
of the table while one is handled, the array of each volume holds its blocks in the order in which they
were first registered, the first of them is the master, and a lookup by ids returns the one block with
these ids. -/
theorem volumes_represented (hashFunc : List Byte → UInt32) (ops : List RegisterOp)
    (hops : Along (arrayStep hashFunc)
      (fun s op _ => RegisterOp.Enabled (s.map cluster) op) (some .init) ops) :
    ∃ s, run (arrayStep hashFunc) (some .init) ops = some s ∧
      (∀ v ∈ s.cluster.linked, (s.volume v.volumeId).Represents v.volumeId (firstIds hashFunc ops)) ∧
      ∀ vid bid, ∃ found, s.blockByid vid bid = some found ∧
        (found.isSome ↔ (vid, bid) ∈ firstIds hashFunc ops) ∧
        ∀ b, found = some b ↔ b ∈ s.blocks ∧ b.ids = (vid, bid) := by
  obtain ⟨s, hrun, hs, hregs⟩ := faithful_init.run (t := Clusters.start)
    registered_clusterInit hops
  have hids := ids_registrations hashFunc (ops.filterMap request)
  set regs := (registrations hashFunc Clusters.start (ops.filterMap request)).blocks
  refine ⟨s, hrun, fun v hv => ?_, fun vid bid => ⟨entry DatasevrBlock.ids (vid, bid) regs, ?_, ?_,
    fun b => ?_⟩⟩
  · rw [firstIds, ← hids]
    exact hs.represents hregs hv
  · exact (datasevrblockByidFind_toCluster hs vid bid).symm.trans
      (hregs.datasevrblockByidFind_eq vid bid)
  · rw [firstIds, ← hids, ← not_iff_not, not_isSome_iff_eq_none, entry_eq_none_iff]
  · rw [hs.mem_blocks_iff hregs]
    constructor
    · intro hfound
      have hb := key_of_entry hfound
      exact ⟨(entry_eq_some_iff hregs.distinct hb).1 hfound, hb⟩
    · rintro ⟨hmem, hb⟩
      exact (entry_eq_some_iff hregs.distinct hb).2 hmem

/-- Four servers of a volume are registered, then the table is expanded, and one of them and a fifth one
are registered. -/
def fiveServers : List RegisterOp :=
  [1, 2, 3, 4].map register ++ .expand :: replicate 4 .migrate ++ [2, 5].map register
where
  /-- The server with an address of `n` letters. -/
  register (n : ℕ) : RegisterOp := .register ⟨[65], replicate n 49, 80, 1, 30, 0, 0⟩

/-- The array of the volume has grown, and holds the five blocks. -/
theorem volumes_represented_fiveServers :
    ∃ s, run (arrayStep fun name => UInt32.ofNat name.length) (some .init) fiveServers = some s ∧
      firstIds (fun name => UInt32.ofNat name.length) fiveServers =
        [(1, 1), (1, 2), (1, 3), (1, 4), (1, 5)] ∧
      ∀ v ∈ s.cluster.linked, (s.volume v.volumeId).Represents v.volumeId
        (firstIds (fun name => UInt32.ofNat name.length) fiveServers) := by
  obtain ⟨s, hs, hrepresents, -⟩ :=
    volumes_represented (fun name => UInt32.ofNat name.length) fiveServers (by decide +kernel)
  exact ⟨s, hs, by decide +kernel, hrepresents⟩

end Lfs.Tracker
