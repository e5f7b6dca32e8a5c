/-
Registration of the dataservers in the table of volumes (`ts_cluster_datasevr.c`, `ts_datasevr.c`).

A dataserver is a block of the volume that its `map_info` names.  `handle_cmd_register` looks the
block up by the hashes of the two names, and inserts it if it is not there; the first block of a
volume makes the volume, and is its master.  The table holds, for each volume, the blocks of the list of
all registered blocks that belong to it.
-/
import Lfs.Tracker.Cluster
import Lfs.Tracker.Requests

namespace Lfs.Tracker

open Lfs.Lib List Option DatasevrVolume

variable {hashFunc : List Byte → UInt32} {t : Clusters} {i : ℕ}

/-! ### The functions -/

namespace DatasevrVolume

def doBlockFind (dv : DatasevrVolume) (bid : UInt32) : Option DatasevrBlock :=
  dv.blocks.find? fun b => b.blockId == bid

/-- `do_block_insert`.  The array grows when it is full. -/
def doBlockInsert (dblk : DatasevrBlock) (dv : DatasevrVolume) : DatasevrVolume :=
  { dv with blocks := dv.blocks ++ [dblk] }

/-- The part of `__do_insert` after the volume has been found or made. -/
def doInsert (dblk : DatasevrBlock) (dv : DatasevrVolume) : DatasevrVolume :=
  if dv.blocks.length = 0 ∨ dv.masterBlockIndex = -1 then
    { dv with masterBlockIndex := 0 }.doBlockInsert { dblk with type := masterServer }
  else dv.doBlockInsert dblk

/-- The block `bid` is changed in place. -/
def modifyBlockId (bid : UInt32) (f : DatasevrBlock → DatasevrBlock) (dv : DatasevrVolume) :
    DatasevrVolume :=
  { dv with blocks := dv.blocks.map fun b => if b.blockId = bid then f b else b }

end DatasevrVolume

namespace DatasevrCluster

/-- The volume `vid` is changed in place. -/
def modifyVolume (vid : UInt32) (f : DatasevrVolume → DatasevrVolume) (c : DatasevrCluster) :
    DatasevrCluster :=
  let g := fun dv => if dv.volumeId = vid then f dv else dv
  { c with
    oldVolumes := c.oldVolumes.map (List.map g)
    primaryVolumes := c.primaryVolumes.map (List.map g) }

/-- `cluster_datasevrblock_insert` with `__do_insert`. -/
def datasevrblockInsert (dblk : DatasevrBlock) (c : DatasevrCluster) : Option DatasevrCluster := do
  let c ← match ← c.doClusterFind dblk.parentVolumeId with
    | some _ => some c
    | none => c.doClusterInsert (volumeWithId dblk.parentVolumeId)
  some (c.modifyVolume dblk.parentVolumeId (.doInsert dblk))

/-- `cluster_datasevrblock_byid_find`. -/
def datasevrblockByidFind (vid bid : UInt32) (c : DatasevrCluster) :
    Option (Option DatasevrBlock) :=
  (c.doClusterFind vid).map fun dv => dv.bind fun dv => dv.doBlockFind bid

/-- `cluster_datasevrmasterblock_get`. -/
def datasevrmasterblockGet (hashFunc : List Byte → UInt32) (mapInfo : List Byte)
    (c : DatasevrCluster) : Option (Option DatasevrBlock) :=
  (c.doClusterFind (hashFunc mapInfo)).map fun dv => dv.bind fun dv =>
    if 0 ≤ dv.masterBlockIndex then dv.blocks[dv.masterBlockIndex.toNat]? else none

def handleCmdRegister (hashFunc : List Byte → UInt32) (req : DatasevrRegBodyReq)
    (c : DatasevrCluster) : Option DatasevrCluster := do
  let vid := hashFunc req.mapInfo
  let bid := hashFunc req.dsIpaddr
  let c ← match ← c.datasevrblockByidFind vid bid with
    | some _ => some c
    | none => c.datasevrblockInsert (.ofRegister vid bid req)
  some (c.modifyVolume vid (.modifyBlockId bid (.register req)))

end DatasevrCluster

/-! ### Every volume is linked once -/

namespace DatasevrCluster

variable {c c' : DatasevrCluster} {ins : List DatasevrVolume} {dv : DatasevrVolume}
  {f : DatasevrVolume → DatasevrVolume} {vid : UInt32}

/-- The two tables together hold each volume once, and the buckets that have been moved are
empty. -/
structure Linked (c : DatasevrCluster) (ins : List DatasevrVolume) : Prop where
  perm : (c.oldVolumes.flatten ++ c.primaryVolumes.flatten).Perm ins
  old_nil : c.expanding = false → c.oldVolumes = []
  old_done : c.expanding = true → ∀ j < c.expandBucket, ∀ v, ¬ c.oldVolumes.Mem j v

lemma linked_clusterInit : Linked clusterInit [] where
  perm := by simp [clusterInit]
  old_nil := fun _ => rfl
  old_done := by simp [clusterInit]

lemma Linked.doClusterInsert (h : Linked c ins) (hexp : c.expanding = false)
    (hc' : c.doClusterInsert dv = some c') : Linked c' (dv :: ins) ∧ c'.expanding = false := by
  obtain ⟨⟨hold, -⟩, -⟩ | ⟨-, t, ht, rfl⟩ := doClusterInsert_cases hc'
  · exact absurd (hexp.symm.trans hold) (by simp)
  refine ⟨⟨?_, h.old_nil, h.old_done⟩, hexp⟩
  have hpush := Buckets.flatten_push_perm ht
  calc (c.oldVolumes.flatten ++ t.flatten).Perm (c.oldVolumes.flatten ++
        dv :: c.primaryVolumes.flatten) := hpush.append_left _
    _ |>.Perm (dv :: (c.oldVolumes.flatten ++ c.primaryVolumes.flatten)) := perm_middle
    _ |>.Perm (dv :: ins) := h.perm.cons dv

lemma Linked.clusterExpand (h : Linked c ins) (hexp : c.expanding = false) :
    Linked (c.clusterExpand true) ins where
  perm := by
    have hperm := h.perm
    rw [h.old_nil hexp, flatten_nil, nil_append] at hperm
    simpa [DatasevrCluster.clusterExpand] using hperm
  old_nil := by simp [DatasevrCluster.clusterExpand]
  old_done := by simp [DatasevrCluster.clusterExpand]

/-- The migration of one bucket.  When it is the last one, nothing is left in the old table. -/
lemma Linked.migrateBucket (h : Linked c ins) (hinv : Inv c ins) (hexp : c.expanding = true)
    (hc' : c.migrateBucket = some c') : Linked c' ins := by
  obtain ⟨moved, primary, hmoved, hprimary, rfl⟩ := migrateBucket_cases hc'
  have hperm : ((c.oldVolumes.set c.expandBucket []).flatten ++ primary.flatten).Perm ins := by
    have hset := Buckets.flatten_set_perm (d := []) hmoved
    rw [nil_append] at hset
    calc ((c.oldVolumes.set c.expandBucket []).flatten ++ primary.flatten).Perm
          ((c.oldVolumes.set c.expandBucket []).flatten ++ (moved ++ c.primaryVolumes.flatten)) :=
          (Buckets.flatten_pushAll_perm hprimary).append_left _
      _ |>.Perm ((moved ++ (c.oldVolumes.set c.expandBucket []).flatten) ++
          c.primaryVolumes.flatten) := by
          rw [append_assoc]
          exact perm_append_comm_assoc ..
      _ |>.Perm (c.oldVolumes.flatten ++ c.primaryVolumes.flatten) := hset.append_right _
      _ |>.Perm ins := h.perm
  have hdone : ∀ j < c.expandBucket + 1, ∀ v,
      ¬ Buckets.Mem (c.oldVolumes.set c.expandBucket []) j v := by
    intro j hj v hv
    obtain ⟨hne, hv⟩ := mem_set_nil.1 hv
    exact h.old_done hexp j (by omega) v hv
  unfold finishBucket
  split_ifs with hlast
  · have hempty : (c.oldVolumes.set c.expandBucket []).flatten = [] := by
      refine eq_nil_iff_forall_not_mem.2 fun v hv => ?_
      obtain ⟨j, hj⟩ := Buckets.mem_flatten.1 hv
      refine hdone j ?_ v hj
      obtain ⟨b, hb, -⟩ := hj
      have hlt := (List.getElem?_eq_some_iff.1 hb).1
      rw [length_set, hinv.old_length hexp] at hlt
      exact hlt.trans_eq hlast.symm
    refine ⟨?_, fun _ => rfl, by simp⟩
    rw [hempty, nil_append] at hperm
    exact hperm
  · exact ⟨hperm, fun hfalse => absurd (hexp.symm.trans hfalse) (by simp), fun _ => hdone⟩

lemma Inv.modifyVolume (h : Inv c ins) (hf : ∀ v, (f v).volumeId = v.volumeId) :
    Inv (c.modifyVolume vid f) (ins.map fun v => if v.volumeId = vid then f v else v) := by
  set g : DatasevrVolume → DatasevrVolume := fun v => if v.volumeId = vid then f v else v with hg
  have hid (v : DatasevrVolume) : (g v).volumeId = v.volumeId := by
    rw [hg]
    dsimp only
    split_ifs
    · exact hf v
    · rfl
  have hmap {t : Buckets DatasevrVolume} {j : ℕ} {v : DatasevrVolume} (hv : t.Mem j v) :
      Buckets.Mem (t.map (List.map g)) j (g v) := Buckets.mem_map.2 ⟨v, hv, rfl⟩
  have hsub {t : Buckets DatasevrVolume} (ht : ∀ j v, t.Mem j v → v ∈ ins) :
      ∀ j v, Buckets.Mem (t.map (List.map g)) j v → v ∈ ins.map g := by
    intro j v hv
    obtain ⟨w, hw, rfl⟩ := Buckets.mem_map.1 hv
    exact mem_map_of_mem (ht j w hw)
  refine ⟨h.hashSize_pos, ?_, fun hexp => ?_, h.expandBucket_lt, hsub h.primary_sub,
    fun hexp => hsub (h.old_sub hexp), fun v hv => ?_, ?_⟩
  · exact (length_map _).trans h.primary_length
  · exact (length_map _).trans (h.old_length hexp)
  · obtain ⟨w, hw, rfl⟩ := List.mem_map.1 hv
    have hhome := h.atHome w hw
    rw [AtHome] at hhome ⊢
    rw [hid w]
    split_ifs at hhome with hold
    · exact (if_pos hold).mpr (hmap hhome)
    · exact (if_neg hold).mpr (hmap hhome)
  · rw [List.map_map]
    have hcomp : volumeId ∘ g = volumeId := funext hid
    rw [hcomp]
    exact h.distinct

lemma Linked.modifyVolume (h : Linked c ins) :
    Linked (c.modifyVolume vid f) (ins.map fun v => if v.volumeId = vid then f v else v) where
  perm := by
    have hperm := h.perm.map fun v => if v.volumeId = vid then f v else v
    rw [map_append, map_flatten, map_flatten] at hperm
    exact hperm
  old_nil := fun hexp => by
    have hnil := h.old_nil hexp
    simp [DatasevrCluster.modifyVolume, hnil]
  old_done := by
    intro hexp j hj v hv
    obtain ⟨w, hw, -⟩ := Buckets.mem_map.1 hv
    exact h.old_done hexp j hj w hw

end DatasevrCluster

/-! ### The table holds the registered blocks -/

/-- The volume and the address by which a block is found. -/
def DatasevrBlock.ids (b : DatasevrBlock) : UInt32 × UInt32 := (b.parentVolumeId, b.blockId)

/-- The volume `vid` when the blocks `regs` have been registered. -/
def volumeOf (regs : List DatasevrBlock) (vid : UInt32) : DatasevrVolume where
  volumeId := vid
  blocks := regs.filter fun b => b.parentVolumeId = vid
  masterBlockIndex := 0
  lastReadBlockIndex := 0

lemma nodup_map_volumeOf {β : Type} {g : DatasevrBlock → β} {regs : List DatasevrBlock}
    (hregs : (regs.map DatasevrBlock.ids).Nodup)
    (hg : ∀ b ∈ regs, ∀ b' ∈ regs, g b = g b' → b.blockId = b'.blockId) (vid : UInt32) :
    ((volumeOf regs vid).blocks.map g).Nodup := by
  have hsub : ((volumeOf regs vid).blocks.map DatasevrBlock.ids).Nodup :=
    hregs.sublist (filter_sublist.map _)
  refine List.Nodup.map_on ?_ hsub.of_map
  intro b hb b' hb' heq
  obtain ⟨hmem, hvid⟩ := mem_filter.1 hb
  obtain ⟨hmem', hvid'⟩ := mem_filter.1 hb'
  refine inj_on_of_nodup_map hsub hb hb' (Prod.ext ?_ (hg b hmem b' hmem' heq))
  exact (of_decide_eq_true hvid).trans (of_decide_eq_true hvid').symm

namespace DatasevrCluster

variable {c c' : DatasevrCluster} {regs : List DatasevrBlock} {ins : List DatasevrVolume}
  {b : DatasevrBlock} {vid bid : UInt32}

/-- The table holds the volumes `ins`, which are those of the blocks `regs`. -/
structure Holds (c : DatasevrCluster) (regs : List DatasevrBlock) (ins : List DatasevrVolume) :
    Prop where
  inv : Inv c ins
  linked : Linked c ins
  volume : ∀ v ∈ ins, v = volumeOf regs v.volumeId
  mem_iff : ∀ vid, (∃ v ∈ ins, v.volumeId = vid) ↔ ∃ b ∈ regs, b.parentVolumeId = vid
  distinct : (regs.map DatasevrBlock.ids).Nodup

/-- The blocks `regs` have been registered, in this order. -/
def Registered (c : DatasevrCluster) (regs : List DatasevrBlock) : Prop := ∃ ins, c.Holds regs ins

lemma registered_clusterInit : clusterInit.Registered [] :=
  ⟨[], inv_clusterInit, linked_clusterInit, by simp, by simp, by simp⟩

/-- **Looking up a volume.**  A volume is found if one of its blocks has been registered, and it has
the blocks that have been. -/
lemma Registered.doClusterFind_eq (h : c.Registered regs) (vid : UInt32) : c.doClusterFind vid =
      some (if ∃ b ∈ regs, b.parentVolumeId = vid then some (volumeOf regs vid) else none) := by
  obtain ⟨ins, h⟩ := h
  rw [h.inv.doClusterFind_eq]
  congr 1
  split_ifs with hvid
  · obtain ⟨v, hv, hid⟩ := (h.mem_iff vid).2 hvid
    cases hfind : ins.find? (fun v => v.volumeId == vid) with
    | none => exact absurd (find?_eq_none.1 hfind v hv) (by simp [hid])
    | some w =>
      have hwid : w.volumeId = vid := by simpa using find?_some hfind
      rw [h.volume w (mem_of_find?_eq_some hfind), hwid]
  · refine find?_eq_none.2 fun v hv hid => hvid ?_
    exact (h.mem_iff vid).1 ⟨v, hv, by simpa using hid⟩

lemma Registered.distinct (h : c.Registered regs) : (regs.map DatasevrBlock.ids).Nodup :=
  h.choose_spec.distinct

lemma Registered.datasevrblockByidFind_eq (h : c.Registered regs) (vid bid : UInt32) :
    c.datasevrblockByidFind vid bid = some (regs.find? fun b => b.ids = (vid, bid)) := by
  rw [datasevrblockByidFind, h.doClusterFind_eq, map_some]
  congr 1
  have hfind : (volumeOf regs vid).doBlockFind bid = regs.find? fun b => b.ids = (vid, bid) := by
    rw [doBlockFind, volumeOf, find?_filter]
    congr 1
    funext b
    rw [Bool.eq_iff_iff]
    simp [DatasevrBlock.ids]
  split_ifs with hvid
  · exact hfind
  · symm
    refine find?_eq_none.2 fun b hb hids => hvid ⟨b, hb, ?_⟩
    exact (Prod.mk.inj (of_decide_eq_true hids)).1

lemma volumeOf_congr {regs' : List DatasevrBlock}
    (h : (volumeOf regs vid).blocks = (volumeOf regs' vid).blocks) :
    volumeOf regs vid = volumeOf regs' vid :=
  congrArg (fun blocks => DatasevrVolume.mk vid blocks 0 0) h

lemma volumeOf_append (hb : b.parentVolumeId = vid) :
    volumeOf (regs ++ [b]) vid = (volumeOf regs vid).doBlockInsert b := by
  simp [volumeOf, doBlockInsert, filter_append, hb]

lemma volumeOf_append_ne (hb : b.parentVolumeId ≠ vid) :
    volumeOf (regs ++ [b]) vid = volumeOf regs vid := by
  simp [volumeOf, filter_append, hb]

lemma volumeId_doInsert (v : DatasevrVolume) : (v.doInsert b).volumeId = v.volumeId := by
  rw [doInsert]
  split_ifs <;> rfl

lemma Holds.doInsert (hinv : Inv c ins) (hlinked : Linked c ins)
    (hother : ∀ v ∈ ins, v.volumeId ≠ b.parentVolumeId → v = volumeOf regs v.volumeId)
    (hown : ∀ v ∈ ins, v.volumeId = b.parentVolumeId →
      v.doInsert b = volumeOf (regs ++ [b]) b.parentVolumeId)
    (hmem : ∀ vid, (∃ v ∈ ins, v.volumeId = vid) ↔ ∃ b' ∈ regs ++ [b], b'.parentVolumeId = vid)
    (hdistinct : ((regs ++ [b]).map DatasevrBlock.ids).Nodup) :
    (c.modifyVolume b.parentVolumeId (.doInsert b)).Registered (regs ++ [b]) := by
  refine ⟨_, hinv.modifyVolume volumeId_doInsert, hlinked.modifyVolume, fun w hw => ?_,
    fun vid => ?_, hdistinct⟩
  · obtain ⟨v, hv, rfl⟩ := List.mem_map.1 hw
    by_cases hid : v.volumeId = b.parentVolumeId
    · simp only [if_pos hid]
      rw [hown v hv hid]
      rfl
    · simp only [if_neg hid]
      rw [volumeOf_append_ne (Ne.symm hid)]
      exact hother v hv hid
  · have hid (v : DatasevrVolume) :
        (if v.volumeId = b.parentVolumeId then v.doInsert b else v).volumeId = v.volumeId := by
      split_ifs
      · exact volumeId_doInsert v
      · rfl
    simp only [List.mem_map, exists_exists_and_eq_and, hid]
    exact hmem vid

/-- **Inserting a block.**  A block whose ids are new is inserted at the end of its volume, which is
made if it is not there. -/
lemma Registered.datasevrblockInsert (h : c.Registered regs) (hexp : c.expanding = false)
    (hnew : ∀ b' ∈ regs, b'.ids ≠ b.ids) (htype : b.type = masterServer) :
    ∃ c', c.datasevrblockInsert b = some c' ∧ c'.Registered (regs ++ [b]) ∧
      c'.expanding = false := by
  have hfind := h.doClusterFind_eq b.parentVolumeId
  obtain ⟨ins, h⟩ := h
  have hdistinct : ((regs ++ [b]).map DatasevrBlock.ids).Nodup := by
    rw [map_append, map_singleton, ← concat_eq_append, nodup_concat]
    refine ⟨fun hmem => ?_, h.distinct⟩
    obtain ⟨b', hb', hids⟩ := List.mem_map.1 hmem
    exact hnew b' hb' hids
  have hsplit (vid : UInt32) : (∃ b' ∈ regs ++ [b], b'.parentVolumeId = vid) ↔
      (∃ b' ∈ regs, b'.parentVolumeId = vid) ∨ b.parentVolumeId = vid := by
    simp [or_and_right, exists_or]
  split_ifs at hfind with hvid
  · -- the volume is there, with at least one block
    refine ⟨c.modifyVolume b.parentVolumeId (.doInsert b), ?_, Holds.doInsert h.inv h.linked
      (fun v hv _ => h.volume v hv) (fun v hv hid => ?_) (fun vid => ?_) hdistinct, hexp⟩
    · simp [DatasevrCluster.datasevrblockInsert, hfind]
    · obtain ⟨b', hb', hb'id⟩ := hvid
      have hne : (volumeOf regs b.parentVolumeId).blocks ≠ [] :=
        ne_nil_of_mem (a := b') (mem_filter.2 ⟨hb', decide_eq_true hb'id⟩)
      rw [h.volume v hv, hid, volumeOf_append rfl, doInsert, if_neg]
      rintro (hzero | hmaster)
      · exact hne (length_eq_zero_iff.1 hzero)
      · exact absurd hmaster (by simp [volumeOf])
    · rw [h.mem_iff, hsplit]
      refine ⟨.inl, fun hor => hor.elim id ?_⟩
      rintro rfl
      exact hvid
  · -- there is no such volume yet
    have hnone (v : DatasevrVolume) (hv : v ∈ ins) : v.volumeId ≠ b.parentVolumeId := fun hid =>
      hvid ((h.mem_iff _).1 ⟨v, hv, hid⟩)
    obtain ⟨c₁, hc₁, hinv₁⟩ : ∃ c', c.doClusterInsert (volumeWithId b.parentVolumeId) = some c' ∧
        Inv c' (volumeWithId b.parentVolumeId :: ins) :=
      h.inv.doClusterInsert hnone (by simp [hexp])
    obtain ⟨hlinked₁, hexp₁⟩ := h.linked.doClusterInsert hexp hc₁
    refine ⟨c₁.modifyVolume b.parentVolumeId (.doInsert b), ?_, Holds.doInsert hinv₁ hlinked₁
      (fun v hv hid => ?_) (fun v hv hid => ?_) (fun vid => ?_) hdistinct, hexp₁⟩
    · simp [DatasevrCluster.datasevrblockInsert, hfind, hc₁]
    · rcases mem_cons.1 hv with rfl | hv
      · exact absurd rfl hid
      · exact h.volume v hv
    · rcases mem_cons.1 hv with rfl | hv
      · have hblocks : regs.filter (fun b' => b'.parentVolumeId = b.parentVolumeId) = [] :=
          filter_eq_nil_iff.2 fun b' hb' hid => hvid ⟨b', hb', of_decide_eq_true hid⟩
        rw [volumeOf_append rfl, volumeOf, hblocks, doInsert, if_pos (.inl rfl), ← htype]
        rfl
      · exact absurd hid (hnone v hv)
    · rw [exists_mem_cons_iff, h.mem_iff, hsplit, or_comm]
      rfl

lemma Registered.modifyBlockId {f : DatasevrBlock → DatasevrBlock} (h : c.Registered regs)
    (hf : ∀ b, (f b).ids = b.ids) (vid bid : UInt32) :
    (c.modifyVolume vid (.modifyBlockId bid f)).Registered
      (regs.map fun b => if b.ids = (vid, bid) then f b else b) := by
  obtain ⟨ins, h⟩ := h
  set g : DatasevrBlock → DatasevrBlock := fun b => if b.ids = (vid, bid) then f b else b with hg
  have hgids (b : DatasevrBlock) : (g b).ids = b.ids := by
    rw [hg]
    dsimp only
    split_ifs
    · exact hf b
    · rfl
  have hgvid (b : DatasevrBlock) : (g b).parentVolumeId = b.parentVolumeId :=
    congrArg Prod.fst (hgids b)
  have hblocks (vid' : UInt32) : (volumeOf (regs.map g) vid').blocks =
      (volumeOf regs vid').blocks.map g := by
    simp only [volumeOf, List.filter_map]
    congr 1
    refine filter_congr fun b _ => ?_
    simp [hgvid]
  refine ⟨_, h.inv.modifyVolume fun _ => rfl, h.linked.modifyVolume, fun w hw => ?_, fun vid' => ?_,
    ?_⟩
  · obtain ⟨v, hv, rfl⟩ := List.mem_map.1 hw
    by_cases hid : v.volumeId = vid
    · simp only [if_pos hid]
      rw [h.volume v hv, hid]
      -- in this volume the block is found by its address alone
      have hmap : (volumeOf regs vid).blocks.map g =
          (volumeOf regs vid).blocks.map fun b => if b.blockId = bid then f b else b := by
        refine map_congr_left fun b hb => ?_
        have hbvid : b.parentVolumeId = vid := of_decide_eq_true (mem_filter.1 hb).2
        simp [hg, DatasevrBlock.ids, hbvid]
      rw [DatasevrVolume.modifyBlockId, ← hmap, ← hblocks]
      rfl
    · simp only [if_neg hid]
      have hmap : (volumeOf regs v.volumeId).blocks.map g = (volumeOf regs v.volumeId).blocks := by
        refine (map_congr_left fun b hb => if_neg fun hids => hid ?_).trans (map_id _)
        have hbvid : b.parentVolumeId = v.volumeId := of_decide_eq_true (mem_filter.1 hb).2
        exact hbvid.symm.trans (Prod.mk.inj hids).1
      exact (h.volume v hv).trans (volumeOf_congr (hmap.symm.trans (hblocks _).symm))
  · have hid (v : DatasevrVolume) :
        (if v.volumeId = vid then v.modifyBlockId bid f else v).volumeId = v.volumeId := by
      split_ifs <;> rfl
    simp only [List.mem_map, exists_exists_and_eq_and, hid, hgvid]
    exact h.mem_iff vid'
  · rw [List.map_map]
    have hcomp : DatasevrBlock.ids ∘ g = DatasevrBlock.ids := funext hgids
    rw [hcomp]
    exact h.distinct

/-- Changing the only value that satisfies a predicate, by its index or by the predicate. -/
lemma modify_eq_map {α : Type} {l : List α} {p : α → Bool} {f : α → α}
    (hfind : l.findIdx? p = some i) (hp : l.Pairwise fun a b => ¬ (p a ∧ p b)) :
    l.modify i f = l.map fun a => if p a then f a else a := by
  induction l generalizing i with
  | nil => simp at hfind
  | cons a l ih =>
    obtain ⟨ha, hl⟩ := pairwise_cons.1 hp
    rw [findIdx?_cons] at hfind
    by_cases hpa : p a = true
    · rw [if_pos hpa] at hfind
      obtain rfl := some.inj hfind
      have hrest : l.map (fun a => if p a then f a else a) = l := by
        refine (map_congr_left fun b hb => if_neg fun hpb => ?_).trans (map_id l)
        exact ha b hb ⟨hpa, hpb⟩
      rw [modify_zero_cons, map_cons, if_pos hpa, hrest]
    · rw [if_neg hpa, map_eq_some_iff] at hfind
      obtain ⟨j, hj, rfl⟩ := hfind
      rw [modify_succ_cons, map_cons, if_neg hpa, ih hj hl]

lemma datasevrblockByidFind_eq_findIdx? (t : Clusters) (vid bid : UInt32) :
    t.datasevrblockByidFind vid bid = t.blocks.findIdx? fun b => b.ids = (vid, bid) := by
  rw [Clusters.datasevrblockByidFind]
  congr 1
  funext b
  simp [DatasevrBlock.ids]

lemma datasevrblockFind_isSome_iff {mapInfo dsIpaddr : List Byte} :
    (t.datasevrblockFind hashFunc mapInfo dsIpaddr).isSome ↔
      (hashFunc mapInfo, hashFunc dsIpaddr) ∈ t.blocks.map DatasevrBlock.ids := by
  rw [Clusters.datasevrblockFind, datasevrblockByidFind_eq_findIdx?, findIdx?_isSome,
    List.any_eq_true, List.mem_map]
  simp

/-- A registration adds the ids of its server at the end, unless they are there. -/
lemma ids_handleCmdRegister (t : Clusters) (hashFunc : List Byte → UInt32)
    (req : DatasevrRegBodyReq) :
    (t.handleCmdRegister hashFunc req).blocks.map DatasevrBlock.ids =
      if (hashFunc req.mapInfo, hashFunc req.dsIpaddr) ∈ t.blocks.map DatasevrBlock.ids then
        t.blocks.map DatasevrBlock.ids
      else t.blocks.map DatasevrBlock.ids ++ [(hashFunc req.mapInfo, hashFunc req.dsIpaddr)] := by
  rw [Clusters.handleCmdRegister]
  cases hfind : t.datasevrblockFind hashFunc req.mapInfo req.dsIpaddr with
  | some i =>
    have hmem := datasevrblockFind_isSome_iff.1 (isSome_of_mem hfind)
    rw [Clusters.map_modifyBlock (f := .register req) _ fun _ => rfl, if_pos hmem]
  | none =>
    have hnot : (hashFunc req.mapInfo, hashFunc req.dsIpaddr) ∉ t.blocks.map DatasevrBlock.ids := by
      rw [← datasevrblockFind_isSome_iff, hfind]
      simp
    rw [if_neg hnot, map_append]
    rfl

lemma mem_ids_handleCmdRegister {ids : UInt32 × UInt32} {req : DatasevrRegBodyReq} :
    ids ∈ (t.handleCmdRegister hashFunc req).blocks.map DatasevrBlock.ids ↔
      ids ∈ t.blocks.map DatasevrBlock.ids ∨
        ids = (hashFunc req.mapInfo, hashFunc req.dsIpaddr) := by
  rw [ids_handleCmdRegister]
  split_ifs with hmem
  · refine ⟨.inl, fun hor => hor.elim id ?_⟩
    rintro rfl
    exact hmem
  · rw [mem_append, mem_singleton]

lemma find?_ids_isSome (hidx : t.datasevrblockByidFind vid bid = some i) :
    (t.blocks.find? fun b => b.ids = (vid, bid)).isSome := by
  rw [datasevrblockByidFind_eq_findIdx?] at hidx
  obtain ⟨hi, hp, -⟩ := findIdx?_eq_some_iff_getElem.1 hidx
  exact find?_isSome.2 ⟨_, getElem_mem hi, hp⟩

lemma Registered.modifyBlock {f : DatasevrBlock → DatasevrBlock}
    (h : c.Registered t.blocks) (hf : ∀ b, (f b).ids = b.ids)
    (hidx : t.datasevrblockByidFind vid bid = some i) :
    (c.modifyVolume vid (.modifyBlockId bid f)).Registered (t.modifyBlock i f).blocks := by
  rw [datasevrblockByidFind_eq_findIdx?] at hidx
  have hpair : t.blocks.Pairwise fun b b' =>
      ¬ (decide (b.ids = (vid, bid)) ∧ decide (b'.ids = (vid, bid))) := by
    refine (pairwise_map.1 h.distinct).imp fun {b b'} hne => ?_
    rintro ⟨hb, hb'⟩
    exact hne ((of_decide_eq_true hb).trans (of_decide_eq_true hb').symm)
  have hmodify := modify_eq_map (f := f) hidx hpair
  simp only [decide_eq_true_eq] at hmodify
  rw [Clusters.modifyBlock, hmodify]
  exact h.modifyBlockId hf vid bid

/-- **Registration.**  `handle_cmd_register` does to the table what it does to the list of the
registered blocks. -/
lemma Registered.handleCmdRegister (h : c.Registered t.blocks)
    (hexp : c.expanding = false) (hashFunc : List Byte → UInt32) (req : DatasevrRegBodyReq) :
    ∃ c', c.handleCmdRegister hashFunc req = some c' ∧
      c'.Registered (t.handleCmdRegister hashFunc req).blocks ∧ c'.expanding = false := by
  set vid := hashFunc req.mapInfo with hvid
  set bid := hashFunc req.dsIpaddr with hbid
  have hfind := h.datasevrblockByidFind_eq vid bid
  rw [DatasevrCluster.handleCmdRegister, Clusters.handleCmdRegister, Clusters.datasevrblockFind,
    ← hvid, ← hbid]
  cases hidx : t.datasevrblockByidFind vid bid with
  | some i =>
    -- the block is there
    obtain ⟨b, hb⟩ := isSome_iff_exists.1 (find?_ids_isSome hidx)
    refine ⟨c.modifyVolume vid (.modifyBlockId bid (.register req)), ?_, ?_, hexp⟩
    · simp [hfind, hb]
    · exact h.modifyBlock (f := .register req) (fun _ => rfl) hidx
  | none =>
    rw [datasevrblockByidFind_eq_findIdx?] at hidx
    have hnot : ∀ b ∈ t.blocks, b.ids ≠ (vid, bid) := fun b hb hids => by
      have hfalse := findIdx?_eq_none_iff.1 hidx b hb
      rw [hids] at hfalse
      simp at hfalse
    have hnone : t.blocks.find? (fun b => b.ids = (vid, bid)) = none :=
      find?_eq_none.2 fun b hb hids => hnot b hb (of_decide_eq_true hids)
    obtain ⟨c₁, hc₁, hreg, hexp₁⟩ :=
      h.datasevrblockInsert (b := .ofRegister vid bid req) hexp hnot rfl
    refine ⟨c₁.modifyVolume vid (.modifyBlockId bid (.register req)), ?_, ?_, hexp₁⟩
    · simp [hfind, hnone, hc₁]
    · have hmodify := hreg.modifyBlockId (f := .register req) (fun _ => rfl) vid bid
      have hold : t.blocks.map (fun b => if b.ids = (vid, bid) then b.register req else b) =
          t.blocks :=
        (map_congr_left fun b hb => if_neg (hnot b hb)).trans (map_id _)
      have hids : (DatasevrBlock.ofRegister vid bid req).ids = (vid, bid) := rfl
      rw [map_append, hold, map_singleton, if_pos hids] at hmodify
      exact hmodify

lemma Registered.clusterExpand (h : c.Registered regs) (hexp : c.expanding = false) :
    (c.clusterExpand true).Registered regs := by
  obtain ⟨ins, h⟩ := h
  exact ⟨ins, h.inv.clusterExpand hexp, h.linked.clusterExpand hexp, h.volume, h.mem_iff, h.distinct⟩

lemma Registered.migrateBucket (h : c.Registered regs) (hexp : c.expanding = true) :
    ∃ c', c.migrateBucket = some c' ∧ c'.Registered regs := by
  obtain ⟨ins, h⟩ := h
  obtain ⟨c', hc', hinv'⟩ := h.inv.migrateBucket hexp
  exact ⟨c', hc', ins, hinv', h.linked.migrateBucket h.inv hexp hc', h.volume, h.mem_iff, h.distinct⟩

end DatasevrCluster

/-! ### Runs of registrations -/

/-- What happens to the table: servers are registered, and between registrations the table is
expanded. -/
inductive RegisterOp where
  | register (req : DatasevrRegBodyReq)
  | expand
  | migrate
deriving DecidableEq

namespace RegisterOp

/-- One step; `none` once an index was out of range. -/
def step (hashFunc : List Byte → UInt32) (c : Option DatasevrCluster) :
    RegisterOp → Option DatasevrCluster
  | .register req => c.bind (DatasevrCluster.handleCmdRegister hashFunc req)
  | .expand => c.map (DatasevrCluster.clusterExpand true)
  | .migrate => c.bind DatasevrCluster.migrateBucket

/-- A server is registered, or an expansion begins, while no expansion is going on. -/
def Enabled (s : Option DatasevrCluster) : RegisterOp → Prop
  | .register _ | .expand => ∀ c ∈ s, c.expanding = false
  | .migrate => ∀ c ∈ s, c.expanding = true

instance (s : Option DatasevrCluster) : DecidablePred (Enabled s)
  | .register _ | .expand => inferInstanceAs (Decidable (∀ c ∈ s, c.expanding = false))
  | .migrate => inferInstanceAs (Decidable (∀ c ∈ s, c.expanding = true))

def request : RegisterOp → Option DatasevrRegBodyReq
  | .register req => some req
  | _ => none

end RegisterOp

def registrations (hashFunc : List Byte → UInt32) (t : Clusters) (reqs : List DatasevrRegBodyReq) :
    Clusters := reqs.foldl (fun t req => t.handleCmdRegister hashFunc req) t

/-- **One step** stays in range, and does to the table what a registration does to the list. -/
lemma DatasevrCluster.Registered.step {c : DatasevrCluster}
    (h : c.Registered t.blocks) {op : RegisterOp} (hop : RegisterOp.Enabled (some c) op) :
    ∃ c', RegisterOp.step hashFunc (some c) op = some c' ∧
      c'.Registered (registrations hashFunc t op.request.toList).blocks := by
  cases op with
  | register req =>
    obtain ⟨c', hc', hreg, -⟩ := h.handleCmdRegister (hop c rfl) hashFunc req
    exact ⟨c', hc', hreg⟩
  | expand => exact ⟨_, rfl, h.clusterExpand (hop c rfl)⟩
  | migrate => exact h.migrateBucket (hop c rfl)

lemma registrations_cons (t : Clusters) (op : RegisterOp) (ops : List RegisterOp) :
    registrations hashFunc t ((op :: ops).filterMap RegisterOp.request) =
      registrations hashFunc (registrations hashFunc t op.request.toList)
        (ops.filterMap RegisterOp.request) := by
  cases op <;> rfl

/-- **A run of registrations** stays in range, and leaves the blocks of the registrations in the
table. -/
lemma DatasevrCluster.Registered.run {c : DatasevrCluster}
    (h : c.Registered t.blocks) (ops : List RegisterOp)
    (hops : Along (RegisterOp.step hashFunc) (fun c op _ => RegisterOp.Enabled c op) (some c) ops) :
    ∃ c', Lib.run (RegisterOp.step hashFunc) (some c) ops = some c' ∧
      c'.Registered (registrations hashFunc t (ops.filterMap RegisterOp.request)).blocks := by
  induction ops generalizing c t with
  | nil => exact ⟨c, rfl, h⟩
  | cons op ops ih =>
    obtain ⟨henabled, hops⟩ := hops
    obtain ⟨c₁, hc₁, hreg₁⟩ := h.step henabled
    rw [hc₁] at hops
    rw [run_cons, hc₁, registrations_cons]
    exact ih hreg₁ hops

end Lfs.Tracker
