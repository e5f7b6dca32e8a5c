/-
The volumes of the tracker with the arrays of their blocks (`ts_datasevr.c`, `__do_insert` in
`ts_cluster_datasevr.c`, `handle_cmd_register` in `ts_service.c`), and what becomes of a registration for
which there is no memory.

The array of a volume grows by `LFS_MAX_BLOCKS_EACH_VOLUME` slots when it is full.  The volumes are kept
beside the table of `Lfs.Tracker.Cluster`: a volume that is linked there stands for the pointer to the
volume with its id.  `__do_insert` fails without memory for a new volume or for a longer array, but
`cluster_datasevrblock_insert` drops its result.
-/
import Lfs.Lib.GrowArray
import Lfs.Tracker.Registry

namespace Lfs.Tracker

open Lfs.Lib Option

/-! ### The functions -/

/-- `LFS_MAX_BLOCKS_EACH_VOLUME`: the slots of a new array, and those by which it grows. -/
def lfsMaxBlocksEachVolume : ℕ := 3

lemma lfsMaxBlocksEachVolume_pos : 0 < lfsMaxBlocksEachVolume := by decide

/-- `datasevr_volume`, with `blocks`, `block_count` and `allocs_size` as an array. -/
structure VolumeArray where
  volumeId : UInt32
  blocks : GrowArray DatasevrBlock
  masterBlockIndex : ℤ
  lastReadBlockIndex : ℤ

/-- Which allocations succeed while a server is registered: in `block_new`, the two in `volume_new`, and
in `__datasevrvolume_resize`. -/
structure RegisterAllocs where
  block : Bool
  volume : Bool
  array : Bool
  growth : Bool
deriving DecidableEq

def RegisterAllocs.all : RegisterAllocs := ⟨true, true, true, true⟩

/-- What `handle_cmd_register` answers. -/
inductive RegisterStatus where
  | success
  | error
  | errorMemory
deriving DecidableEq

namespace VolumeArray

/-- A volume of `volume_new`, with the id that `__do_insert` gives it. -/
def new (vid : UInt32) : VolumeArray := ⟨vid, .empty lfsMaxBlocksEachVolume, -1, 0⟩

lemma count_new_lt (vid : UInt32) : (new vid).blocks.count < (new vid).blocks.slots.length :=
  lfsMaxBlocksEachVolume_pos.trans_eq List.length_replicate.symm

/-- `do_block_find`: the slot of the block. -/
def doBlockFind (dv : VolumeArray) (bid : UInt32) : Option ℕ :=
  dv.blocks.findIdx? fun b => b.blockId == bid

/-- `do_block_insert`, that is `__datasevrvolume_insert`. -/
def doBlockInsert (growth : Bool) (dblk : DatasevrBlock) (dv : VolumeArray) : Option VolumeArray :=
  (dv.blocks.push lfsMaxBlocksEachVolume_pos growth dblk).map fun blocks =>
    { dv with blocks := blocks }

/-- The end of `__do_insert`: the volume, and the slot of the block if it has been inserted. -/
def tryBlockInsert (growth : Bool) (dblk : DatasevrBlock) (dv : VolumeArray) :
    VolumeArray × Option ℕ :=
  match dv.doBlockInsert growth dblk with
  | some dv' => (dv', some dv.blocks.count)
  | none => (dv, none)

/-- The part of `__do_insert` after the volume has been found or made.  The first block of a volume
becomes its master. -/
def doInsert (growth : Bool) (dblk : DatasevrBlock) (dv : VolumeArray) : VolumeArray × Option ℕ :=
  if dv.blocks.count = 0 ∨ dv.masterBlockIndex = -1 then
    { dv with masterBlockIndex := 0 }.tryBlockInsert growth { dblk with type := masterServer }
  else dv.tryBlockInsert growth dblk

/-- The block in the slot `i` is changed in place. -/
def modifySlot (i : ℕ) (f : DatasevrBlock → DatasevrBlock) (dv : VolumeArray) : VolumeArray :=
  { dv with blocks := dv.blocks.modifyAt i f }

end VolumeArray

/-- The table, in which the ids of the volumes count, and the volumes. -/
structure ClusterHeap where
  cluster : DatasevrCluster
  volume : UInt32 → VolumeArray

namespace ClusterHeap

def init : ClusterHeap := ⟨.clusterInit, .new⟩

/-- The volume `vid` becomes `dv`. -/
def setVolume (vid : UInt32) (dv : VolumeArray) (s : ClusterHeap) : ClusterHeap :=
  { s with volume := Function.update s.volume vid dv }

/-- `cluster_datasevrblock_byid_find`: the slot of the block in the volume `vid`. -/
def datasevrblockByidFind (vid bid : UInt32) (s : ClusterHeap) : Option (Option ℕ) :=
  (s.cluster.doClusterFind vid).map fun dv => dv.bind fun _ => (s.volume vid).doBlockFind bid

/-- The part of `__do_insert` after the volume has been found or made. -/
def doInsert (growth : Bool) (dblk : DatasevrBlock) (s : ClusterHeap) : ClusterHeap × Option ℕ :=
  let r := (s.volume dblk.parentVolumeId).doInsert growth dblk
  (s.setVolume dblk.parentVolumeId r.1, r.2)

/-- `cluster_datasevrblock_insert` with `__do_insert`, whose result is dropped.  Besides the table and
the volumes, this returns the slot of the block if it has been inserted. -/
def datasevrblockInsert (alloc : RegisterAllocs) (dblk : DatasevrBlock) (s : ClusterHeap) :
    Option (ClusterHeap × Option ℕ) :=
  (s.cluster.doClusterFind dblk.parentVolumeId).bind fun
    | some _ => some (s.doInsert alloc.growth dblk)
    | none =>
      if alloc.volume ∧ alloc.array then
        (s.cluster.doClusterInsert (volumeWithId dblk.parentVolumeId)).map fun c =>
          ({ s with cluster := c }.setVolume dblk.parentVolumeId (.new dblk.parentVolumeId)).doInsert
            alloc.growth dblk
      else some (s, none)

/-- The block in the slot `i` of the volume `vid` is changed in place. -/
def modifySlot (vid : UInt32) (i : ℕ) (f : DatasevrBlock → DatasevrBlock) (s : ClusterHeap) :
    ClusterHeap :=
  s.setVolume vid ((s.volume vid).modifySlot i f)

/-- `handle_cmd_register`; `none` once an index was out of range.  What is written to the block at the
end is not seen if the block is in no slot. -/
def handleCmdRegister (hashFunc : List Byte → UInt32) (alloc : RegisterAllocs)
    (req : DatasevrRegBodyReq) (s : ClusterHeap) : Option (RegisterStatus × ClusterHeap) :=
  let vid := hashFunc req.mapInfo
  let bid := hashFunc req.dsIpaddr
  (s.datasevrblockByidFind vid bid).bind fun
    | some i => some (.success, s.modifySlot vid i (.register req))
    | none =>
      if alloc.block then
        (s.datasevrblockInsert alloc (.ofRegister vid bid req)).map fun r =>
          (.success, r.2.elim r.1 fun i => r.1.modifySlot vid i (.register req))
      else some (.errorMemory, s)

end ClusterHeap

/-! ### Where a block is found -/

namespace VolumeArray

variable {dv : VolumeArray} {growth : Bool} {dblk : DatasevrBlock}

lemma tryBlockInsert_eq (dv : VolumeArray) (growth : Bool) (dblk : DatasevrBlock) :
    dv.tryBlockInsert growth dblk =
      ((dv.blocks.push lfsMaxBlocksEachVolume_pos growth dblk).elim (dv, none) fun blocks =>
        ({ dv with blocks := blocks }, some dv.blocks.count)) := by
  rw [tryBlockInsert, doBlockInsert]
  cases dv.blocks.push lfsMaxBlocksEachVolume_pos growth dblk <;> rfl

/-- The array after `__do_insert`: the block is added to it, or it is as before.  Being the first one,
and so the master, changes neither the array nor the id of the block. -/
lemma blocks_doInsert (dv : VolumeArray) (growth : Bool) (dblk : DatasevrBlock) :
    ∃ dblk', dblk'.ids = dblk.ids ∧ (dv.doInsert growth dblk).1.blocks =
      (dv.blocks.push lfsMaxBlocksEachVolume_pos growth dblk').getD dv.blocks := by
  have hblocks (dv : VolumeArray) (dblk : DatasevrBlock) : (dv.tryBlockInsert growth dblk).1.blocks =
      (dv.blocks.push lfsMaxBlocksEachVolume_pos growth dblk).getD dv.blocks := by
    rw [tryBlockInsert_eq]
    cases dv.blocks.push lfsMaxBlocksEachVolume_pos growth dblk <;> rfl
  rw [doInsert]
  split_ifs
  · exact ⟨{ dblk with type := masterServer }, rfl, hblocks _ _⟩
  · exact ⟨dblk, rfl, hblocks _ _⟩

/-- A block that is not there is found in the next slot after `__do_insert`, if there is room for it. -/
lemma doBlockFind_doInsert_of_room (hnone : dv.doBlockFind dblk.blockId = none)
    (hroom : dv.blocks.count < dv.blocks.slots.length ∨ growth = true) :
    (dv.doInsert growth dblk).1.doBlockFind dblk.blockId = some dv.blocks.count := by
  obtain ⟨dblk', hids, hblocks⟩ := dv.blocks_doInsert growth dblk
  have hsome : (dv.blocks.push lfsMaxBlocksEachVolume_pos growth dblk').isSome :=
    GrowArray.push_isSome_iff.2 hroom
  obtain ⟨blocks, hpush⟩ := isSome_iff_exists.1 hsome
  have hid : (dblk'.blockId == dblk.blockId) = true := beq_iff_eq.2 (congrArg Prod.snd hids)
  rw [doBlockFind, hblocks, hpush, getD_some]
  exact GrowArray.findIdx?_push hpush hnone hid

/-- A block that is not there is found after `__do_insert` exactly if there is room for it. -/
lemma doBlockFind_doInsert (hnone : dv.doBlockFind dblk.blockId = none) :
    ((dv.doInsert growth dblk).1.doBlockFind dblk.blockId).isSome ↔
      dv.blocks.count < dv.blocks.slots.length ∨ growth = true := by
  constructor
  · intro hfound
    by_contra hfull
    obtain ⟨dblk', -, hblocks⟩ := dv.blocks_doInsert growth dblk
    have hpush : dv.blocks.push lfsMaxBlocksEachVolume_pos growth dblk' = none := by
      rw [← not_isSome_iff_eq_none, GrowArray.push_isSome_iff]
      exact hfull
    rw [doBlockFind, hblocks, hpush, getD_none, ← doBlockFind, hnone] at hfound
    exact absurd hfound (by simp)
  · intro hroom
    rw [doBlockFind_doInsert_of_room hnone hroom]
    rfl

lemma doBlockFind_modifySlot {f : DatasevrBlock → DatasevrBlock} (hf : ∀ b, (f b).blockId = b.blockId)
    (i : ℕ) (bid : UInt32) : (dv.modifySlot i f).doBlockFind bid = dv.doBlockFind bid :=
  GrowArray.findIdx?_modifyAt (fun b => by rw [hf]) i

end VolumeArray

/-! ### What is answered -/

namespace ClusterHeap

def VolumeFound (vid : UInt32) (s : ClusterHeap) : Prop :=
  (s.cluster.doClusterFind vid).join.isSome

/-- The block `bid` of the volume `vid` is found. -/
def BlockFound (vid bid : UInt32) (s : ClusterHeap) : Prop :=
  (s.datasevrblockByidFind vid bid).join.isSome

instance (vid : UInt32) : DecidablePred (VolumeFound vid) := fun _ =>
  inferInstanceAs (Decidable (_ = true))

instance (vid bid : UInt32) : DecidablePred (BlockFound vid bid) := fun _ =>
  inferInstanceAs (Decidable (_ = true))

variable (hashFunc : List Byte → UInt32) (alloc : RegisterAllocs) (req : DatasevrRegBodyReq)

/-- The answer tells what has been done: after success the block is found, and after an error the same
blocks are found as before, and the masters are the same. -/
def RegisterTells (s : ClusterHeap) : Prop :=
  ∃ status s', s.handleCmdRegister hashFunc alloc req = some (status, s') ∧
    (status = .success → s'.BlockFound (hashFunc req.mapInfo) (hashFunc req.dsIpaddr)) ∧
    (status ≠ .success → (∀ vid bid, s'.BlockFound vid bid ↔ s.BlockFound vid bid) ∧
      ∀ vid, (s'.volume vid).masterBlockIndex = (s.volume vid).masterBlockIndex)

/-- The block is known, or there is no memory for it, or it can be inserted: its volume has a free slot
or can get one, or there is none and it can be made and linked. -/
def RegisterRoom (s : ClusterHeap) : Prop :=
  let vid := hashFunc req.mapInfo
  s.BlockFound vid (hashFunc req.dsIpaddr) ∨ alloc.block = false ∨ if s.VolumeFound vid then
      (s.volume vid).blocks.count < (s.volume vid).blocks.slots.length ∨ alloc.growth = true
    else
      (alloc.volume = true ∧ alloc.array = true) ∧ (s.cluster.expanding = true →
        bucket vid s.cluster.hashSize < hashsize (s.cluster.hashSize - 1))

instance : DecidablePred (RegisterRoom hashFunc alloc req) := fun _ =>
  inferInstanceAs (Decidable (_ ∨ _ ∨ ite _ _ _))

variable {hashFunc alloc req} {s : ClusterHeap} {vid bid : UInt32} {ins : List DatasevrVolume}
  {dblk : DatasevrBlock} {growth : Bool}

@[simp] lemma cluster_setVolume (dv : VolumeArray) : (s.setVolume vid dv).cluster = s.cluster := rfl

@[simp] lemma volume_setVolume_self (dv : VolumeArray) : (s.setVolume vid dv).volume vid = dv :=
  Function.update_self ..

lemma volume_setVolume_of_ne {v : UInt32} (hv : v ≠ vid) (dv : VolumeArray) :
    (s.setVolume vid dv).volume v = s.volume v :=
  Function.update_of_ne hv ..

lemma datasevrblockByidFind_eq {dv : Option DatasevrVolume}
    (hfind : s.cluster.doClusterFind vid = some dv) (bid : UInt32) :
    s.datasevrblockByidFind vid bid = some (dv.bind fun _ => (s.volume vid).doBlockFind bid) := by
  rw [datasevrblockByidFind, hfind, map_some]

/-- The end of `handle_cmd_register` does not change what is found. -/
lemma datasevrblockByidFind_modifySlot (v : UInt32) (i : ℕ) (req : DatasevrRegBodyReq)
    (vid bid : UInt32) :
    (s.modifySlot v i (.register req)).datasevrblockByidFind vid bid =
      s.datasevrblockByidFind vid bid := by
  have hfind : ((s.modifySlot v i (.register req)).volume vid).doBlockFind bid =
      (s.volume vid).doBlockFind bid := by
    by_cases hv : vid = v
    · subst hv
      rw [modifySlot, volume_setVolume_self]
      exact VolumeArray.doBlockFind_modifySlot (f := .register req) (fun _ => rfl) i bid
    · rw [modifySlot, volume_setVolume_of_ne hv]
  simp only [datasevrblockByidFind, hfind]
  rfl

/-- A block that is not in its volume is found after `__do_insert` exactly if there is room for it. -/
lemma blockFound_doInsert (hfound : s.VolumeFound dblk.parentVolumeId)
    (hnone : (s.volume dblk.parentVolumeId).doBlockFind dblk.blockId = none) :
    (s.doInsert growth dblk).1.BlockFound dblk.parentVolumeId dblk.blockId ↔
      (s.volume dblk.parentVolumeId).blocks.count <
        (s.volume dblk.parentVolumeId).blocks.slots.length ∨ growth = true := by
  obtain ⟨dv, hdv⟩ := isSome_iff_exists.1 hfound
  have hfind : (s.doInsert growth dblk).1.cluster.doClusterFind dblk.parentVolumeId = some (some dv) :=
    join_eq_some_iff.1 hdv
  have hvolume : (s.doInsert growth dblk).1.volume dblk.parentVolumeId =
      ((s.volume dblk.parentVolumeId).doInsert growth dblk).1 := volume_setVolume_self _
  rw [BlockFound, datasevrblockByidFind_eq hfind, hvolume]
  exact VolumeArray.doBlockFind_doInsert hnone

lemma datasevrblockInsert_of_found {dv : DatasevrVolume}
    (hfind : s.cluster.doClusterFind dblk.parentVolumeId = some (some dv)) :
    s.datasevrblockInsert alloc dblk = some (s.doInsert alloc.growth dblk) := by
  simp [datasevrblockInsert, hfind]

lemma datasevrblockInsert_of_missing
    (hfind : s.cluster.doClusterFind dblk.parentVolumeId = some none) :
    s.datasevrblockInsert alloc dblk = if alloc.volume ∧ alloc.array then
        (s.cluster.doClusterInsert (volumeWithId dblk.parentVolumeId)).map fun c =>
          ({ s with cluster := c }.setVolume dblk.parentVolumeId (.new dblk.parentVolumeId)).doInsert
            alloc.growth dblk
      else some (s, none) := by
  simp [datasevrblockInsert, hfind]

/-- A block is found after its volume has been made, exactly if the volume can be linked within the
table. -/
lemma blockFound_newVolume (hinv : s.cluster.Inv ins)
    (hnew : ∀ v ∈ ins, v.volumeId ≠ dblk.parentVolumeId) :
    (∃ r, ((s.cluster.doClusterInsert (volumeWithId dblk.parentVolumeId)).map fun c =>
        ({ s with cluster := c }.setVolume dblk.parentVolumeId (.new dblk.parentVolumeId)).doInsert
          growth dblk) = some r ∧ r.1.BlockFound dblk.parentVolumeId dblk.blockId) ↔
      (s.cluster.expanding = true →
        bucket dblk.parentVolumeId s.cluster.hashSize < hashsize (s.cluster.hashSize - 1)) := by
  by_cases hrange : s.cluster.expanding = true →
      bucket dblk.parentVolumeId s.cluster.hashSize < hashsize (s.cluster.hashSize - 1)
  · -- the new volume is found, and has room
    obtain ⟨c, hc, hinv'⟩ : ∃ c, s.cluster.doClusterInsert (volumeWithId dblk.parentVolumeId) =
        some c ∧ c.Inv (volumeWithId dblk.parentVolumeId :: ins) :=
      hinv.doClusterInsert hnew hrange
    refine iff_of_true ⟨_, by rw [hc]; rfl, (blockFound_doInsert ?_ ?_).2 ?_⟩ hrange
    · rw [VolumeFound, cluster_setVolume, hinv'.doClusterFind_eq]
      simp [volumeWithId]
    · rw [volume_setVolume_self]
      rfl
    · rw [volume_setVolume_self]
      exact .inl (VolumeArray.count_new_lt _)
  · -- the volume is linked behind the end of the old table
    refine iff_of_false ?_ hrange
    rw [Classical.not_imp, not_lt] at hrange
    have hlink : s.cluster.doClusterInsert (volumeWithId dblk.parentVolumeId) = none :=
      hinv.doClusterInsert_eq_none hrange.1 hrange.2
    simp [hlink]

/-- **An insertion** of a block that is not found. -/
lemma blockFound_datasevrblockInsert (hinv : s.cluster.Inv ins) (dblk : DatasevrBlock)
    (hnone : ¬ s.BlockFound dblk.parentVolumeId dblk.blockId) :
    (∃ r, s.datasevrblockInsert alloc dblk = some r ∧
        r.1.BlockFound dblk.parentVolumeId dblk.blockId) ↔
      if s.VolumeFound dblk.parentVolumeId then
        (s.volume dblk.parentVolumeId).blocks.count <
          (s.volume dblk.parentVolumeId).blocks.slots.length ∨ alloc.growth = true
      else
        (alloc.volume = true ∧ alloc.array = true) ∧ (s.cluster.expanding = true →
          bucket dblk.parentVolumeId s.cluster.hashSize < hashsize (s.cluster.hashSize - 1)) := by
  have hfind := hinv.doClusterFind_eq dblk.parentVolumeId
  cases hdv : ins.find? (fun v => v.volumeId == dblk.parentVolumeId) with
  | some dv =>
    rw [hdv] at hfind
    have hfound : s.VolumeFound dblk.parentVolumeId := by
      rw [VolumeFound, hfind]
      rfl
    have hslot : (s.volume dblk.parentVolumeId).doBlockFind dblk.blockId = none := by
      rw [BlockFound, datasevrblockByidFind_eq hfind] at hnone
      simpa using hnone
    rw [datasevrblockInsert_of_found hfind, if_pos hfound]
    simp only [Option.some.injEq, exists_eq_left']
    exact blockFound_doInsert hfound hslot
  | none =>
    rw [hdv] at hfind
    have hmissing : ¬ s.VolumeFound dblk.parentVolumeId := by simp [VolumeFound, hfind]
    have hnew : ∀ v ∈ ins, v.volumeId ≠ dblk.parentVolumeId := fun v hv hid =>
      List.find?_eq_none.1 hdv v hv (beq_iff_eq.2 hid)
    rw [datasevrblockInsert_of_missing hfind, if_neg hmissing]
    by_cases halloc : alloc.volume = true ∧ alloc.array = true
    · rw [if_pos halloc, and_iff_right halloc]
      exact blockFound_newVolume hinv hnew
    · rw [if_neg halloc]
      refine iff_of_false ?_ fun h => halloc h.1
      rintro ⟨r, hr, hfound⟩
      obtain rfl := some.inj hr
      exact hnone hfound

/-- **The answer to a registration.**  In every state of the table, whichever allocations succeed, the
answer tells what has been done exactly if the block is known, or there is no memory for it, or it can be
inserted. -/
theorem register_success_iff (hinv : s.cluster.Inv ins) (hashFunc : List Byte → UInt32)
    (alloc : RegisterAllocs) (req : DatasevrRegBodyReq) :
    s.RegisterTells hashFunc alloc req ↔ s.RegisterRoom hashFunc alloc req := by
  have hbyid := datasevrblockByidFind_eq (hinv.doClusterFind_eq (hashFunc req.mapInfo))
    (hashFunc req.dsIpaddr)
  by_cases hknown : s.BlockFound (hashFunc req.mapInfo) (hashFunc req.dsIpaddr)
  · refine iff_of_true ?_ (.inl hknown)
    obtain ⟨i, hi⟩ := isSome_iff_exists.1 hknown
    refine ⟨.success, s.modifySlot (hashFunc req.mapInfo) i (.register req), ?_, fun _ => ?_,
      fun h => absurd rfl h⟩
    · simp [handleCmdRegister, join_eq_some_iff.1 hi]
    · rw [BlockFound, datasevrblockByidFind_modifySlot]
      exact hknown
  have hnone : s.datasevrblockByidFind (hashFunc req.mapInfo) (hashFunc req.dsIpaddr) = some none := by
    rw [BlockFound, hbyid, join_some, not_isSome_iff_eq_none] at hknown
    rw [hbyid, hknown]
  rw [RegisterRoom, or_iff_right hknown]
  by_cases hblock : alloc.block = true
  · set dblk := DatasevrBlock.ofRegister (hashFunc req.mapInfo) (hashFunc req.dsIpaddr) req with hdblk
    have hhandler : s.handleCmdRegister hashFunc alloc req =
        (s.datasevrblockInsert alloc dblk).map fun r =>
          (.success, r.2.elim r.1 fun i => r.1.modifySlot (hashFunc req.mapInfo) i (.register req)) := by
      simp [handleCmdRegister, hnone, hblock, hdblk]
    have hend (r : ClusterHeap × Option ℕ) :
        (r.2.elim r.1 fun i => r.1.modifySlot (hashFunc req.mapInfo) i (.register req)).BlockFound
          (hashFunc req.mapInfo) (hashFunc req.dsIpaddr) ↔
        r.1.BlockFound (hashFunc req.mapInfo) (hashFunc req.dsIpaddr) := by
      cases r.2 with
      | none => exact Iff.rfl
      | some i => rw [elim_some, BlockFound, BlockFound, datasevrblockByidFind_modifySlot]
    rw [or_iff_right (by simp [hblock])]
    refine Iff.trans ?_ (blockFound_datasevrblockInsert hinv dblk hknown)
    constructor
    · rintro ⟨status, s', hs, hsuccess, -⟩
      rw [hhandler, map_eq_some_iff] at hs
      obtain ⟨r, hr, heq⟩ := hs
      obtain ⟨rfl, rfl⟩ := Prod.mk.inj heq
      exact ⟨r, hr, (hend r).1 (hsuccess rfl)⟩
    · rintro ⟨r, hr, hfound⟩
      refine ⟨.success, _, ?_, fun _ => (hend r).2 hfound, fun h => absurd rfl h⟩
      rw [hhandler, hr, map_some]
  · refine iff_of_true ⟨.errorMemory, s, ?_, fun h => absurd h (by simp), fun _ => ?_⟩
      (.inl (by simpa using hblock))
    · simp [handleCmdRegister, hnone, hblock]
    · exact ⟨fun _ _ => Iff.rfl, fun _ => rfl⟩

end ClusterHeap

/-- The request of the server `1` of the volume `A`. -/
def firstRegister : DatasevrRegBodyReq := ⟨[65], [49], 80, 1, 30, 0, 0⟩

/-- With memory for everything the first server is registered. -/
theorem register_success_first : ClusterHeap.init.RegisterTells (fun _ => 0) .all firstRegister :=
  (ClusterHeap.register_success_iff DatasevrCluster.inv_clusterInit _ _ _).2 (by decide)

/-- Without memory for the volume the answer is success, and nothing has been registered. -/
theorem register_noVolume_success :
    ClusterHeap.init.handleCmdRegister (fun _ => 0) ⟨true, false, true, true⟩ firstRegister =
      some (.success, ClusterHeap.init) ∧
    ¬ ClusterHeap.init.BlockFound 0 0 ∧
    ¬ ClusterHeap.init.RegisterTells (fun _ => 0) ⟨true, false, true, true⟩ firstRegister := by
  have hhandler : ClusterHeap.init.handleCmdRegister (fun _ => 0) ⟨true, false, true, true⟩
      firstRegister = some (.success, ClusterHeap.init) := rfl
  have hnone : ¬ ClusterHeap.init.BlockFound 0 0 := by decide
  refine ⟨hhandler, hnone, ?_⟩
  rintro ⟨status, s', hs, hsuccess, -⟩
  rw [hhandler] at hs
  obtain ⟨rfl, rfl⟩ := Prod.mk.inj (some.inj hs)
  exact hnone (hsuccess rfl)

end Lfs.Tracker
