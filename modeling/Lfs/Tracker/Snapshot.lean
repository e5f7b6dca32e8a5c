/-
The snapshot of the table of volumes (`__snapshot_flush` in `ts_snapshot.c`).

The flush goes through the buckets of the table and writes one line for each block to a temporary
file, which then replaces the old snapshot unless a write has failed.  It takes the lock of a bucket
with `cluster_trylock`, and if it does not get the lock it goes on with the next bucket.

While a flush runs the other threads go on: the buckets are those of the table at the time at which
each of them is reached.  No expansion starts, since the snapshot thread holds `snapshot_lock`.
-/
import Lfs.Base.Text
import Lfs.Tracker.Registry

namespace Lfs.Tracker

open Lfs.Lib List Option

/-! ### The flush -/

def snapshotColumns (b : DatasevrBlock) : List (List Byte) :=
  [decimal b.parentVolumeId.toNat, decimal b.blockId.toNat, b.mapInfo, b.ipAddr, decimalInt b.type,
    decimalInt b.port, decimalInt b.weight, decimalInt b.heartBeatInterval, decimalInt b.regTime,
    decimalInt b.startedTime, decimalInt b.lastSyncSequence]

/-- The line that `sprintf` makes for a block. -/
def snapshotLine (b : DatasevrBlock) : List Byte :=
  intercalate [batDataSeperator] (snapshotColumns b) ++ [newline]

/-- The temporary file, as the lines that have been written, whether `ret` is still `LFS_OK`, and the
number of writes. -/
structure FlushState where
  file : List (List Byte)
  ret : Bool
  writes : ℕ
deriving DecidableEq

/-- The loop over the blocks of a volume.  The write `k` takes the whole line if `written k` is
`none`, and otherwise so many bytes of it; then the loop is left. -/
def flushBlocks (written : ℕ → Option ℕ) : List DatasevrBlock → FlushState → FlushState
  | [], s => s
  | b :: blks, s =>
    match written s.writes with
    | none =>
      flushBlocks written blks
        { s with file := s.file ++ [snapshotLine b], writes := s.writes + 1 }
    | some m =>
      { file := s.file ++ [(snapshotLine b).take m], ret := false, writes := s.writes + 1 }

/-- The table is one that the operations of the tracker make: its blocks know their volume, and no
block is twice in a volume. -/
def DatasevrCluster.Valid (c : DatasevrCluster) : Prop :=
  ∃ ins, c.Inv ins ∧ c.Linked ins ∧ ∀ v ∈ ins,
    (∀ b ∈ v.blocks, b.parentVolumeId = v.volumeId) ∧ (v.blocks.map DatasevrBlock.blockId).Nodup

/-- What the flush meets: the table at the time at which the bucket `i` is reached, whether its lock
is obtained, and the results of the system calls. -/
structure FlushEnv where
  hashSize : ℕ
  cluster : ℕ → DatasevrCluster
  trylock : ℕ → Bool
  opened : Bool
  written : ℕ → Option ℕ
  fsync : Bool
  renamed : Bool

namespace FlushEnv

/-- The bucket `i` as the flush finds it. -/
def volumes (r : FlushEnv) (i : ℕ) : List DatasevrVolume := (r.cluster i).primaryVolumes.getD i []

/-- The bucket `i` in the loop of `__snapshot_flush`. -/
def flushBucket (r : FlushEnv) (s : FlushState) (i : ℕ) : FlushState :=
  if r.trylock i then (r.volumes i).foldl (fun s it => flushBlocks r.written it.blocks s) s else s

/-- `__snapshot_flush`: the lines of the snapshot if the temporary file has replaced it. -/
def snapshotFlush (r : FlushEnv) : Option (List (List Byte)) :=
  if r.opened then
    let s := (range (hashsize r.hashSize)).foldl r.flushBucket ⟨[], true, 0⟩
    if s.ret && r.fsync && r.renamed then some s.file else none
  else none

end FlushEnv

/-- A flush of the tracker: the tables are valid, and no expansion is going on. -/
structure FlushRun extends FlushEnv where
  valid : ∀ i, (cluster i).Valid
  hashSize_eq : ∀ i, (cluster i).hashSize = hashSize
  not_expanding : ∀ i, (cluster i).expanding = false

/-! ### What is written -/

/-- The step `f` adds the lines `ls` to the file, unless one of the writes fails. -/
structure Writes (written : ℕ → Option ℕ) (f : FlushState → FlushState) (ls : List (List Byte)) :
    Prop where
  ret_iff : ∀ s, (f s).ret = true ↔ s.ret = true ∧ ∀ k ∈ range' s.writes ls.length, written k = none
  eq_of_ret : ∀ s, (f s).ret = true → f s = ⟨s.file ++ ls, true, s.writes + ls.length⟩

lemma writes_nil {written : ℕ → Option ℕ} : Writes written id [] :=
  ⟨fun s => by simp, fun s (h : s.ret = true) => by simp [← h]⟩

lemma Writes.foldl {written : ℕ → Option ℕ} {α : Type} {f : FlushState → α → FlushState}
    {g : α → List (List Byte)} (h : ∀ a, Writes written (fun s => f s a) (g a)) (l : List α) :
    Writes written (fun s => l.foldl f s) (l.flatMap g) := by
  induction l with
  | nil => exact writes_nil
  | cons a l ih =>
    refine ⟨fun s => ?_, fun s hret => ?_⟩
    · rw [flatMap_cons, length_append, ← range'_append_1, forall_mem_append, ← and_assoc, ← (h a).ret_iff]
      refine (ih.ret_iff (f s a)).trans (and_congr_right fun hret => ?_)
      rw [(h a).eq_of_ret s hret]
    · rw [foldl_cons, ih.eq_of_ret _ hret, (h a).eq_of_ret s ((ih.ret_iff _).1 hret).1]
      simp [Nat.add_assoc]

lemma writes_flushBlocks (written : ℕ → Option ℕ) (blks : List DatasevrBlock) :
    Writes written (flushBlocks written blks) (blks.map snapshotLine) := by
  induction blks with
  | nil => exact writes_nil
  | cons b blks ih =>
    refine ⟨fun s => ?_, fun s hret => ?_⟩
    · rw [flushBlocks, map_cons, length_cons, range'_succ, forall_mem_cons]
      cases hw : written s.writes with
      | none => simp [ih.ret_iff]
      | some m => simp
    · rw [flushBlocks] at hret ⊢
      cases hw : written s.writes with
      | none =>
        simp only [hw] at hret ⊢
        simp [ih.eq_of_ret _ hret]
        omega
      | some m => simp [hw] at hret

namespace FlushEnv

/-- The blocks that the flush reaches. -/
def blocks (r : FlushEnv) : List DatasevrBlock :=
  ((range (hashsize r.hashSize)).filter r.trylock).flatMap fun i =>
    (r.volumes i).flatMap DatasevrVolume.blocks

/-- The file is opened, and no write, no `fsync` and no `rename` fails. -/
def Succeeds (r : FlushEnv) : Prop :=
  r.opened = true ∧ (∀ k < r.blocks.length, r.written k = none) ∧ r.fsync = true ∧ r.renamed = true

/-- A snapshot has the lines of the blocks that the flush has reached. -/
lemma snapshotFlush_eq_some_iff {r : FlushEnv} {file : List (List Byte)} :
    r.snapshotFlush = some file ↔ r.Succeeds ∧ r.blocks.map snapshotLine = file := by
  have hbucket (i : ℕ) : Writes r.written (fun s => r.flushBucket s i)
      (if r.trylock i then ((r.volumes i).flatMap DatasevrVolume.blocks).map snapshotLine else []) := by
    unfold flushBucket
    split_ifs
    · rw [map_flatMap]
      exact Writes.foldl (fun it => writes_flushBlocks r.written it.blocks) (r.volumes i)
    · exact writes_nil
  have hlines : ((range (hashsize r.hashSize)).flatMap fun i => if r.trylock i then
      ((r.volumes i).flatMap DatasevrVolume.blocks).map snapshotLine else []) =
        r.blocks.map snapshotLine := by
    rw [blocks, map_flatMap]
    induction range (hashsize r.hashSize) with
    | nil => rfl
    | cons i l ih =>
      rw [flatMap_cons, filter_cons, ih]
      split_ifs with hlock
      · rw [flatMap_cons]
      · rfl
  have hall := Writes.foldl hbucket (range (hashsize r.hashSize))
  rw [hlines] at hall
  have hret := hall.ret_iff ⟨[], true, 0⟩
  have hfile := hall.eq_of_ret ⟨[], true, 0⟩
  simp only [length_map, true_and, mem_range'_1, zero_le, zero_add] at hret
  rw [snapshotFlush, ite_none_right_eq_some]
  dsimp only
  rw [ite_none_right_eq_some, Bool.and_eq_true, Bool.and_eq_true, some_inj, Succeeds, ← hret]
  constructor
  · rintro ⟨hopened, ⟨⟨hwritten, hfsync⟩, hrenamed⟩, rfl⟩
    exact ⟨⟨hopened, hwritten, hfsync, hrenamed⟩, by rw [hfile hwritten]; rfl⟩
  · rintro ⟨⟨hopened, hwritten, hfsync, hrenamed⟩, rfl⟩
    exact ⟨hopened, ⟨⟨hwritten, hfsync⟩, hrenamed⟩, by rw [hfile hwritten]; rfl⟩

end FlushEnv

/-! ### The lines of a block -/

def lineHead (ids : UInt32 × UInt32) : List Byte :=
  decimal ids.1.toNat ++ batDataSeperator :: (decimal ids.2.toNat ++ [batDataSeperator])

/-- The line is one of the block `ids`. -/
def isLineOf (ids : UInt32 × UInt32) (l : List Byte) : Bool := (lineHead ids).isPrefixOf l

/-- A line is one of the block for which it was written, and of no other. -/
lemma isLineOf_snapshotLine (ids : UInt32 × UInt32) (b : DatasevrBlock) :
    isLineOf ids (snapshotLine b) = decide (b.ids = ids) := by
  rw [Bool.eq_iff_iff, isLineOf, isPrefixOf_iff_prefix, decide_eq_true_eq]
  obtain ⟨t, ht⟩ : ∃ t, snapshotLine b = decimal b.parentVolumeId.toNat ++
      batDataSeperator :: (decimal b.blockId.toNat ++ batDataSeperator :: t) :=
    ⟨_, by simp [snapshotLine, snapshotColumns, intercalate_cons_cons]; rfl⟩
  rw [ht, lineHead, append_cons_prefixOf_iff (separator_notMem_decimal _)
      (separator_notMem_decimal _),
    append_cons_prefixOf_iff (separator_notMem_decimal _) (separator_notMem_decimal _),
    DatasevrBlock.ids, Prod.ext_iff, decimal_injective.eq_iff, decimal_injective.eq_iff,
    UInt32.toNat_inj, UInt32.toNat_inj, eq_comm, and_iff_left nil_prefix, eq_comm (a := ids.2)]

namespace DatasevrCluster

variable {c : DatasevrCluster} {i : ℕ} {ids : UInt32 × UInt32}

/-- The block `ids` is in the cluster. -/
def HasBlock (c : DatasevrCluster) (ids : UInt32 × UInt32) : Prop :=
  ∃ v, c.doClusterFind ids.1 = some (some v) ∧ ∃ b ∈ v.blocks, b.blockId = ids.2

def bucketIds (c : DatasevrCluster) (i : ℕ) : List (UInt32 × UInt32) :=
  ((c.primaryVolumes.getD i []).flatMap DatasevrVolume.blocks).map DatasevrBlock.ids

lemma mem_getD_iff {v : DatasevrVolume} :
    v ∈ c.primaryVolumes.getD i [] ↔ c.primaryVolumes.Mem i v := by
  rw [getD_eq_getElem?_getD, Buckets.Mem]
  cases c.primaryVolumes[i]? with
  | none | some b => simp

lemma Linked.nodup {ins : List DatasevrVolume} (hlinked : c.Linked ins) (h : c.Inv ins)
    (hexp : c.expanding = false) : c.primaryVolumes.flatten.Nodup := by
  have hperm := hlinked.perm
  rw [hlinked.old_nil hexp, flatten_nil, nil_append] at hperm
  exact hperm.nodup_iff.2 (List.Nodup.of_map _ h.distinct)

/-- A bucket has each of its blocks once, and the blocks are those of the volumes that belong to the
bucket. -/
lemma Valid.bucketIds_nodup (h : c.Valid) (hexp : c.expanding = false) :
    (c.bucketIds i).Nodup ∧ ∀ ids ∈ c.bucketIds i, bucket ids.1 c.hashSize = i := by
  obtain ⟨ins, hinv, hlinked, hblocks⟩ := h
  have hnodup := hlinked.nodup hinv hexp
  have hins {v : DatasevrVolume} (hv : v ∈ c.primaryVolumes.getD i []) : v ∈ ins :=
    hinv.primary_sub i v (mem_getD_iff.1 hv)
  have hids {v : DatasevrVolume} (hv : v ∈ c.primaryVolumes.getD i []) {b : DatasevrBlock}
      (hb : b ∈ v.blocks) : b.ids.1 = v.volumeId := (hblocks v (hins hv)).1 b hb
  have hbucket : (c.primaryVolumes.getD i []).Nodup := by
    rw [getD_eq_getElem?_getD]
    cases hi : c.primaryVolumes[i]? with
    | none => exact nodup_nil
    | some b => exact (nodup_flatten.1 hnodup).1 b (mem_of_getElem? hi)
  constructor
  · rw [bucketIds, map_flatMap, nodup_flatMap]
    refine ⟨fun v hv => ?_, hbucket.imp_of_mem fun {v w} hv hw hne => ?_⟩
    · have hnd := (hblocks v (hins hv)).2
      refine List.Nodup.of_map Prod.snd ?_
      rw [List.map_map]
      exact hnd
    · -- two volumes have different ids, and so have their blocks
      refine disjoint_left.2 fun ids hidsv hidsw => hne ?_
      obtain ⟨b, hb, rfl⟩ := mem_map.1 hidsv
      obtain ⟨b', hb', heq⟩ := mem_map.1 hidsw
      refine inj_on_of_nodup_map hinv.distinct (hins hv) (hins hw) ?_
      rw [← hids hv hb, ← hids hw hb', heq]
  · intro ids hmem
    obtain ⟨b, hb, rfl⟩ := mem_map.1 hmem
    obtain ⟨v, hv, hbv⟩ := mem_flatMap.1 hb
    have hhome := hinv.atHome v (hins hv)
    rw [AtHome, if_neg (by simp [hexp])] at hhome
    rw [hids hv hbv]
    exact Buckets.mem_unique hnodup hhome (mem_getD_iff.1 hv)

lemma Valid.hasBlock_iff (h : c.Valid) (hexp : c.expanding = false) :
    c.HasBlock ids ↔ ids ∈ c.bucketIds (bucket ids.1 c.hashSize) := by
  obtain ⟨ins, hinv, hlinked, hblocks⟩ := h
  constructor
  · rintro ⟨v, hfind, b, hb, hbid⟩
    rw [hinv.doClusterFind_eq, some_inj] at hfind
    have hv := mem_of_find?_eq_some hfind
    have hvid : v.volumeId = ids.1 := by simpa using find?_some hfind
    have hhome := hinv.atHome v hv
    rw [AtHome, if_neg (by simp [hexp]), hvid] at hhome
    refine mem_map.2 ⟨b, mem_flatMap.2 ⟨v, mem_getD_iff.2 hhome, hb⟩, ?_⟩
    exact Prod.ext (((hblocks v hv).1 b hb).trans hvid) hbid
  · intro hmem
    obtain ⟨b, hb, hids⟩ := mem_map.1 hmem
    obtain ⟨v, hv, hbv⟩ := mem_flatMap.1 hb
    have hvins := hinv.primary_sub _ v (mem_getD_iff.1 hv)
    have hvid : v.volumeId = ids.1 := ((hblocks v hvins).1 b hbv).symm.trans (congrArg Prod.fst hids)
    refine ⟨v, ?_, b, hbv, congrArg Prod.snd hids⟩
    rw [hinv.doClusterFind_eq, some_inj]
    cases hfind : ins.find? (fun v => v.volumeId == ids.1) with
    | none => exact absurd (find?_eq_none.1 hfind v hvins) (by simp [hvid])
    | some w =>
      have hwid : w.volumeId = ids.1 := by simpa using find?_some hfind
      rw [inj_on_of_nodup_map hinv.distinct (mem_of_find?_eq_some hfind) hvins
        (hwid.trans hvid.symm)]

lemma Registered.valid {regs : List DatasevrBlock} (h : c.Registered regs) : c.Valid := by
  obtain ⟨ins, h⟩ := h
  refine ⟨ins, h.inv, h.linked, fun v hv => ?_⟩
  rw [h.volume v hv]
  have hvid {b : DatasevrBlock} (hb : b ∈ (volumeOf regs v.volumeId).blocks) :
      b.parentVolumeId = v.volumeId := of_decide_eq_true (mem_filter.1 hb).2
  refine ⟨fun b hb => hvid hb, ?_⟩
  refine (List.Nodup.of_map _ h.distinct).filter _ |>.map_on fun b hb b' hb' heq => ?_
  refine inj_on_of_nodup_map h.distinct (mem_filter.1 hb).1 (mem_filter.1 hb').1 ?_
  exact Prod.ext ((hvid hb).trans (hvid hb').symm) heq

end DatasevrCluster

/-! ### Completeness -/

namespace FlushRun

variable {r : FlushRun} {ids : UInt32 × UInt32}

/-- The block `ids` is in the cluster throughout the flush. -/
def Throughout (r : FlushRun) (ids : UInt32 × UInt32) : Prop :=
  ∀ i < hashsize r.hashSize, (r.cluster i).HasBlock ids

lemma map_ids_blocks : r.blocks.map DatasevrBlock.ids =
    ((range (hashsize r.hashSize)).filter r.trylock).flatMap fun i =>
      (r.cluster i).bucketIds i := by
  rw [FlushEnv.blocks, map_flatMap]
  rfl

lemma nodup_ids_blocks : (r.blocks.map DatasevrBlock.ids).Nodup := by
  rw [map_ids_blocks, nodup_flatMap]
  have hnodup (i : ℕ) := (r.valid i).bucketIds_nodup (i := i) (r.not_expanding i)
  refine ⟨fun i _ => (hnodup i).1, (nodup_range.filter _).imp fun {i j} hne => ?_⟩
  refine disjoint_left.2 fun ids hi hj => hne ?_
  rw [← (hnodup i).2 ids hi, ← (hnodup j).2 ids hj, r.hashSize_eq, r.hashSize_eq]

lemma Throughout.mem_blocks_iff (h : r.Throughout ids) :
    ids ∈ r.blocks.map DatasevrBlock.ids ↔ r.trylock (bucket ids.1 r.hashSize) = true := by
  have hlt : bucket ids.1 r.hashSize < hashsize r.hashSize := bucket_lt _ _
  rw [map_ids_blocks, mem_flatMap]
  constructor
  · rintro ⟨i, hi, hmem⟩
    have hbucket := ((r.valid i).bucketIds_nodup (r.not_expanding i)).2 ids hmem
    rw [r.hashSize_eq] at hbucket
    rw [hbucket]
    exact (mem_filter.1 hi).2
  · intro hlock
    refine ⟨_, mem_filter.2 ⟨mem_range.2 hlt, hlock⟩, ?_⟩
    have hmem := ((r.valid _).hasBlock_iff (r.not_expanding _)).1 (h _ hlt)
    rwa [r.hashSize_eq] at hmem

/-- **Completeness of the snapshot.**  If a flush replaces the snapshot, the new one has one line for
each block that was in the cluster throughout the flush exactly if the buckets whose lock was not
obtained hold none of these blocks. -/
theorem snapshot_complete_iff (r : FlushRun) :
    (∀ file ∈ r.snapshotFlush, ∀ ids, r.Throughout ids → file.countP (isLineOf ids) = 1) ↔
      (r.Succeeds → ∀ i < hashsize r.hashSize, r.trylock i = false →
        ∀ ids, r.Throughout ids → bucket ids.1 r.hashSize ≠ i) := by
  have hcount {file : List (List Byte)} (hfile : r.snapshotFlush = some file)
      (ids : UInt32 × UInt32) :
      file.countP (isLineOf ids) = (r.blocks.map DatasevrBlock.ids).count ids := by
    rw [← (FlushEnv.snapshotFlush_eq_some_iff.1 hfile).2, countP_map, count, countP_map]
    refine countP_congr fun b _ => ?_
    simp [isLineOf_snapshotLine]
  constructor
  · intro h hsucceeds i _ hlock ids hids hbucket
    have hfile := FlushEnv.snapshotFlush_eq_some_iff.2 ⟨hsucceeds, rfl⟩
    have hone := h _ hfile ids hids
    rw [hcount hfile] at hone
    have hmem : ids ∈ r.blocks.map DatasevrBlock.ids := count_pos_iff.1 (by omega)
    rw [hids.mem_blocks_iff, hbucket, hlock] at hmem
    exact absurd hmem (by simp)
  · intro h file hfile ids hids
    rw [hcount hfile]
    refine count_eq_one_of_mem nodup_ids_blocks (hids.mem_blocks_iff.2 ?_)
    by_contra hlock
    exact h (FlushEnv.snapshotFlush_eq_some_iff.1 hfile).1 _ (bucket_lt _ _) (by simpa using hlock) ids
      hids rfl

def server : DatasevrRegBodyReq := ⟨[1], [1], 0, 1, 0, 0, 0⟩

/-- A tracker with which one server is registered. -/
def oneServer : DatasevrCluster :=
  (DatasevrCluster.clusterInit.handleCmdRegister (fun _ => 0) server).getD
    DatasevrCluster.clusterInit

lemma oneServer_valid : oneServer.Valid := by
  obtain ⟨c, hc, hreg, -⟩ := DatasevrCluster.registered_clusterInit.handleCmdRegister (t := .start)
    rfl (fun _ => 0) server
  rw [oneServer, hc]
  exact hreg.valid

/-- A flush that does not get the lock of the bucket of the server. -/
def lockedFlush : FlushRun where
  hashSize := 2
  cluster := fun _ => oneServer
  trylock := fun i => i ≠ 0
  opened := true
  written := fun _ => none
  fsync := true
  renamed := true
  valid := fun _ => oneServer_valid
  hashSize_eq := fun _ => by decide
  not_expanding := fun _ => by decide

/-- The snapshot is replaced by an empty file. -/
theorem lockedFlush_not_complete :
    ¬ ∀ file ∈ lockedFlush.snapshotFlush, ∀ ids, lockedFlush.Throughout ids →
      file.countP (isLineOf ids) = 1 := by
  intro h
  have hflush : lockedFlush.snapshotFlush = some [] := by decide
  have hfind : oneServer.doClusterFind 0 =
      some (some ⟨0, [(DatasevrBlock.ofRegister 0 0 server).register server], 0, 0⟩) := by decide
  have hthroughout : lockedFlush.Throughout (0, 0) := fun _ _ =>
    ⟨_, hfind, _, mem_cons_self, rfl⟩
  exact absurd (h [] hflush (0, 0) hthroughout) (by decide)

end FlushRun

end Lfs.Tracker
