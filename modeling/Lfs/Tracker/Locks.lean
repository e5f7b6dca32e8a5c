/-
The locks of the buckets (`__cluster_lock_init`, `cluster_lock` and `cluster_trylock` in
`ts_cluster.c`).

A request locks the mutex of its volume id, the snapshot thread and the maintenance thread that of a
bucket.  Both are taken under the mask of the lock table, whose hash power is the size of the first
table of volumes divided by the number of threads.  They are the same mutex as long as no table is
smaller than the lock table.
-/
import Lfs.Tracker.Cluster

namespace Lfs.Tracker

open Lfs.Lib Option DatasevrCluster ClusterRun

/-! ### The locks -/

/-- `cluster_lock_hashpower`, as `__cluster_lock_init` sets it for a table of `2 ^ hashSize`
buckets. -/
def clusterLockInit (hashSize workThreads : ℕ) : ℕ := hashsize hashSize / workThreads

/-- The mutex that `cluster_lock(hv)` and `cluster_trylock(hv)` take. -/
def clusterMutex (lockHashpower hv : ℕ) : ℕ := hv &&& hashmask lockHashpower

inductive VolumeTable where
  | old
  | primary
deriving DecidableEq

inductive TableAccess where
  /-- A request for a volume: `__do_find`, and `do_cluster_insert` if it is not there. -/
  | request (vid : UInt32)
  /-- The bucket `i` in `__snapshot_flush`. -/
  | flush (i : ℕ)
  /-- A round of the loop of `__cluster_maintenance_thread`. -/
  | migrate

namespace DatasevrCluster

def mutexOf (lockHashpower : ℕ) (c : DatasevrCluster) : TableAccess → ℕ
  | .request vid => clusterMutex lockHashpower vid.toNat
  | .flush i => clusterMutex lockHashpower i
  | .migrate => clusterMutex lockHashpower c.expandBucket

/-- The buckets that are read or written.  In the old table `__do_find` looks under the mask of this
table, and `do_cluster_insert` under that of the primary one. -/
def Touches (c : DatasevrCluster) : TableAccess → VolumeTable → ℕ → Prop
  | .request vid, .old, b => c.expanding = true ∧ c.expandBucket ≤ b ∧
      (b = bucket vid (c.hashSize - 1) ∨ b = bucket vid c.hashSize)
  | .request vid, .primary, b => b = bucket vid c.hashSize
  | .flush _, .old, _ => False
  | .flush i, .primary, b => b = i
  | .migrate, .old, b => c.expanding = true ∧ b = c.expandBucket
  | .migrate, .primary, b => c.expanding = true ∧
      ∃ dv, c.oldVolumes.Mem c.expandBucket dv ∧ b = bucket dv.volumeId c.hashSize

/-- The mutex of a volume id is that of its bucket, in the primary table and, during an expansion, in
the old one. -/
def LocksCover (lockHashpower : ℕ) (c : DatasevrCluster) : Prop :=
  ∀ vid : UInt32,
    clusterMutex lockHashpower vid.toNat = clusterMutex lockHashpower (bucket vid c.hashSize) ∧
    (c.expanding = true → clusterMutex lockHashpower vid.toNat =
      clusterMutex lockHashpower (bucket vid (c.hashSize - 1)))

/-- What touches the same bucket holds the same mutex. -/
def LocksExclude (lockHashpower : ℕ) (c : DatasevrCluster) : Prop :=
  ∀ a a' table b, c.Touches a table b → c.Touches a' table b →
    c.mutexOf lockHashpower a = c.mutexOf lockHashpower a'

/-- The hash power of the smallest table in use. -/
def smallestTable (c : DatasevrCluster) : ℕ := if c.expanding then c.hashSize - 1 else c.hashSize

end DatasevrCluster

/-! ### One mask and another -/

lemma clusterMutex_eq (lockHashpower hv : ℕ) :
    clusterMutex lockHashpower hv = hv % 2 ^ lockHashpower := by
  rw [clusterMutex, hashmask, hashsize_eq, Nat.and_two_pow_sub_one_eq_mod]

lemma clusterMutex_bucket {lockHashpower n : ℕ} (h : lockHashpower ≤ n) (vid : UInt32) :
    clusterMutex lockHashpower (bucket vid n) = clusterMutex lockHashpower vid.toNat := by
  rw [clusterMutex_eq, clusterMutex_eq, bucket_eq, Nat.mod_mod_of_dvd _ (Nat.pow_dvd_pow 2 h)]

lemma forall_clusterMutex_eq_iff {lockHashpower n : ℕ} (hlock : lockHashpower < 32) :
    (∀ vid : UInt32, clusterMutex lockHashpower vid.toNat = clusterMutex lockHashpower (bucket vid n))
      ↔ lockHashpower ≤ n := by
  constructor
  · intro h
    by_contra hlt
    have hn : n < 32 := by omega
    have htwo : (UInt32.ofNat (2 ^ n)).toNat = 2 ^ n := by
      rw [UInt32.toNat_ofNat']
      exact Nat.mod_eq_of_lt (Nat.pow_lt_pow_right (by norm_num) hn)
    have hmutex := h (UInt32.ofNat (2 ^ n))
    rw [clusterMutex_eq, clusterMutex_eq, bucket_eq, htwo, Nat.mod_self, Nat.zero_mod,
      Nat.mod_eq_of_lt (Nat.pow_lt_pow_right (by norm_num) (not_le.1 hlt))] at hmutex
    exact absurd hmutex (Nat.two_pow_pos n).ne'
  · intro h vid
    exact (clusterMutex_bucket h vid).symm

/-! ### The buckets hold the volumes of their index -/

namespace DatasevrCluster

variable {c c' : DatasevrCluster} {ins : List DatasevrVolume} {dv : DatasevrVolume}

/-- Every volume is linked in the bucket of its id. -/
structure InBuckets (c : DatasevrCluster) : Prop where
  primary : ∀ j v, c.primaryVolumes.Mem j v → bucket v.volumeId c.hashSize = j
  old : c.expanding = true → ∀ j v, c.oldVolumes.Mem j v → bucket v.volumeId (c.hashSize - 1) = j

lemma inBuckets_clusterInit : InBuckets clusterInit where
  primary := fun _ _ h => absurd h Buckets.mem_empty
  old := by simp [clusterInit]

lemma InBuckets.doClusterInsert (h : InBuckets c) (hinv : Inv c ins)
    (hc' : c.doClusterInsert dv = some c') : InBuckets c' := by
  have hpos := hinv.hashSize_pos
  obtain ⟨⟨hexp, -⟩, t, ht, rfl⟩ | ⟨-, t, ht, rfl⟩ := doClusterInsert_cases hc'
  · -- the volume goes to the old table
    refine ⟨h.primary, fun _ j v hv => ?_⟩
    rcases (Buckets.mem_push ht).1 hv with ⟨rfl, rfl⟩ | hv
    · -- an index in the range of the old table is the same under both masks
      obtain ⟨hlt, -⟩ := Buckets.push_inv ht
      rw [hinv.old_length hexp] at hlt
      obtain ⟨n, hn⟩ : ∃ n, c.hashSize = n + 1 := ⟨c.hashSize - 1, by omega⟩
      simp only [hn, Nat.add_sub_cancel] at hlt ⊢
      exact (bucket_succ_of_lt hlt).symm
    · exact h.old hexp j v hv
  · refine ⟨fun j v hv => ?_, h.old⟩
    rcases (Buckets.mem_push ht).1 hv with ⟨rfl, rfl⟩ | hv
    · rfl
    · exact h.primary j v hv

lemma InBuckets.clusterExpand (h : InBuckets c) : InBuckets (c.clusterExpand true) where
  primary := fun _ _ hv => absurd hv Buckets.mem_empty
  old := fun _ => h.primary

lemma InBuckets.migrateBucket (h : InBuckets c) (hexp : c.expanding = true)
    (hc' : c.migrateBucket = some c') : InBuckets c' := by
  obtain ⟨moved, primary, -, hprimary, rfl⟩ := migrateBucket_cases hc'
  have hmoved : ∀ j v, primary.Mem j v → bucket v.volumeId c.hashSize = j := by
    intro j v hv
    rcases (Buckets.mem_pushAll hprimary).1 hv with ⟨-, rfl⟩ | hv
    · rfl
    · exact h.primary j v hv
  rw [finishBucket]
  split_ifs
  · exact ⟨hmoved, by simp⟩
  · exact ⟨hmoved, fun _ j v hv => h.old hexp j v (mem_set_nil.1 hv).2⟩

/-! ### The size of the table -/

/-- The table has not become smaller than it was at the start. -/
structure Grown (c : DatasevrCluster) : Prop where
  primary : defaultClusterHashPower ≤ c.hashSize
  old : c.expanding = true → defaultClusterHashPower < c.hashSize

lemma Grown.le_smallestTable (h : Grown c) : defaultClusterHashPower ≤ c.smallestTable := by
  rw [smallestTable]
  split_ifs with hexp
  · have hold := h.old hexp
    omega
  · exact h.primary

lemma sizes_migrateBucket (hc' : c.migrateBucket = some c') :
    c'.hashSize = c.hashSize ∧ (c'.expanding = true → c.expanding = true) := by
  obtain ⟨moved, primary, -, -, rfl⟩ := migrateBucket_cases hc'
  rw [finishBucket]
  split_ifs
  · exact ⟨rfl, by simp⟩
  · exact ⟨rfl, id⟩

end DatasevrCluster

/-! ### Along a run -/

/-- A table in which no index was out of range: it has the invariant, its buckets hold the volumes of
their index, and it has only grown. -/
structure ClusterRun.Sized (s : ClusterRun) (c : DatasevrCluster) : Prop where
  inv : c.Inv s.inserted
  inBuckets : c.InBuckets
  grown : c.Grown

lemma ClusterRun.sized_init : Sized init .clusterInit where
  inv := inv_clusterInit
  inBuckets := inBuckets_clusterInit
  grown := ⟨le_rfl, by simp [clusterInit]⟩

lemma ClusterRun.sized_step {s : ClusterRun} {op : ClusterOp} {c' : DatasevrCluster}
    (h : ∀ c, s.cluster = some c → Sized s c) (hop : Enabled s op)
    (hc' : (step s op).cluster = some c') : Sized (step s op) c' := by
  cases op with
  | insert dv =>
    obtain ⟨c, hc, hc'⟩ := bind_eq_some_iff.1 hc'
    obtain ⟨hinv, hin, hgrown⟩ := h c hc
    obtain ⟨hsize, hexp⟩ := sizes_doClusterInsert hc'
    refine ⟨?_, hin.doClusterInsert hinv hc', ⟨?_, ?_⟩⟩
    · -- the index was in range, or there would be no table
      have hrange : c.expanding = true →
          bucket dv.volumeId c.hashSize < hashsize (c.hashSize - 1) := by
        intro hexp
        by_contra hlt
        rw [hinv.doClusterInsert_eq_none hexp (not_lt.1 hlt)] at hc'
        exact absurd hc' (by simp)
      obtain ⟨c₁, hc₁, hinv₁⟩ := hinv.doClusterInsert hop hrange
      obtain rfl := some.inj (hc₁.symm.trans hc')
      exact hinv₁
    · exact hsize ▸ hgrown.primary
    · exact fun h => hsize ▸ hgrown.old (hexp ▸ h)
  | expand =>
    obtain ⟨c, hc, rfl⟩ := map_eq_some_iff.1 hc'
    obtain ⟨hinv, hin, hgrown⟩ := h c hc
    have hle := hgrown.primary
    exact ⟨hinv.clusterExpand (hop c hc), hin.clusterExpand, ⟨Nat.le_succ_of_le hle,
      fun _ => Nat.lt_succ_of_le hle⟩⟩
  | migrate =>
    obtain ⟨c, hc, hc'⟩ := bind_eq_some_iff.1 hc'
    obtain ⟨hinv, hin, hgrown⟩ := h c hc
    obtain ⟨hsize, hexp⟩ := sizes_migrateBucket hc'
    obtain ⟨c₁, hc₁, hinv₁⟩ := hinv.migrateBucket (hop c hc)
    obtain rfl := some.inj (hc₁.symm.trans hc')
    exact ⟨hinv₁, hin.migrateBucket (hop c hc) hc', ⟨hsize ▸ hgrown.primary,
      fun h => hsize ▸ hgrown.old (hexp h)⟩⟩

lemma ClusterRun.sized_run {ops : List ClusterOp}
    (hops : Along step (fun s op _ => Enabled s op) init ops) {c : DatasevrCluster}
    (hc : (run step init ops).cluster = some c) : Sized (run step init ops) c := by
  refine hops.inv (I := fun s => ∀ c, s.cluster = some c → Sized s c) ?_ ?_ c hc
  · rintro _ ⟨⟩
    exact sized_init
  · intro s op h hop c' hc'
    exact sized_step h hop hc'

/-! ### The locks cover the buckets -/

namespace DatasevrCluster

variable {c : DatasevrCluster} {lockHashpower : ℕ}

lemma locksCover_iff (hlock : lockHashpower < 32) :
    c.LocksCover lockHashpower ↔ lockHashpower ≤ c.smallestTable := by
  rw [LocksCover, forall_and, forall_clusterMutex_eq_iff hlock, forall_comm]
  simp only [forall_clusterMutex_eq_iff hlock, smallestTable]
  split_ifs with hexp
  · simp only [hexp, forall_const]
    omega
  · simp [hexp]

/-- Under locks that cover the buckets, the mutex that is held is that of the bucket. -/
lemma LocksCover.mutexOf_eq (h : c.LocksCover lockHashpower) (hin : c.InBuckets) {a : TableAccess}
    {table : VolumeTable} {b : ℕ} (hb : c.Touches a table b) :
    c.mutexOf lockHashpower a = clusterMutex lockHashpower b := by
  cases a with
  | request vid =>
    cases table with
    | old =>
      obtain ⟨hexp, -, rfl | rfl⟩ := hb
      · exact (h vid).2 hexp
      · exact (h vid).1
    | primary =>
      obtain rfl := hb
      exact (h vid).1
  | flush i =>
    cases table with
    | old => exact hb.elim
    | primary =>
      obtain rfl := hb
      rfl
  | migrate =>
    cases table with
    | old =>
      obtain ⟨-, rfl⟩ := hb
      rfl
    | primary =>
      -- the volume has been in the old bucket of its id
      obtain ⟨hexp, dv, hdv, rfl⟩ := hb
      rw [mutexOf, ← hin.old hexp _ _ hdv, ← (h dv.volumeId).1, ← (h dv.volumeId).2 hexp]

lemma LocksCover.locksExclude (h : c.LocksCover lockHashpower) (hin : c.InBuckets) :
    c.LocksExclude lockHashpower := by
  intro a a' table b ha ha'
  rw [h.mutexOf_eq hin ha, h.mutexOf_eq hin ha']

end DatasevrCluster

lemma clusterLockInit_le_iff {workThreads n : ℕ} (hthreads : 1 ≤ workThreads)
    (hn : defaultClusterHashPower ≤ n) :
    clusterLockInit defaultClusterHashPower workThreads ≤ n ↔ 2 ≤ workThreads ∨ 4 ≤ n := by
  rw [clusterLockInit, hashsize_eq, defaultClusterHashPower] at *
  rcases Nat.eq_or_lt_of_le hthreads with rfl | htwo
  · simp
  · have hle : 2 ^ 2 / workThreads ≤ 2 := Nat.div_le_of_le_mul (by omega)
    exact iff_of_true (hle.trans hn) (.inl htwo)

lemma clusterLockInit_lt (workThreads : ℕ) :
    clusterLockInit defaultClusterHashPower workThreads < 32 := by
  rw [clusterLockInit, hashsize_eq, defaultClusterHashPower]
  exact (Nat.div_le_self _ _).trans_lt (by norm_num)

/-- **The locks of the buckets.**  After every run of insertions, expansions and migrations from the
table of the default size, the mutex of every volume id is the one of its bucket, in the primary
table and in the old one while there is one, and what touches the same bucket excludes each other,
exactly if there are two threads or more, or the smallest table in use has 16 buckets or more. -/
theorem bucketLocks_cover_iff {workThreads : ℕ} (hthreads : 1 ≤ workThreads) (ops : List ClusterOp)
    (hops : Along step (fun s op _ => ClusterRun.Enabled s op) init ops)
    {c : DatasevrCluster} (hc : (run step init ops).cluster = some c) :
    (c.LocksCover (clusterLockInit defaultClusterHashPower workThreads) ∧
        c.LocksExclude (clusterLockInit defaultClusterHashPower workThreads)) ↔
      2 ≤ workThreads ∨ 4 ≤ c.smallestTable := by
  have hsized := sized_run hops hc
  rw [← clusterLockInit_le_iff hthreads hsized.grown.le_smallestTable,
    ← locksCover_iff (clusterLockInit_lt workThreads)]
  exact and_iff_left_of_imp fun hcover => hcover.locksExclude hsized.inBuckets

/-- Four threads, in the middle of the first expansion. -/
theorem bucketLocks_cover_fourThreads : ∃ c, (run step init
        [.insert (volumeWithId 0), .insert (volumeWithId 5), .insert (volumeWithId 2), .expand,
          .migrate]).cluster = some c ∧ c.expanding = true ∧
      c.LocksCover (clusterLockInit defaultClusterHashPower 4) ∧
      c.LocksExclude (clusterLockInit defaultClusterHashPower 4) := by
  refine ⟨_, rfl, by decide, ?_⟩
  exact (bucketLocks_cover_iff (by decide) [.insert (volumeWithId 0), .insert (volumeWithId 5),
    .insert (volumeWithId 2), .expand, .migrate] (by decide) rfl).2 (.inl (by decide))

/-- One thread, in the table with which the tracker starts.  The volumes 0 and 4 are in one bucket,
and the requests for them hold the mutexes 0 and 4. -/
theorem bucketLocks_oneThread_not_exclude :
    ¬ clusterInit.LocksCover (clusterLockInit defaultClusterHashPower 1) ∧
      ¬ clusterInit.LocksExclude (clusterLockInit defaultClusterHashPower 1) := by
  constructor
  · intro h
    exact absurd (h 4).1 (by decide)
  · intro h
    have hbucket : bucket 0 defaultClusterHashPower = bucket 4 defaultClusterHashPower := by decide
    exact absurd (h (.request 0) (.request 4) .primary _ rfl hbucket) (by decide)

end Lfs.Tracker
