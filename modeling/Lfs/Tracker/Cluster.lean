/-
The table of volumes of the tracker and its expansion (`ts_cluster.c`).

The table has `2 ^ hashSize` buckets, and the bucket of a volume is its id under a
mask.  When the table gets too full the maintenance thread allocates one of twice
the size and then moves the buckets over one by one; in between, a volume whose old
bucket has not been moved yet lives in the old table.  `__do_find` computes the old
bucket under the old mask, `hash_size - 1`, but `do_cluster_insert` under that of the
new table.

The array accesses are checked (`Lfs.Lib.Buckets`): `none` is an index out of range.
-/
import Lfs.Lib.Run
import Lfs.Tracker.Types
import Mathlib.Algebra.Group.Nat.Defs

namespace Lfs.Tracker

open Lfs.Lib List Option Buckets

/-! ### The table -/

/-- `hashsize(n)`. -/
def hashsize (n : ℕ) : ℕ := 1 <<< n

/-- `hashmask(n)`. -/
def hashmask (n : ℕ) : ℕ := hashsize n - 1

def defaultClusterHashPower : ℕ := 2

/-- The bucket of a volume id in a table of `2 ^ n` buckets. -/
def bucket (vid : UInt32) (n : ℕ) : ℕ := vid.toNat &&& hashmask n

namespace DatasevrCluster

/-- `__cluster_init` with the default hash power. -/
def clusterInit : DatasevrCluster where
  oldVolumeCount := 0
  primaryVolumeCount := 0
  hashSize := defaultClusterHashPower
  expandBucket := 0
  isStartedExpanding := false
  expanding := false
  oldVolumes := []
  primaryVolumes := empty (hashsize defaultClusterHashPower)

/-- `__cluster_start_expand`: the signal that wakes the maintenance thread. -/
def clusterStartExpand (c : DatasevrCluster) : DatasevrCluster :=
  if c.isStartedExpanding then c else { c with isStartedExpanding := true }

/-- The insertion of `do_cluster_insert` into one of the two tables.  The old bucket
is computed under the mask of the primary table. -/
def linkVolume (c : DatasevrCluster) (dv : DatasevrVolume) : Option DatasevrCluster :=
  let oldbukt := bucket dv.volumeId c.hashSize
  if c.expanding && decide (c.expandBucket ≤ oldbukt) then
    (c.oldVolumes.push oldbukt dv).map fun t => { c with oldVolumes := t }
  else
    (c.primaryVolumes.push (bucket dv.volumeId c.hashSize) dv).map fun t =>
      { c with primaryVolumes := t }

/-- The count of `do_cluster_insert`, and the signal when the table is over half full. -/
def countVolume (c : DatasevrCluster) : DatasevrCluster :=
  let c := { c with primaryVolumeCount := c.primaryVolumeCount + 1 }
  if !c.expanding && decide (hashsize (c.hashSize * 1) / 2 < c.primaryVolumeCount) then
    c.clusterStartExpand
  else c

def doClusterInsert (c : DatasevrCluster) (dv : DatasevrVolume) : Option DatasevrCluster :=
  (c.linkVolume dv).map countVolume

/-- `__do_find`, that is `do_cluster_find`. -/
def doClusterFind (c : DatasevrCluster) (vid : UInt32) : Option (Option DatasevrVolume) :=
  let oldbkt := bucket vid (c.hashSize - 1)
  let ite := if c.expanding && decide (c.expandBucket ≤ oldbkt) then c.oldVolumes[oldbkt]?
    else c.primaryVolumes[bucket vid c.hashSize]?
  ite.map fun b => b.find? (fun dv => dv.volumeId == vid)

/-- `__cluster_expand`; `alloc` is whether the new table could be allocated. -/
def clusterExpand (alloc : Bool) (c : DatasevrCluster) : DatasevrCluster :=
  if alloc then
    { c with
      oldVolumes := c.primaryVolumes
      oldVolumeCount := c.primaryVolumeCount
      primaryVolumes := empty (hashsize (c.hashSize + 1))
      expandBucket := 0
      primaryVolumeCount := 0
      hashSize := c.hashSize + 1
      expanding := true }
  else { c with oldVolumeCount := c.primaryVolumeCount }

/-- The end of the migration of a bucket: once the last one has been moved the old
table is freed, and the thread goes back to wait with `is_started_expanding` cleared. -/
def finishBucket (c : DatasevrCluster) : DatasevrCluster :=
  if c.expandBucket = hashsize (c.hashSize - 1) then
    { c with expanding := false, oldVolumes := [], oldVolumeCount := 0, isStartedExpanding := false }
  else c

/-- One round of the loop of `__cluster_maintenance_thread` that got its lock: the
bucket `expand_bucket` of the old table is moved to the primary table. -/
def migrateBucket (c : DatasevrCluster) : Option DatasevrCluster := do
  let moved ← c.oldVolumes[c.expandBucket]?
  let primary ← pushAll (fun dv => bucket dv.volumeId c.hashSize) c.primaryVolumes moved
  some (finishBucket
    { c with
      primaryVolumes := primary
      primaryVolumeCount := c.primaryVolumeCount + moved.length
      oldVolumes := c.oldVolumes.set c.expandBucket []
      expandBucket := c.expandBucket + 1 })

end DatasevrCluster

/-! ### Runs -/

/-- What the tracker's threads do to the table: the request handlers insert volumes,
the maintenance thread expands the table and migrates its buckets. -/
inductive ClusterOp where
  | insert (dv : DatasevrVolume)
  | expand
  | migrate
deriving DecidableEq

/-- A run of the table: the table, `none` once an index was out of range, and the
volumes inserted so far. -/
structure ClusterRun where
  cluster : Option DatasevrCluster
  inserted : List DatasevrVolume
deriving DecidableEq

namespace ClusterRun

def init : ClusterRun := ⟨some DatasevrCluster.clusterInit, []⟩

def step (s : ClusterRun) : ClusterOp → ClusterRun
  | .insert dv => ⟨s.cluster.bind fun c => c.doClusterInsert dv, dv :: s.inserted⟩
  | .expand => ⟨s.cluster.map (DatasevrCluster.clusterExpand true), s.inserted⟩
  | .migrate => ⟨s.cluster.bind fun c => c.migrateBucket, s.inserted⟩

/-- The steps that are taken: the ids of the volumes are distinct, and the maintenance
thread expands the table only when no expansion is going on and migrates a bucket
only when one is. -/
def Enabled (s : ClusterRun) : ClusterOp → Prop
  | .insert dv => ∀ v ∈ s.inserted, v.volumeId ≠ dv.volumeId
  | .expand => ∀ c ∈ s.cluster, c.expanding = false
  | .migrate => ∀ c ∈ s.cluster, c.expanding = true

instance (s : ClusterRun) : (op : ClusterOp) → Decidable (Enabled s op)
  | .insert dv => inferInstanceAs (Decidable (∀ v ∈ s.inserted, v.volumeId ≠ dv.volumeId))
  | .expand => inferInstanceAs (Decidable (∀ c ∈ s.cluster, c.expanding = false))
  | .migrate => inferInstanceAs (Decidable (∀ c ∈ s.cluster, c.expanding = true))

/-- Every index was in range, a lookup stays in range, and it finds the volume with
the given id exactly when it has been inserted. -/
def Sound (s : ClusterRun) : Prop :=
  ∃ c, s.cluster = some c ∧
    ∀ vid, c.doClusterFind vid = some (s.inserted.find? fun dv => dv.volumeId == vid)

/-- A volume is inserted during an expansion only if its bucket in the new table is
also one of the old table. -/
def InsertInOldRange (s : ClusterRun) : ClusterOp → Prop
  | .insert dv => ∀ c ∈ s.cluster, c.expanding = true →
      bucket dv.volumeId c.hashSize < hashsize (c.hashSize - 1)
  | _ => True

instance (s : ClusterRun) : (op : ClusterOp) → Decidable (InsertInOldRange s op)
  | .insert dv => inferInstanceAs (Decidable (∀ c ∈ s.cluster, c.expanding = true →
      bucket dv.volumeId c.hashSize < hashsize (c.hashSize - 1)))
  | .expand => isTrue trivial
  | .migrate => isTrue trivial

end ClusterRun

/-! ### Buckets under the two masks -/

lemma hashsize_eq (n : ℕ) : hashsize n = 2 ^ n := by
  simp [hashsize, Nat.shiftLeft_eq]

lemma bucket_eq (vid : UInt32) (n : ℕ) : bucket vid n = vid.toNat % 2 ^ n := by
  rw [bucket, hashmask, hashsize_eq, Nat.and_two_pow_sub_one_eq_mod]

lemma bucket_lt (vid : UInt32) (n : ℕ) : bucket vid n < hashsize n := by
  rw [bucket_eq, hashsize_eq]
  exact Nat.mod_lt _ (Nat.two_pow_pos n)

lemma bucket_succ_of_lt {vid : UInt32} {n : ℕ} (h : bucket vid (n + 1) < hashsize n) :
    bucket vid (n + 1) = bucket vid n := by
  simp only [bucket_eq, hashsize_eq] at h ⊢
  rw [← Nat.mod_mod_of_dvd vid.toNat (Nat.pow_dvd_pow 2 (Nat.le_succ n)), Nat.mod_eq_of_lt h]

/-! ### What an insertion does -/

namespace DatasevrCluster

/-- The signal of `__cluster_start_expand` after an insertion. -/
def signalled (c : DatasevrCluster) : Bool :=
  c.isStartedExpanding || (!c.expanding && decide (hashsize c.hashSize / 2 < c.primaryVolumeCount + 1))

lemma countVolume_eq (c : DatasevrCluster) :
    c.countVolume = { c with
      primaryVolumeCount := c.primaryVolumeCount + 1
      isStartedExpanding := c.signalled } := by
  rw [countVolume, signalled, mul_one]
  dsimp only
  split_ifs with hfull
  · rw [clusterStartExpand]
    dsimp only
    split_ifs with hstarted
    · rw [hstarted, Bool.true_or]
    · rw [hfull, Bool.or_true]
  · rw [Bool.not_eq_true] at hfull
    rw [hfull, Bool.or_false]

/-- **An insertion** links the volume into one of the two tables, and counts it. -/
lemma doClusterInsert_cases {c c' : DatasevrCluster} {dv : DatasevrVolume}
    (h : c.doClusterInsert dv = some c') :
    ((c.expanding = true ∧ c.expandBucket ≤ bucket dv.volumeId c.hashSize) ∧
      ∃ t, c.oldVolumes.push (bucket dv.volumeId c.hashSize) dv = some t ∧
        c' = { c with
          oldVolumes := t
          primaryVolumeCount := c.primaryVolumeCount + 1
          isStartedExpanding := c.signalled }) ∨
    (¬ (c.expanding = true ∧ c.expandBucket ≤ bucket dv.volumeId c.hashSize) ∧
      ∃ t, c.primaryVolumes.push (bucket dv.volumeId c.hashSize) dv = some t ∧
        c' = { c with
          primaryVolumes := t
          primaryVolumeCount := c.primaryVolumeCount + 1
          isStartedExpanding := c.signalled }) := by
  rw [doClusterInsert, map_eq_some_iff] at h
  obtain ⟨c₁, hc₁, rfl⟩ := h
  rw [countVolume_eq]
  rw [linkVolume] at hc₁
  split_ifs at hc₁ with hold
  · obtain ⟨t, ht, rfl⟩ := map_eq_some_iff.1 hc₁
    exact .inl ⟨by simpa using hold, t, ht, rfl⟩
  · obtain ⟨t, ht, rfl⟩ := map_eq_some_iff.1 hc₁
    exact .inr ⟨by simpa using hold, t, ht, rfl⟩

lemma sizes_doClusterInsert {c c' : DatasevrCluster} {dv : DatasevrVolume}
    (hc' : c.doClusterInsert dv = some c') :
    c'.hashSize = c.hashSize ∧ c'.expanding = c.expanding := by
  obtain ⟨-, t, -, rfl⟩ | ⟨-, t, -, rfl⟩ := doClusterInsert_cases hc'
  · exact ⟨rfl, rfl⟩
  · exact ⟨rfl, rfl⟩

/-- **A migration** moves the volumes of a bucket to the primary table, and counts them. -/
lemma migrateBucket_cases {c c' : DatasevrCluster} (h : c.migrateBucket = some c') :
    ∃ moved primary, c.oldVolumes[c.expandBucket]? = some moved ∧
      pushAll (fun dv => bucket dv.volumeId c.hashSize) c.primaryVolumes moved = some primary ∧
      c' = finishBucket { c with
        primaryVolumes := primary
        primaryVolumeCount := c.primaryVolumeCount + moved.length
        oldVolumes := c.oldVolumes.set c.expandBucket []
        expandBucket := c.expandBucket + 1 } := by
  simp only [migrateBucket, bind_eq_bind, bind_eq_some_iff] at h
  obtain ⟨moved, hmoved, primary, hprimary, heq⟩ := h
  exact ⟨moved, primary, hmoved, hprimary, (some.inj heq).symm⟩

end DatasevrCluster

/-! ### The invariant -/

namespace DatasevrCluster

/-- The volume is linked in the table and the bucket in which a lookup walks for it. -/
def AtHome (c : DatasevrCluster) (dv : DatasevrVolume) : Prop :=
  if c.expanding = true ∧ c.expandBucket ≤ bucket dv.volumeId (c.hashSize - 1) then
    c.oldVolumes.Mem (bucket dv.volumeId (c.hashSize - 1)) dv
  else c.primaryVolumes.Mem (bucket dv.volumeId c.hashSize) dv

/-- The invariant of the table with respect to the list of the volumes inserted into
it: the tables have the lengths that the masks assume, they hold only inserted volumes,
and every inserted volume is where a lookup walks. -/
structure Inv (c : DatasevrCluster) (ins : List DatasevrVolume) : Prop where
  hashSize_pos : 0 < c.hashSize
  primary_length : c.primaryVolumes.length = hashsize c.hashSize
  old_length : c.expanding = true → c.oldVolumes.length = hashsize (c.hashSize - 1)
  expandBucket_lt : c.expanding = true → c.expandBucket < hashsize (c.hashSize - 1)
  primary_sub : ∀ j v, c.primaryVolumes.Mem j v → v ∈ ins
  old_sub : c.expanding = true → ∀ j v, c.oldVolumes.Mem j v → v ∈ ins
  atHome : ∀ v ∈ ins, c.AtHome v
  distinct : (ins.map DatasevrVolume.volumeId).Nodup

lemma inv_clusterInit : Inv clusterInit [] where
  hashSize_pos := by decide
  primary_length := by simp [clusterInit]
  old_length := by simp [clusterInit]
  expandBucket_lt := by simp [clusterInit]
  primary_sub := fun j v h => absurd h mem_empty
  old_sub := by simp [clusterInit]
  atHome := by simp
  distinct := nodup_nil

variable {c c' : DatasevrCluster} {ins : List DatasevrVolume} {dv : DatasevrVolume}

lemma Inv.doClusterFind_eq (h : Inv c ins) (vid : UInt32) :
    c.doClusterFind vid = some (ins.find? fun dv => dv.volumeId == vid) := by
  -- the list in which the lookup walks exists, and holds the volume if there is one
  have hwalk : ∀ {t : Buckets DatasevrVolume} {i : ℕ}, i < t.length →
      (∀ j v, t.Mem j v → v ∈ ins) → (∀ v ∈ ins, v.volumeId = vid → t.Mem i v) →
      (t[i]?).map (fun b => b.find? fun dv => dv.volumeId == vid)
        = some (ins.find? fun dv => dv.volumeId == vid) := by
    intro t i hi hsub hmem
    have hget := getElem?_eq_getElem hi
    rw [hget, map_some, find?_key_eq (fun v hv => hsub i v ⟨_, hget, hv⟩) h.distinct]
    intro v hv hvid
    obtain ⟨b, hb, hvb⟩ := hmem v hv hvid
    rw [hget, some.injEq] at hb
    rwa [hb]
  by_cases hold : c.expanding = true ∧ c.expandBucket ≤ bucket vid (c.hashSize - 1)
  · rw [doClusterFind, if_pos (by simpa using hold)]
    refine hwalk (by rw [h.old_length hold.1]; exact bucket_lt _ _) (h.old_sub hold.1) ?_
    rintro v hv rfl
    have := h.atHome v hv
    rwa [AtHome, if_pos hold] at this
  · rw [doClusterFind, if_neg (by simpa using hold)]
    refine hwalk (by rw [h.primary_length]; exact bucket_lt _ _) h.primary_sub ?_
    rintro v hv rfl
    have := h.atHome v hv
    rwa [AtHome, if_neg hold] at this

/-! ### Inserting a volume -/

lemma Inv.congr (h : Inv c ins) (hsize : c'.hashSize = c.hashSize)
    (hbkt : c'.expandBucket = c.expandBucket) (hexp : c'.expanding = c.expanding)
    (hold : c'.oldVolumes = c.oldVolumes) (hprim : c'.primaryVolumes = c.primaryVolumes) :
    Inv c' ins := by
  obtain ⟨h1, h2, h3, h4, h5, h6, h7, h8⟩ := h
  refine ⟨?_, ?_, ?_, ?_, ?_, ?_, ?_, h8⟩ <;>
    simpa only [AtHome, hsize, hbkt, hexp, hold, hprim]

lemma Inv.countVolume (h : Inv c ins) : Inv c.countVolume ins := by
  rw [countVolume_eq]
  exact h.congr rfl rfl rfl rfl rfl

lemma Inv.distinct_cons (h : Inv c ins) (hnew : ∀ v ∈ ins, v.volumeId ≠ dv.volumeId) :
    ((dv :: ins).map DatasevrVolume.volumeId).Nodup := by
  rw [map_cons, nodup_cons]
  refine ⟨fun hmem => ?_, h.distinct⟩
  obtain ⟨v, hv, hid⟩ := List.mem_map.1 hmem
  exact hnew v hv hid

/-- In the table `t'` there is at most `dv` besides what is in `t`. -/
structure Links (dv : DatasevrVolume) (t t' : Buckets DatasevrVolume) : Prop where
  length : t'.length = t.length
  sub : ∀ j v, t'.Mem j v → v = dv ∨ t.Mem j v
  mono : ∀ j v, t.Mem j v → t'.Mem j v

lemma Links.refl (t : Buckets DatasevrVolume) : Links dv t t := ⟨rfl, fun _ _ => .inr, fun _ _ => id⟩

lemma Links.push {t t' : Buckets DatasevrVolume} {i : ℕ} (h : t.push i dv = some t') : Links dv t t' :=
  ⟨push_length h, fun _ _ hv => ((mem_push h).1 hv).imp_left And.right,
    fun _ _ hv => (mem_push h).2 (.inr hv)⟩

/-- A volume linked into the table that a lookup for it walks keeps the invariant. -/
lemma Inv.link {old primary : Buckets DatasevrVolume} (h : Inv c ins)
    (hnew : ∀ v ∈ ins, v.volumeId ≠ dv.volumeId) (hold : Links dv c.oldVolumes old)
    (hprimary : Links dv c.primaryVolumes primary)
    (hhome : AtHome { c with oldVolumes := old, primaryVolumes := primary } dv) :
    Inv { c with oldVolumes := old, primaryVolumes := primary } (dv :: ins) where
  hashSize_pos := h.hashSize_pos
  primary_length := hprimary.length.trans h.primary_length
  old_length := fun hexp => hold.length.trans (h.old_length hexp)
  expandBucket_lt := h.expandBucket_lt
  primary_sub := fun j v hv => mem_cons.2 ((hprimary.sub j v hv).imp_right (h.primary_sub j v))
  old_sub := fun hexp j v hv => mem_cons.2 ((hold.sub j v hv).imp_right (h.old_sub hexp j v))
  atHome := by
    intro v hv
    rcases mem_cons.1 hv with rfl | hv
    · exact hhome
    · have hv' := h.atHome v hv
      rw [AtHome] at hv' ⊢
      split_ifs at hv' ⊢ with hc
      · exact hold.mono _ _ hv'
      · exact hprimary.mono _ _ hv'
  distinct := h.distinct_cons hnew

lemma Inv.doClusterInsert (h : Inv c ins) (hnew : ∀ v ∈ ins, v.volumeId ≠ dv.volumeId)
    (hrange : c.expanding = true → bucket dv.volumeId c.hashSize < hashsize (c.hashSize - 1)) :
    ∃ c', c.doClusterInsert dv = some c' ∧ Inv c' (dv :: ins) := by
  -- in that range the two masks give one bucket
  have hbkt : c.expanding = true →
      bucket dv.volumeId c.hashSize = bucket dv.volumeId (c.hashSize - 1) := by
    intro hexp
    have hsize : c.hashSize = c.hashSize - 1 + 1 := by have := h.hashSize_pos; omega
    rw [hsize] at hrange ⊢
    exact bucket_succ_of_lt (by simpa using hrange hexp)
  by_cases hold : c.expanding = true ∧ c.expandBucket ≤ bucket dv.volumeId (c.hashSize - 1)
  · have hlt : bucket dv.volumeId (c.hashSize - 1) < c.oldVolumes.length := by
      rw [h.old_length hold.1]; exact bucket_lt _ _
    have ht := push_eq_some (x := dv) hlt
    refine ⟨_, ?_, (h.link hnew (.push ht) (.refl _) ?_).countVolume⟩
    swap
    · rw [AtHome, if_pos hold]
      exact (mem_push ht).2 (.inl ⟨rfl, rfl⟩)
    rw [DatasevrCluster.doClusterInsert, linkVolume, if_pos (by simpa [hbkt hold.1] using hold),
      hbkt hold.1, ht]
    rfl
  · have hlt : bucket dv.volumeId c.hashSize < c.primaryVolumes.length := by
      rw [h.primary_length]; exact bucket_lt _ _
    have ht := push_eq_some (x := dv) hlt
    refine ⟨_, ?_, (h.link hnew (.refl _) (.push ht) ?_).countVolume⟩
    swap
    · rw [AtHome, if_neg hold]
      exact (mem_push ht).2 (.inl ⟨rfl, rfl⟩)
    have hcond : ¬ (c.expanding && decide (c.expandBucket ≤ bucket dv.volumeId c.hashSize)) := by
      intro hc
      simp only [Bool.and_eq_true, decide_eq_true_eq] at hc
      exact hold ⟨hc.1, hbkt hc.1 ▸ hc.2⟩
    rw [DatasevrCluster.doClusterInsert, linkVolume, if_neg hcond, ht]
    rfl

lemma Inv.doClusterInsert_eq_none (h : Inv c ins) (hexp : c.expanding = true)
    (hrange : hashsize (c.hashSize - 1) ≤ bucket dv.volumeId c.hashSize) :
    c.doClusterInsert dv = none := by
  have hlen : c.oldVolumes.length ≤ bucket dv.volumeId c.hashSize := by
    rw [h.old_length hexp]; exact hrange
  have hbkt : c.expandBucket ≤ bucket dv.volumeId c.hashSize :=
    le_trans (le_of_lt (h.expandBucket_lt hexp)) hrange
  rw [DatasevrCluster.doClusterInsert, linkVolume, if_pos (by simp [hexp, hbkt]), push_eq_none hlen]
  rfl

/-! ### Expanding the table and migrating a bucket -/

lemma Inv.clusterExpand (h : Inv c ins) (hexp : c.expanding = false) :
    Inv (c.clusterExpand true) ins where
  hashSize_pos := Nat.succ_pos _
  primary_length := by simp [DatasevrCluster.clusterExpand]
  old_length := fun _ => h.primary_length
  expandBucket_lt := fun _ => by
    simp only [DatasevrCluster.clusterExpand, if_true, Nat.add_sub_cancel, hashsize_eq]
    exact Nat.two_pow_pos _
  primary_sub := fun j v hv => absurd hv mem_empty
  old_sub := fun _ => h.primary_sub
  atHome := by
    intro v hv
    have hhome := h.atHome v hv
    rw [AtHome, if_neg (by simp [hexp])] at hhome
    rw [AtHome, if_pos ⟨rfl, Nat.zero_le _⟩]
    exact hhome
  distinct := h.distinct

lemma mem_set_nil {t : Buckets DatasevrVolume} {i j : ℕ} {v : DatasevrVolume} :
    Buckets.Mem (t.set i []) j v ↔ j ≠ i ∧ t.Mem j v := by
  by_cases hj : j = i
  · subst hj
    simp only [Buckets.Mem, ne_eq, not_true_eq_false, false_and, iff_false]
    rintro ⟨b, hb, hv⟩
    rw [getElem?_set] at hb
    split_ifs at hb with h1 h2
    · cases hb; exact absurd hv (by simp)
    · exact h1 rfl
  · simp [Buckets.Mem, getElem?_set_ne (Ne.symm hj), hj]

/-- After the bucket `expand_bucket` has been moved, every volume is where a lookup with
the next value of `expand_bucket` walks. -/
lemma Inv.migrate_home (h : Inv c ins) (hexp : c.expanding = true)
    {moved : List DatasevrVolume} {primary : Buckets DatasevrVolume}
    (hmoved : c.oldVolumes[c.expandBucket]? = some moved)
    (hprim : pushAll (fun dv => bucket dv.volumeId c.hashSize) c.primaryVolumes moved
      = some primary) {v : DatasevrVolume} (hv : v ∈ ins) :
    if c.expandBucket + 1 ≤ bucket v.volumeId (c.hashSize - 1) then
      Buckets.Mem (c.oldVolumes.set c.expandBucket []) (bucket v.volumeId (c.hashSize - 1)) v
    else primary.Mem (bucket v.volumeId c.hashSize) v := by
  have hhome := h.atHome v hv
  by_cases hnext : c.expandBucket + 1 ≤ bucket v.volumeId (c.hashSize - 1)
  · rw [AtHome, if_pos ⟨hexp, by omega⟩] at hhome
    rw [if_pos hnext]
    exact mem_set_nil.2 ⟨by omega, hhome⟩
  · rw [if_neg hnext]
    by_cases hold : c.expandBucket ≤ bucket v.volumeId (c.hashSize - 1)
    · -- the volume stood in the bucket that has been moved
      have heq : bucket v.volumeId (c.hashSize - 1) = c.expandBucket := by omega
      rw [AtHome, if_pos ⟨hexp, hold⟩, heq] at hhome
      obtain ⟨b, hb, hvb⟩ := hhome
      rw [hmoved, some.injEq] at hb
      exact (mem_pushAll hprim).2 (Or.inl ⟨hb ▸ hvb, rfl⟩)
    · rw [AtHome, if_neg (fun hc => hold hc.2)] at hhome
      exact (mem_pushAll hprim).2 (Or.inr hhome)

/-- The migration of one bucket stays in range and keeps the invariant. -/
lemma Inv.migrateBucket (h : Inv c ins) (hexp : c.expanding = true) :
    ∃ c', c.migrateBucket = some c' ∧ Inv c' ins := by
  have hlt : c.expandBucket < c.oldVolumes.length := by
    rw [h.old_length hexp]; exact h.expandBucket_lt hexp
  obtain ⟨moved, hmoved⟩ : ∃ moved, c.oldVolumes[c.expandBucket]? = some moved :=
    ⟨_, getElem?_eq_getElem hlt⟩
  obtain ⟨primary, hprim⟩ : ∃ t, pushAll (fun dv => bucket dv.volumeId c.hashSize)
      c.primaryVolumes moved = some t :=
    exists_pushAll fun v _ => by rw [h.primary_length]; exact bucket_lt _ _
  have hmovedIns : ∀ v ∈ moved, v ∈ ins := fun v hv => h.old_sub hexp _ v ⟨moved, hmoved, hv⟩
  have hprimIns : ∀ j v, primary.Mem j v → v ∈ ins := by
    intro j v hv
    rcases (mem_pushAll hprim).1 hv with ⟨hv, -⟩ | hv
    · exact hmovedIns v hv
    · exact h.primary_sub j v hv
  have hprimLen : primary.length = hashsize c.hashSize :=
    (pushAll_length hprim).trans h.primary_length
  have hhome := fun v (hv : v ∈ ins) => h.migrate_home hexp hmoved hprim hv
  refine ⟨_, by simp [DatasevrCluster.migrateBucket, hmoved, hprim]; rfl, ?_⟩
  unfold finishBucket
  split_ifs with hlast
  · -- the last bucket: from here on every lookup walks in the primary table
    have hlast' : c.expandBucket + 1 = hashsize (c.hashSize - 1) := hlast
    refine ⟨h.hashSize_pos, hprimLen, by simp, by simp, hprimIns, by simp, ?_, h.distinct⟩
    intro v hv
    have hv' := hhome v hv
    have hb := bucket_lt v.volumeId (c.hashSize - 1)
    rw [if_neg (by omega)] at hv'
    rw [AtHome, if_neg (by simp)]
    exact hv'
  · have hlast' : c.expandBucket + 1 ≠ hashsize (c.hashSize - 1) := hlast
    refine ⟨h.hashSize_pos, hprimLen, ?_, ?_, hprimIns, ?_, ?_, h.distinct⟩
    · intro _
      exact (length_set ..).trans (h.old_length hexp)
    · intro _
      show c.expandBucket + 1 < hashsize (c.hashSize - 1)
      have := h.expandBucket_lt hexp
      omega
    · intro _ j v hv
      exact h.old_sub hexp j v (mem_set_nil.1 hv).2
    · intro v hv
      have hv' := hhome v hv
      rw [AtHome]
      simpa [hexp] using hv'

end DatasevrCluster

/-! ### Along a run -/

namespace ClusterRun

/-- The invariant of a run that has not used an index out of range. -/
def Inv (s : ClusterRun) : Prop := ∃ c, s.cluster = some c ∧ DatasevrCluster.Inv c s.inserted

lemma inv_init : Inv init := ⟨_, rfl, DatasevrCluster.inv_clusterInit⟩

lemma Inv.sound {s : ClusterRun} (h : Inv s) : Sound s := by
  obtain ⟨c, hc, hinv⟩ := h
  exact ⟨c, hc, hinv.doClusterFind_eq⟩

lemma Inv.step {s : ClusterRun} {op : ClusterOp} (h : Inv s) (hop : Enabled s op)
    (hrange : InsertInOldRange s op) : Inv (step s op) := by
  obtain ⟨c, hc, hinv⟩ := h
  cases op with
  | insert dv =>
    obtain ⟨c', hc', hinv'⟩ := hinv.doClusterInsert hop (hrange c hc)
    exact ⟨c', by simp [ClusterRun.step, hc, hc'], hinv'⟩
  | expand => exact ⟨_, by simp [ClusterRun.step, hc], hinv.clusterExpand (hop c hc)⟩
  | migrate =>
    obtain ⟨c', hc', hinv'⟩ := hinv.migrateBucket (hop c hc)
    exact ⟨c', by simp [ClusterRun.step, hc, hc'], hinv'⟩

lemma Inv.insertInOldRange_of_sound {s : ClusterRun} {op : ClusterOp} (h : Inv s)
    (hsound : Sound (ClusterRun.step s op)) : InsertInOldRange s op := by
  obtain ⟨c, hc, hinv⟩ := h
  cases op with
  | insert dv =>
    intro c₁ hc₁ hexp
    obtain rfl : c = c₁ := some.inj (hc.symm.trans hc₁)
    by_contra hrange
    obtain ⟨c', hc', -⟩ := hsound
    have hnone : c.doClusterInsert dv = none := hinv.doClusterInsert_eq_none hexp (by omega)
    simp [ClusterRun.step, hc, hnone] at hc'
  | expand | migrate => trivial

end ClusterRun

/-- **The table of volumes during an expansion.**  In every run of insertions of volumes
with distinct ids, expansions and bucket migrations from the empty table, every index
is in range and every lookup is right after every step if and only if no volume is
inserted during an expansion whose bucket in the new table lies beyond the old one. -/
theorem clusterRun_sound_iff (ops : List ClusterOp)
    (hops : Along ClusterRun.step (fun s op _ => ClusterRun.Enabled s op) ClusterRun.init ops) :
    Along ClusterRun.step (fun s op _ => ClusterRun.InsertInOldRange s op) ClusterRun.init ops ↔
      Along ClusterRun.step (fun _ _ s' => ClusterRun.Sound s') ClusterRun.init ops := by
  refine Along.iff_of_inv ClusterRun.inv_init hops ?_ ?_
  · intro s op hinv hop
    exact ⟨fun hrange => (hinv.step hop hrange).sound, hinv.insertInOldRange_of_sound⟩
  · intro s op hinv hop hrange
    exact hinv.step hop hrange

/-- The volume that `__do_insert` makes for an id that has none yet. -/
def volumeWithId (vid : UInt32) : DatasevrVolume := { volumeNew with volumeId := vid }

/-- Three volumes, the expansion that they set off, and a volume whose id has the new
top bit. -/
def insertBeyondOldTable : List ClusterOp :=
  [.insert (volumeWithId 0), .insert (volumeWithId 1), .insert (volumeWithId 2), .expand,
    .insert (volumeWithId 4)]

/-- The last insertion of `insertBeyondOldTable` writes past the end of the old table. -/
theorem insertBeyondOldTable_not_sound :
    Along ClusterRun.step (fun s op _ => ClusterRun.Enabled s op) ClusterRun.init
        insertBeyondOldTable ∧
      ¬ Along ClusterRun.step (fun _ _ s' => ClusterRun.Sound s') ClusterRun.init
        insertBeyondOldTable := by
  refine ⟨by decide, fun h => ?_⟩
  have hsome : Along ClusterRun.step (fun _ _ s' => s'.cluster.isSome = true) ClusterRun.init
      insertBeyondOldTable := h.mono fun s op s' ⟨c, hc, _⟩ => by simp [hc]
  exact absurd hsome (by decide)

/-- A run through a whole expansion, with an insertion in the range of the old table
while it is going on. -/
theorem clusterRun_sound_insertDuringExpansion :
    Along ClusterRun.step (fun _ _ s' => ClusterRun.Sound s') ClusterRun.init
      [.insert (volumeWithId 0), .insert (volumeWithId 5), .insert (volumeWithId 2), .expand, .migrate,
        .insert (volumeWithId 8), .insert (volumeWithId 3), .migrate, .migrate, .migrate] :=
  (clusterRun_sound_iff _ (by decide)).1 (by decide)

end Lfs.Tracker
