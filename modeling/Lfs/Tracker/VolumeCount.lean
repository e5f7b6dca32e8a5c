/-
The count of the volumes (`primary_volume_count` in `ts_cluster.c`).

`do_cluster_insert` counts every volume, whichever table it is linked into.  An expansion sets the
count to zero, and the maintenance thread counts the volumes again as it moves them.  So a volume that
is linked into the old table is counted twice.
-/
import Lfs.Tracker.Cluster

namespace Lfs.Tracker

open Lfs.Lib DatasevrCluster

namespace DatasevrCluster

/-- The number of the volumes in the primary table. -/
def linkedVolumes (c : DatasevrCluster) : ℕ := c.primaryVolumes.flatten.length

/-- `do_cluster_insert` links the volume into the old table. -/
def InsertsOld (c : DatasevrCluster) (dv : DatasevrVolume) : Prop :=
  c.expanding = true ∧ c.expandBucket ≤ bucket dv.volumeId c.hashSize

instance (c : DatasevrCluster) (dv : DatasevrVolume) : Decidable (c.InsertsOld dv) :=
  inferInstanceAs (Decidable (_ ∧ _))

/-- `__cluster_expand` in the maintenance thread.  If there is no memory the thread goes back to wait,
with `is_started_expanding` cleared. -/
def maintenanceExpand (alloc : Bool) (c : DatasevrCluster) : DatasevrCluster :=
  if alloc then c.clusterExpand true
  else { c.clusterExpand false with isStartedExpanding := false }

/-- The count is the number of the volumes in the primary table, and the next insertion wakes the
maintenance thread exactly if this number is then over half the size of the table. -/
def Counts (c : DatasevrCluster) : Prop :=
  c.primaryVolumeCount = c.linkedVolumes ∧
    ∀ dv c', c.doClusterInsert dv = some c' → c.isStartedExpanding = false →
      (c'.isStartedExpanding = true ↔ hashsize c'.hashSize / 2 < c'.linkedVolumes)

end DatasevrCluster

/-! ### Runs -/

/-- What the threads do to the table. -/
inductive CountOp where
  | insert (dv : DatasevrVolume)
  /-- `__cluster_expand`; `alloc` is whether the new table could be allocated. -/
  | expand (alloc : Bool)
  | migrate
deriving DecidableEq

/-- A run of the table, with the number of the volumes that have been inserted into the old table since
the last expansion began. -/
structure CountRun where
  table : ClusterRun
  oldInserts : ℕ

namespace CountRun

def init : CountRun := ⟨ClusterRun.init, 0⟩

def step (s : CountRun) : CountOp → CountRun
  | .insert dv =>
    { table := s.table.step (.insert dv)
      oldInserts := if ∃ c ∈ s.table.cluster, c.InsertsOld dv then s.oldInserts + 1 else s.oldInserts }
  | .expand alloc =>
    { table := { s.table with
        cluster := s.table.cluster.map (DatasevrCluster.maintenanceExpand alloc) }
      oldInserts := if alloc then 0 else s.oldInserts }
  | .migrate => { s with table := s.table.step .migrate }

/-- The ids of the volumes are distinct, all indices are in range, and the maintenance thread expands
the table only when no expansion is going on and migrates a bucket only when one is. -/
def Enabled (s : CountRun) : CountOp → Prop
  | .insert dv => s.table.Enabled (.insert dv) ∧ s.table.InsertInOldRange (.insert dv)
  | .expand _ => s.table.Enabled .expand
  | .migrate => s.table.Enabled .migrate

instance (s : CountRun) : DecidablePred s.Enabled
  | .insert dv => inferInstanceAs (Decidable (s.table.Enabled (.insert dv) ∧
      s.table.InsertInOldRange (.insert dv)))
  | .expand _ => inferInstanceAs (Decidable (s.table.Enabled .expand))
  | .migrate => inferInstanceAs (Decidable (s.table.Enabled .migrate))

end CountRun

/-! ### One step -/

namespace DatasevrCluster

variable {c c' : DatasevrCluster} {dv : DatasevrVolume} {n : ℕ}

/-- The count is too large by `n`. -/
def CountsOver (n : ℕ) (c : DatasevrCluster) : Prop :=
  c.primaryVolumeCount = c.linkedVolumes + n

lemma countsOver_clusterInit : clusterInit.CountsOver 0 := rfl

lemma CountsOver.doClusterInsert (h : c.CountsOver n) (hc' : c.doClusterInsert dv = some c') :
    c'.CountsOver (if c.InsertsOld dv then n + 1 else n) := by
  rw [CountsOver] at h
  obtain ⟨hold, t, -, rfl⟩ | ⟨hold, t, ht, rfl⟩ := doClusterInsert_cases hc'
  · have hinserts : c.InsertsOld dv := hold
    rw [if_pos hinserts]
    show c.primaryVolumeCount + 1 = c.linkedVolumes + (n + 1)
    omega
  · have hlength : t.flatten.length = c.linkedVolumes + 1 :=
      (Buckets.flatten_push_perm ht).length_eq
    have hinserts : ¬ c.InsertsOld dv := hold
    rw [if_neg hinserts]
    show c.primaryVolumeCount + 1 = t.flatten.length + n
    omega

lemma CountsOver.maintenanceExpand (h : c.CountsOver n) (alloc : Bool) :
    (c.maintenanceExpand alloc).CountsOver (if alloc then 0 else n) := by
  cases alloc with
  | true => simp [CountsOver, DatasevrCluster.maintenanceExpand, clusterExpand, linkedVolumes]
  | false => exact h

lemma CountsOver.migrateBucket (h : c.CountsOver n) (hc' : c.migrateBucket = some c') :
    c'.CountsOver n := by
  rw [CountsOver] at h
  obtain ⟨moved, primary, -, hprimary, rfl⟩ := migrateBucket_cases hc'
  have hlength : primary.flatten.length = moved.length + c.linkedVolumes := by
    rw [linkedVolumes, ← List.length_append]
    exact (Buckets.flatten_pushAll_perm hprimary).length_eq
  have hcount : c.primaryVolumeCount + moved.length = primary.flatten.length + n := by omega
  rw [finishBucket]
  split_ifs
  · exact hcount
  · exact hcount

lemma counts_iff (hexp : c.expanding = false) (h : c.CountsOver n) : c.Counts ↔ n = 0 := by
  rw [CountsOver] at h
  constructor
  · rintro ⟨hcount, -⟩
    omega
  · rintro rfl
    refine ⟨h, fun dv c' hc' hstarted => ?_⟩
    obtain ⟨⟨hold, -⟩, -⟩ | ⟨-, t, ht, rfl⟩ := doClusterInsert_cases hc'
    · exact absurd (hexp.symm.trans hold) (by simp)
    · have hlength : t.flatten.length = c.linkedVolumes + 1 :=
        (Buckets.flatten_push_perm ht).length_eq
      show c.signalled = true ↔ hashsize c.hashSize / 2 < t.flatten.length
      simp [signalled, hstarted, hexp, h, hlength]

end DatasevrCluster

/-! ### Along a run -/

namespace CountRun

/-- The table is there, with its invariant, and the count is too large by the number of the volumes
that have been inserted into the old table. -/
structure Inv (s : CountRun) (c : DatasevrCluster) : Prop where
  cluster : s.table.cluster = some c
  inv : c.Inv s.table.inserted
  counts : c.CountsOver s.oldInserts

lemma inv_init : init.Inv .clusterInit :=
  ⟨rfl, inv_clusterInit, countsOver_clusterInit⟩

lemma inv_maintenanceExpand {c : DatasevrCluster} {ins : List DatasevrVolume} (h : c.Inv ins)
    (hexp : c.expanding = false) (alloc : Bool) : (c.maintenanceExpand alloc).Inv ins := by
  cases alloc with
  | true => exact h.clusterExpand hexp
  | false => exact h.congr rfl rfl rfl rfl rfl

lemma Inv.step {s : CountRun} {c : DatasevrCluster} {op : CountOp} (h : s.Inv c)
    (hop : s.Enabled op) : ∃ c', (s.step op).Inv c' := by
  obtain ⟨hc, hinv, hcounts⟩ := h
  cases op with
  | insert dv =>
    obtain ⟨c', hc', hinv'⟩ := hinv.doClusterInsert hop.1 (hop.2 c hc)
    refine ⟨c', ?_, hinv', ?_⟩
    · show s.table.cluster.bind _ = some c'
      rw [hc]
      exact hc'
    · have hold : (∃ c ∈ s.table.cluster, c.InsertsOld dv) ↔ c.InsertsOld dv := by simp [hc]
      show c'.CountsOver (if _ then _ else _)
      simp only [hold]
      exact hcounts.doClusterInsert hc'
  | expand alloc =>
    refine ⟨c.maintenanceExpand alloc, ?_, inv_maintenanceExpand hinv (hop c hc) alloc,
      hcounts.maintenanceExpand alloc⟩
    show s.table.cluster.map _ = some _
    rw [hc]
    rfl
  | migrate =>
    obtain ⟨c', hc', hinv'⟩ := hinv.migrateBucket (hop c hc)
    refine ⟨c', ?_, hinv', hcounts.migrateBucket hc'⟩
    show s.table.cluster.bind _ = some c'
    rw [hc]
    exact hc'

end CountRun

/-- **The count of the volumes.**  After every run of insertions of distinct volumes with indices in
range, expansions with and without memory and migrations, when no expansion is going on, the count is
the number of the volumes in the primary table, and gives the signal for the next expansion when this
number comes over half the size of the table, exactly if no volume was inserted into the old table
during the last expansion. -/
theorem volumeCount_eq_iff (ops : List CountOp)
    (hops : Along CountRun.step (fun s op _ => s.Enabled op) CountRun.init ops) :
    ∃ c, (run CountRun.step CountRun.init ops).table.cluster = some c ∧ (c.expanding = false →
        (c.Counts ↔ (run CountRun.step CountRun.init ops).oldInserts = 0)) := by
  obtain ⟨c, hc, -, hcounts⟩ := hops.inv (I := fun s => ∃ c, s.Inv c)
    ⟨_, CountRun.inv_init⟩ fun s op ⟨c, hc⟩ hop => hc.step hop
  exact ⟨c, hc, fun hexp => counts_iff hexp hcounts⟩

/-- Three volumes and the expansion that they set off, with a volume that is inserted when the first
bucket has been moved. -/
def insertWhileExpanding (vid : UInt32) : List CountOp :=
  [.insert (volumeWithId 0), .insert (volumeWithId 1), .insert (volumeWithId 2), .expand false,
    .expand true, .migrate, .insert (volumeWithId vid), .migrate, .migrate, .migrate]

/-- The volume 8 belongs to the bucket that has been moved, and is counted once. -/
theorem volumeCount_movedBucket :
    ∃ c, (run CountRun.step CountRun.init (insertWhileExpanding 8)).table.cluster = some c ∧
      c.expanding = false ∧ c.primaryVolumeCount = 4 ∧ c.Counts := by
  obtain ⟨c, hc, hiff⟩ := volumeCount_eq_iff (insertWhileExpanding 8) (by decide)
  have hmap : (run CountRun.step CountRun.init (insertWhileExpanding 8)).table.cluster.map
      (fun c => (c.expanding, c.primaryVolumeCount)) = some (false, 4) := by decide
  rw [hc, Option.map_some, Option.some.injEq, Prod.mk.injEq] at hmap
  exact ⟨c, hc, hmap.1, hmap.2, (hiff hmap.1).2 (by decide)⟩

/-- The volume 3 belongs to a bucket that has not been moved.  There are four volumes, and five are
counted. -/
theorem volumeCount_oldBucket_not_eq :
    Along CountRun.step (fun s op _ => s.Enabled op) CountRun.init (insertWhileExpanding 3) ∧
      (run CountRun.step CountRun.init (insertWhileExpanding 3)).table.cluster.map
        (fun c => (c.expanding, c.linkedVolumes, c.primaryVolumeCount)) = some (false, 4, 5) := by
  decide

end Lfs.Tracker
