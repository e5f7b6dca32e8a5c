/-
The locks of the maintenance thread (`__cluster_maintenance_thread` in `ts_cluster.c`).

The thread takes `cluster_maintenance_lock` when it starts and gives it up only while it waits for a
signal.  Before an expansion it takes `snapshot_lock`, and it releases it when the last bucket has
been moved or when the new table cannot be allocated.  But the loop is left without a release, and
`snapshot_thread_stop` and `cluster_destroy` then wait for ever.
-/
import Lfs.Tracker.Cluster

namespace Lfs.Tracker

open Lfs.Lib

/-! ### The thread -/

inductive MutexOwner where
  | free
  | thread
  | other
deriving DecidableEq

inductive MaintenancePc where
  /-- Before it takes `cluster_maintenance_lock`. -/
  | init
  /-- At the test of `do_run_cluster_maintenance_thread`. -/
  | loop
  | migrate
  /-- In `pthread_cond_wait`. -/
  | wait
  /-- In `pthread_cond_wait`, after the signal. -/
  | woken
  /-- Before `snapshot_hangup`. -/
  | hangup
  /-- Before `__cluster_expand`. -/
  | expand
  | returned
deriving DecidableEq

/-- The maintenance thread and what it shares with the other threads. -/
structure Maintenance where
  pc : MaintenancePc
  /-- `do_run_cluster_maintenance_thread`. -/
  doRun : Bool
  /-- `clusters`, or `none` once an index was out of range. -/
  cluster : Option DatasevrCluster
  maintenanceLock : MutexOwner
  snapshotLock : MutexOwner

inductive MaintenanceOp where
  /-- The next step of the thread.  `alloc` is whether a table can be allocated, `trylock` whether a
  bucket is free. -/
  | thread (alloc trylock : Bool)
  /-- A waiting thread may wake up without a signal. -/
  | wakeup
  | insert (dv : DatasevrVolume)
  /-- `cluster_maintenance_thread_stop` and others take `cluster_maintenance_lock`. -/
  | lockMaintenance
  | unlockMaintenance
  /-- `cluster_maintenance_thread_stop` clears the flag and signals. -/
  | stop
  /-- The snapshot thread and others take `snapshot_lock`. -/
  | lockSnapshot
  | unlockSnapshot
deriving DecidableEq

namespace Maintenance

/-- The thread has been created; the table is empty. -/
def start : Maintenance := ⟨.init, true, some .clusterInit, .free, .free⟩

/-- `pthread_cond_signal` of `cluster_maintenance_cond`. -/
def signal (r : Maintenance) : Maintenance :=
  if r.pc = .wait then { r with pc := .woken } else r

/-- A round of the loop that moves the buckets, or the way to `pthread_cond_wait`. -/
def migrate (trylock : Bool) (r : Maintenance) : Maintenance :=
  match r.cluster with
  | none => r
  | some c =>
    if c.expanding then
      if trylock then
        match c.migrateBucket with
        | none => { r with cluster := none }
        | some c =>
          -- `snapshot_wakeup` after the last bucket
          { r with
            cluster := some c
            snapshotLock := if c.expanding then r.snapshotLock else .free }
      else r
    else
      { r with
        pc := .wait
        cluster := some { c with isStartedExpanding := false }
        maintenanceLock := .free }

/-- `__cluster_expand`, with `snapshot_wakeup` if there is no memory. -/
def expand (alloc : Bool) (r : Maintenance) : Maintenance :=
  match r.cluster with
  | none => r
  | some c =>
    { r with
      pc := .loop
      cluster := some (c.clusterExpand alloc)
      snapshotLock := if alloc then r.snapshotLock else .free }

/-- The next step of the thread.  It stays where it is while a mutex is held by another. -/
def threadStep (alloc trylock : Bool) (r : Maintenance) : Maintenance :=
  match r.pc with
  | .init =>
    if r.maintenanceLock = .free then { r with pc := .loop, maintenanceLock := .thread } else r
  | .loop => if r.doRun then { r with pc := .migrate } else { r with pc := .returned }
  | .migrate => r.migrate trylock
  | .wait => r
  | .woken =>
    if r.maintenanceLock = .free then { r with pc := .hangup, maintenanceLock := .thread } else r
  | .hangup =>
    if r.snapshotLock = .free then { r with pc := .expand, snapshotLock := .thread } else r
  | .expand => r.expand alloc
  | .returned => r

/-- `do_cluster_insert`, with the signal of `__cluster_start_expand`. -/
def insert (dv : DatasevrVolume) (r : Maintenance) : Maintenance :=
  match r.cluster with
  | none => r
  | some c =>
    match c.doClusterInsert dv with
    | none => { r with cluster := none }
    | some c' =>
      let r := { r with cluster := some c' }
      if !c.isStartedExpanding && c'.isStartedExpanding then r.signal else r

def step (r : Maintenance) : MaintenanceOp → Maintenance
  | .thread alloc trylock => r.threadStep alloc trylock
  | .wakeup => r.signal
  | .insert dv => r.insert dv
  | .lockMaintenance =>
    if r.maintenanceLock = .free then { r with maintenanceLock := .other } else r
  | .unlockMaintenance =>
    if r.maintenanceLock = .other then { r with maintenanceLock := .free } else r
  | .stop => if r.maintenanceLock = .other then { r with doRun := false }.signal else r
  | .lockSnapshot => if r.snapshotLock = .free then { r with snapshotLock := .other } else r
  | .unlockSnapshot => if r.snapshotLock = .other then { r with snapshotLock := .free } else r

/-- A thread in `pthread_cond_wait` does not hold `snapshot_lock`. -/
def WaitsFree (r : Maintenance) : Prop :=
  r.pc = .wait ∨ r.pc = .woken → r.snapshotLock ≠ .thread

/-- A thread that has returned holds neither mutex. -/
def LeavesFree (r : Maintenance) : Prop :=
  r.pc = .returned → r.snapshotLock ≠ .thread ∧ r.maintenanceLock ≠ .thread

instance : DecidablePred WaitsFree := fun r =>
  inferInstanceAs (Decidable (r.pc = .wait ∨ r.pc = .woken → r.snapshotLock ≠ .thread))

instance : DecidablePred LeavesFree := fun r =>
  inferInstanceAs (Decidable (r.pc = .returned → _ ∧ _))

/-- The thread does not find that it has been stopped. -/
def Continues (r : Maintenance) : MaintenanceOp → Prop
  | .thread _ _ => r.pc = .loop → r.doRun = true
  | _ => True

end Maintenance

/-! ### Which mutex is held where -/

/-- The thread does not hold `cluster_maintenance_lock`. -/
def MaintenancePc.outside : MaintenancePc → Bool
  | .init | .wait | .woken => true
  | _ => false

/-- No expansion is going on, or it has not been begun. -/
def MaintenancePc.still : MaintenancePc → Bool
  | .init | .wait | .woken | .hangup | .expand => true
  | _ => false

namespace Maintenance

variable {r : Maintenance}

/-- `snapshot_lock` is held before an expansion is begun and while it is going on, and
`cluster_maintenance_lock` always but while the thread waits. -/
structure Inv (r : Maintenance) : Prop where
  maintenance : r.pc.outside = false → r.maintenanceLock = .thread
  before : r.pc.still = true → (r.snapshotLock = .thread ↔ r.pc = .expand)
  still : r.pc.still = true → ∀ c ∈ r.cluster, c.expanding = false
  moving : r.pc.still = false → ∀ c ∈ r.cluster, (r.snapshotLock = .thread ↔ c.expanding = true)

lemma inv_of_still (hpc : r.pc.still = true)
    (hmaintenance : r.pc.outside = false → r.maintenanceLock = .thread)
    (hsnapshot : r.snapshotLock = .thread ↔ r.pc = .expand)
    (hcluster : ∀ c ∈ r.cluster, c.expanding = false) : r.Inv :=
  ⟨hmaintenance, fun _ => hsnapshot, fun _ => hcluster,
    fun hmoving => absurd (hpc.symm.trans hmoving) (by simp)⟩

lemma inv_of_moving (hpc : r.pc.still = false) (hmaintenance : r.maintenanceLock = .thread)
    (hcluster : ∀ c ∈ r.cluster, (r.snapshotLock = .thread ↔ c.expanding = true)) : r.Inv :=
  ⟨fun _ => hmaintenance, fun hstill => absurd (hpc.symm.trans hstill) (by simp),
    fun hstill => absurd (hpc.symm.trans hstill) (by simp), fun _ => hcluster⟩

lemma inv_start : start.Inv := by
  refine inv_of_still rfl nofun (by decide) ?_
  rintro _ ⟨⟩
  rfl

lemma Inv.of_frame {r' : Maintenance} (h : r.Inv) (hpc : r'.pc = r.pc)
    (hmaintenance : r'.maintenanceLock = .thread ↔ r.maintenanceLock = .thread)
    (hsnapshot : r'.snapshotLock = .thread ↔ r.snapshotLock = .thread)
    (hcluster : ∀ c' ∈ r'.cluster, ∃ c ∈ r.cluster, c'.expanding = c.expanding) : r'.Inv := by
  obtain ⟨hmaint, hbefore, hstill, hmoving⟩ := h
  rw [← hpc] at hmaint hbefore hstill hmoving
  refine ⟨fun ho => hmaintenance.2 (hmaint ho), fun ho => hsnapshot.trans (hbefore ho),
    fun ho c' hc' => ?_, fun ho c' hc' => ?_⟩
  · obtain ⟨c, hc, heq⟩ := hcluster c' hc'
    rw [heq]
    exact hstill ho c hc
  · obtain ⟨c, hc, heq⟩ := hcluster c' hc'
    rw [hsnapshot, heq]
    exact hmoving ho c hc

lemma Inv.signal (h : r.Inv) : r.signal.Inv := by
  rw [Maintenance.signal]
  split_ifs with hpc
  · obtain ⟨-, hbefore, hstill, -⟩ := h
    rw [hpc] at hbefore hstill
    have hsnapshot : r.snapshotLock ≠ .thread := mt (hbefore rfl).1 (by decide)
    exact inv_of_still rfl nofun (iff_of_false hsnapshot (by simp)) (hstill rfl)
  · exact h

lemma Inv.insert (h : r.Inv) (dv : DatasevrVolume) : (r.insert dv).Inv := by
  rw [Maintenance.insert]
  cases hc : r.cluster with
  | none => exact h
  | some c =>
    dsimp only
    cases hinsert : c.doClusterInsert dv with
    | none => exact h.of_frame rfl Iff.rfl Iff.rfl nofun
    | some c' =>
      have hinv : Inv { r with cluster := some c' } := by
        refine h.of_frame rfl Iff.rfl Iff.rfl ?_
        rintro _ ⟨⟩
        exact ⟨c, hc, (DatasevrCluster.sizes_doClusterInsert hinsert).2⟩
      dsimp only
      split_ifs
      · exact hinv.signal
      · exact hinv

/-- A round of the loop that moves the buckets: the expansion has ended exactly if `snapshot_lock` is
released. -/
lemma Inv.migrate (h : r.Inv) (hpc : r.pc = .migrate) (trylock : Bool) :
    (r.migrate trylock).Inv := by
  have hstill : r.pc.still = false := by rw [hpc]; rfl
  have hlock : r.maintenanceLock = .thread := h.maintenance (by rw [hpc]; rfl)
  rw [Maintenance.migrate]
  cases hc : r.cluster with
  | none => exact h
  | some c =>
    have hsnapshot := h.moving hstill c hc
    dsimp only
    split_ifs with hexp htry
    · cases c.migrateBucket with
      | none => exact inv_of_moving hstill hlock nofun
      | some c' =>
        refine inv_of_moving hstill hlock ?_
        rintro _ ⟨⟩
        cases hexp' : c'.expanding with
        | false => simp [hexp']
        | true => simpa [hexp'] using hsnapshot.2 hexp
    · exact h
    · -- nothing is left to move, so `snapshot_lock` has been released
      refine inv_of_still rfl nofun (iff_of_false (mt hsnapshot.1 hexp) (by simp)) ?_
      rintro _ ⟨⟩
      exact Bool.eq_false_of_not_eq_true hexp

/-- An expansion is begun with `snapshot_lock` held, or it is released. -/
lemma Inv.expand (h : r.Inv) (hpc : r.pc = .expand) (alloc : Bool) : (r.expand alloc).Inv := by
  have hstill : r.pc.still = true := by rw [hpc]; rfl
  have hlock : r.maintenanceLock = .thread := h.maintenance (by rw [hpc]; rfl)
  have hsnapshot : r.snapshotLock = .thread := (h.before hstill).2 hpc
  rw [Maintenance.expand]
  cases hc : r.cluster with
  | none => exact h
  | some c =>
    refine inv_of_moving rfl hlock ?_
    rintro _ ⟨⟩
    cases alloc with
    | true => simp [hsnapshot, DatasevrCluster.clusterExpand]
    | false => simp [DatasevrCluster.clusterExpand, h.still hstill c hc]

lemma Inv.threadStep (h : r.Inv) (alloc trylock : Bool) : (r.threadStep alloc trylock).Inv := by
  rw [Maintenance.threadStep]
  split
  case h_1 hpc =>
    split_ifs
    · obtain ⟨-, hbefore, hstill, -⟩ := h
      rw [hpc] at hbefore hstill
      refine inv_of_moving rfl rfl fun c hc => iff_of_false (mt (hbefore rfl).1 (by decide)) ?_
      simp [hstill rfl c hc]
    · exact h
  case h_2 hpc =>
    have hstill : r.pc.still = false := by rw [hpc]; rfl
    have hlock : r.maintenanceLock = .thread := h.maintenance (by rw [hpc]; rfl)
    split_ifs
    · exact inv_of_moving rfl hlock (h.moving hstill)
    · exact inv_of_moving rfl hlock (h.moving hstill)
  case h_3 hpc => exact h.migrate hpc trylock
  case h_4 | h_8 => exact h
  case h_5 hpc =>
    split_ifs
    · obtain ⟨-, hbefore, hstill, -⟩ := h
      rw [hpc] at hbefore hstill
      exact inv_of_still rfl (fun _ => rfl)
        (iff_of_false (mt (hbefore rfl).1 (by decide)) (by simp)) (hstill rfl)
    · exact h
  case h_6 hpc =>
    split_ifs
    · have hstill : r.pc.still = true := by rw [hpc]; rfl
      have hlock : r.maintenanceLock = .thread := h.maintenance (by rw [hpc]; rfl)
      exact inv_of_still rfl (fun _ => hlock) (iff_of_true rfl rfl) (h.still hstill)
    · exact h
  case h_7 hpc => exact h.expand hpc alloc

lemma Inv.step (h : r.Inv) (op : MaintenanceOp) : (r.step op).Inv := by
  have hsame : ∀ c ∈ r.cluster, ∃ c' ∈ r.cluster, c.expanding = c'.expanding :=
    fun c hc => ⟨c, hc, rfl⟩
  cases op with
  | thread alloc trylock => exact h.threadStep alloc trylock
  | wakeup => exact h.signal
  | insert dv => exact h.insert dv
  | lockMaintenance =>
    rw [Maintenance.step]
    split_ifs with hfree
    · exact h.of_frame rfl (by simp [hfree]) Iff.rfl hsame
    · exact h
  | unlockMaintenance =>
    rw [Maintenance.step]
    split_ifs with hother
    · exact h.of_frame rfl (by simp [hother]) Iff.rfl hsame
    · exact h
  | stop =>
    rw [Maintenance.step]
    split_ifs
    · have hstopped : Inv { r with doRun := false } := h.of_frame rfl Iff.rfl Iff.rfl hsame
      exact hstopped.signal
    · exact h
  | lockSnapshot =>
    rw [Maintenance.step]
    split_ifs with hfree
    · exact h.of_frame rfl Iff.rfl (by simp [hfree]) hsame
    · exact h
  | unlockSnapshot =>
    rw [Maintenance.step]
    split_ifs with hother
    · exact h.of_frame rfl Iff.rfl (by simp [hother]) hsame
    · exact h

/-! ### When the thread returns -/

lemma pc_signal : r.signal.pc = .returned ↔ r.pc = .returned := by
  rw [signal]
  split_ifs with hpc
  · simp [hpc]
  · rfl

lemma pc_insert (dv : DatasevrVolume) : (r.insert dv).pc = .returned ↔ r.pc = .returned := by
  rw [insert]
  cases r.cluster with
  | none => rfl
  | some c =>
    dsimp only
    cases c.doClusterInsert dv with
    | none => rfl
    | some c' =>
      dsimp only
      split_ifs
      · exact pc_signal
      · rfl

lemma pc_migrate (hpc : r.pc = .migrate) (trylock : Bool) : (r.migrate trylock).pc ≠ .returned := by
  rw [migrate]
  cases r.cluster with
  | none => simp [hpc]
  | some c =>
    dsimp only
    split_ifs
    · cases c.migrateBucket <;> simp [hpc]
    · simp [hpc]
    · simp

lemma pc_expand (hpc : r.pc = .expand) (alloc : Bool) : (r.expand alloc).pc ≠ .returned := by
  rw [expand]
  cases r.cluster <;> simp [hpc]

/-- The thread returns exactly when it finds that it has been stopped. -/
lemma returned_step_iff (hpc : r.pc ≠ .returned) (op : MaintenanceOp) :
    (r.step op).pc = .returned ↔ ¬ r.Continues op := by
  cases op with
  | thread alloc trylock =>
    rw [step, Continues, threadStep]
    split
    case h_1 hat | h_5 hat | h_6 hat => split_ifs <;> simp [hat]
    case h_2 hloop =>
      split_ifs with hrun
      · simp [hrun]
      · simp [hrun, hloop]
    case h_3 hmigrate => simp [pc_migrate hmigrate, hmigrate]
    case h_4 hwait => simp [hwait]
    case h_7 hexpand => simp [pc_expand hexpand, hexpand]
    case h_8 hreturned => exact absurd hreturned hpc
  | wakeup => simp [step, Continues, pc_signal, hpc]
  | insert dv => simp [step, Continues, pc_insert, hpc]
  | lockMaintenance | unlockMaintenance | lockSnapshot | unlockSnapshot =>
    rw [step]
    split_ifs <;> simp [Continues, hpc]
  | stop =>
    rw [step]
    split_ifs <;> simp [Continues, pc_signal, hpc]

lemma Inv.not_leavesFree (h : r.Inv) (hpc : r.pc = .returned) : ¬ r.LeavesFree := by
  intro hfree
  exact (hfree hpc).2 (h.maintenance (by rw [hpc]; rfl))

lemma Inv.waitsFree (h : r.Inv) : r.WaitsFree := by
  rintro (hpc | hpc)
  · exact mt (h.before (by rw [hpc]; rfl)).1 (by simp [hpc])
  · exact mt (h.before (by rw [hpc]; rfl)).1 (by simp [hpc])

/-- **The locks of the maintenance thread.**  The thread never waits with `snapshot_lock`.  It holds
neither mutex after it has returned exactly if it does not return, that is, it never finds that it
has been stopped: a thread that has returned still holds `cluster_maintenance_lock`. -/
theorem locks_released_iff (ops : List MaintenanceOp) :
    Along step (fun _ _ r' => r'.WaitsFree) start ops ∧
      (Along step (fun r op _ => r.Continues op) start ops ↔
        Along step (fun _ _ r' => r'.LeavesFree) start ops) := by
  constructor
  · exact Along.of_inv (R := fun _ _ _ => True) inv_start (Along.of_forall fun _ _ _ => trivial)
      fun r op h _ => ⟨h.step op, (h.step op).waitsFree⟩
  · refine Along.iff_of_inv' (I := fun r => r.Inv ∧ r.pc ≠ .returned) ⟨inv_start, by decide⟩ ?_ ?_
    · rintro r op ⟨h, hpc⟩
      have hiff := returned_step_iff hpc op
      constructor
      · intro hcontinues hreturned
        exact absurd hcontinues (hiff.1 hreturned)
      · intro hfree
        by_contra hstopped
        exact (h.step op).not_leavesFree (hiff.2 hstopped) hfree
    · rintro r op ⟨h, hpc⟩ hcontinues
      exact ⟨h.step op, fun hreturned => (returned_step_iff hpc op).1 hreturned hcontinues⟩

/-- The thread goes to wait, is stopped, and begins an expansion before it looks at the flag. -/
def stoppedRun : List MaintenanceOp :=
  [.thread true true, .thread true true, .thread true true, .lockMaintenance, .stop,
    .unlockMaintenance, .thread true true, .thread true true, .thread true true, .thread true true]

/-- It has returned then, with both mutexes. -/
theorem stoppedRun_not_released :
    ¬ Along step (fun _ _ r' => r'.WaitsFree ∧ r'.LeavesFree) start stoppedRun ∧
      (run step start stoppedRun).snapshotLock = .thread ∧
      (run step start stoppedRun).maintenanceLock = .thread := by
  decide +kernel

end Maintenance

end Lfs.Tracker
