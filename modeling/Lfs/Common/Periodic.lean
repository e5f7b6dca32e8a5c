/-
The periodic jobs of the two servers (`dataserverd.c`, `trackerd.c`).

The main program schedules each job once with `sched_timer`, and the callback of the job schedules its
next run at its end.  The interval is a configuration item in seconds, and the microseconds are computed
as `interval * (1000 * 1000)`, a product of two `int`s.

The jobs run on the timers of `SchedTimer`.  Whatever the product is, two runs of a job are apart by at
least so many microseconds (`Periodic.spaced_runTimes`).
-/
import Lfs.Common.SchedTimer
import Mathlib.Data.List.Chain

namespace Lfs.Common

open Lfs.Lib List Option Sched

/-! ### The callbacks -/

/-- The callbacks that schedule themselves. -/
inductive PeriodicJob where
  | mntBlockStatSnapshotCb
  | blockVfsStatisticsCb
  | localBinlogFlushCb
  | remoteBinlogFlushCb
  | snapshotSchedtimerCb
deriving DecidableEq

/-- The intervals of the configurations of the servers, in seconds. -/
structure Intervals where
  blockSnapshotInterval : Int32
  blockVfsInterval : Int32
  binlogFlushInterval : Int32
  snapshotThreadInterval : Int32

/-- `sched_timer(interval * (1000 * 1000), cb, NULL)`, up to `timer_add`. -/
def schedPeriodic (interval : Int32) (cb : PeriodicJob) (a : ℕ) (now : ℤ) (s : Sched PeriodicJob) :
    Sched PeriodicJob :=
  s.schedTimer a now (interval * (1000 * 1000)).toInt (some cb) [0]

namespace Intervals

variable (conf : Intervals)

/-- `mnt_block_stat_snapshot_cb`, after its work. -/
def mntBlockStatSnapshotCb : ℕ → ℤ → Sched PeriodicJob → Sched PeriodicJob :=
  schedPeriodic conf.blockSnapshotInterval .mntBlockStatSnapshotCb

/-- `block_vfs_statistics_cb`, after its work. -/
def blockVfsStatisticsCb : ℕ → ℤ → Sched PeriodicJob → Sched PeriodicJob :=
  schedPeriodic conf.blockVfsInterval .blockVfsStatisticsCb

/-- `local_binlog_flush_cb`, after its work. -/
def localBinlogFlushCb : ℕ → ℤ → Sched PeriodicJob → Sched PeriodicJob :=
  schedPeriodic conf.binlogFlushInterval .localBinlogFlushCb

/-- `remote_binlog_flush_cb`, after its work. -/
def remoteBinlogFlushCb : ℕ → ℤ → Sched PeriodicJob → Sched PeriodicJob :=
  schedPeriodic conf.binlogFlushInterval .remoteBinlogFlushCb

/-- `snapshot_schedtimer_cb`, after its work. -/
def snapshotSchedtimerCb : ℕ → ℤ → Sched PeriodicJob → Sched PeriodicJob :=
  schedPeriodic conf.snapshotThreadInterval .snapshotSchedtimerCb

/-- The callback of a job.  The main programs make the same call for the first run. -/
def callback : PeriodicJob → ℕ → ℤ → Sched PeriodicJob → Sched PeriodicJob
  | .mntBlockStatSnapshotCb => conf.mntBlockStatSnapshotCb
  | .blockVfsStatisticsCb => conf.blockVfsStatisticsCb
  | .localBinlogFlushCb => conf.localBinlogFlushCb
  | .remoteBinlogFlushCb => conf.remoteBinlogFlushCb
  | .snapshotSchedtimerCb => conf.snapshotSchedtimerCb

def interval : PeriodicJob → Int32
  | .mntBlockStatSnapshotCb => conf.blockSnapshotInterval
  | .blockVfsStatisticsCb => conf.blockVfsInterval
  | .localBinlogFlushCb => conf.binlogFlushInterval
  | .remoteBinlogFlushCb => conf.binlogFlushInterval
  | .snapshotSchedtimerCb => conf.snapshotThreadInterval

/-- The delay with which a job is scheduled, in microseconds. -/
def usec (job : PeriodicJob) : ℤ := (conf.interval job * (1000 * 1000)).toInt

lemma callback_eq (job : PeriodicJob) (a : ℕ) (now : ℤ) (s : Sched PeriodicJob) :
    conf.callback job a now s = s.schedTimer a now (conf.usec job) (some job) [0] := by
  cases job with
  | mntBlockStatSnapshotCb | blockVfsStatisticsCb | localBinlogFlushCb | remoteBinlogFlushCb
  | snapshotSchedtimerCb => rfl

lemma usec_eq_iff {job : PeriodicJob} (hpos : 0 < (conf.interval job).toInt) :
    conf.usec job = (conf.interval job).toInt * 10 ^ 6 ↔ (conf.interval job).toInt ≤ 2147 := by
  have hmul : conf.usec job = ((conf.interval job).toInt * 10 ^ 6).bmod (2 ^ 32) :=
    Int32.toInt_mul ..
  rw [hmul]
  constructor
  · intro h
    have hlt : ((conf.interval job).toInt * 10 ^ 6).bmod (2 ^ 32) < 2 ^ 31 := Int.bmod_lt (by decide)
    omega
  · intro hle
    exact Int.bmod_eq_of_le_mul_two (by omega) (by omega)

end Intervals

/-! ### The jobs on the timers -/

/-- The timers with the jobs that have been scheduled for the first time, and the timers that are running
and whose callback has scheduled the next run. -/
structure Periodic where
  sched : Sched PeriodicJob
  started : List PeriodicJob
  rearmed : List ℕ

/-- A step of the main program, of a worker or of a callback. -/
inductive PeriodicAct where
  | start (job : PeriodicJob) (a : ℕ) (now : ℤ)
  | add (a : ℕ)
  | yield (now : ℤ)
  | invoke (a : ℕ) (now : ℤ)
  | rearm (r a : ℕ) (now : ℤ)
  | free (r : ℕ)

namespace Periodic

def init (clock : ℤ) : Periodic := ⟨.init clock, [], []⟩

/-- A call of `sched_timer` is possible: the clock does not go back, and `malloc` returns an address
that is not in use. -/
def CanCall (s : Sched PeriodicJob) (a : ℕ) (now : ℤ) : Prop := s.clock ≤ now ∧ (s.timers a).isNone

instance (s : Sched PeriodicJob) (a : ℕ) (now : ℤ) : Decidable (CanCall s a now) :=
  inferInstanceAs (Decidable (_ ∧ _))

/-- The step.  A callback returns after it has scheduled the next run, and then its timer is freed. -/
def step (conf : Intervals) (p : Periodic) : PeriodicAct → Periodic
  | .start job a now =>
    if job ∉ p.started ∧ CanCall p.sched a now then
      { p with sched := conf.callback job a now p.sched, started := job :: p.started }
    else p
  | .add a => { p with sched := p.sched.timerAdd a }
  | .yield now => { p with sched := p.sched.yielded now }
  | .invoke a now => { p with sched := p.sched.invoke a now }
  | .rearm r a now =>
    match (p.sched.timers r).bind Timer.callback with
    | none => p
    | some job =>
      if r ∈ p.sched.running ∧ r ∉ p.rearmed ∧ CanCall p.sched a now then
        { p with sched := conf.callback job a now p.sched, rearmed := r :: p.rearmed }
      else p
  | .free r =>
    if r ∈ p.rearmed then { p with sched := p.sched.timerFree r, rearmed := p.rearmed.erase r } else p

/-- The times at which the runs of a job have begun. -/
def runTimes (job : PeriodicJob) (fired : List (Fired PeriodicJob)) : List ℤ :=
  fired.filterMap fun f => if f.callback = job then some f.time else none

/-- Consecutive times are at least `d` apart. -/
def Spaced (d : ℤ) (times : List ℤ) : Prop := times.IsChain fun t u => t + d ≤ u

section

variable {job job' : PeriodicJob} {fired : List (Fired PeriodicJob)} {f : Fired PeriodicJob}

lemma runTimes_append_same (job : PeriodicJob) (h : f.callback = job) :
    runTimes job (fired ++ [f]) = runTimes job fired ++ [f.time] := by
  simp [runTimes, filterMap_append, h]

lemma runTimes_append_other (h : f.callback ≠ job) :
    runTimes job (fired ++ [f]) = runTimes job fired := by
  simp [runTimes, filterMap_append, h]

end

/-! ### One timer for the next run -/

variable {conf : Intervals} {p : Periodic} {a r : ℕ} {now : ℤ} {job : PeriodicJob}

/-- What holds all along a run.  A timer that is not running, or whose callback has not scheduled the
next run, is the only one of its job. -/
structure Inv (conf : Intervals) (p : Periodic) : Prop where
  sched : p.sched.Inv
  rearmed : ∀ r ∈ p.rearmed, r ∈ p.sched.running
  nodup : p.rearmed.Nodup
  started : ∀ b, ∀ t ∈ p.sched.timers b, ∃ job ∈ p.started, t.callback = some job
  firedStarted : ∀ f ∈ p.sched.fired, f.callback ∈ p.started
  unique : ∀ b ∉ p.rearmed, ∀ c ∉ p.rearmed, ∀ t ∈ p.sched.timers b, ∀ u ∈ p.sched.timers c,
    t.callback = u.callback → b = c
  due : ∀ b ∈ p.sched.removed, ∀ t ∈ p.sched.timers b, t.deadline ≤ p.sched.clock
  past : ∀ f ∈ p.sched.fired, f.time ≤ p.sched.clock
  spaced : ∀ job, Spaced (conf.usec job) (runTimes job p.sched.fired)
  ahead : ∀ b ∉ p.sched.running, ∀ t ∈ p.sched.timers b, ∀ job, t.callback = some job →
    ∀ last ∈ (runTimes job p.sched.fired).getLast?, last + conf.usec job ≤ t.deadline

namespace Inv

lemma init (clock : ℤ) : Inv conf (Periodic.init clock) where
  sched := .init clock
  rearmed := by simp [Periodic.init]
  nodup := nodup_nil
  started := by simp [Periodic.init, Sched.init]
  firedStarted := by simp [Periodic.init, Sched.init]
  unique := by simp [Periodic.init, Sched.init]
  due := by simp [Periodic.init, Sched.init]
  past := by simp [Periodic.init, Sched.init]
  spaced := fun job => .nil
  ahead := by simp [Periodic.init, Sched.init]

section

variable (h : Inv conf p)
include h

lemma le_clock {last : ℤ} (hlast : last ∈ (runTimes job p.sched.fired).getLast?) :
    last ≤ p.sched.clock := by
  obtain ⟨f, hf, htime⟩ := mem_filterMap.1 (mem_of_getLast? hlast)
  split_ifs at htime with hjob
  rw [← some.inj htime]
  exact h.past f hf

/-- The timers are added to the list or removed from it, and time passes. -/
lemma frame {s : Sched PeriodicJob} (hs : s.Inv) (hrunning : s.running = p.sched.running)
    (hfired : s.fired = p.sched.fired) (hclock : p.sched.clock ≤ s.clock)
    (htimers : ∀ b, ∀ t ∈ s.timers b, ∃ u ∈ p.sched.timers b,
      t.deadline = u.deadline ∧ t.callback = u.callback)
    (hdue : ∀ b ∈ s.removed, ∀ t ∈ s.timers b, t.deadline ≤ s.clock) :
    Inv conf { p with sched := s } := by
  refine ⟨hs, fun r hr => ?_, h.nodup, fun b t ht => ?_, ?_, fun b hb c hc t ht u hu hcb => ?_, hdue,
    fun f hf => ?_, fun job => ?_, fun b hb t ht job hjob last hlast => ?_⟩
  · rw [hrunning]
    exact h.rearmed r hr
  · obtain ⟨u, hu, -, hcb⟩ := htimers b t ht
    rw [hcb]
    exact h.started b u hu
  · rw [hfired]
    exact h.firedStarted
  · obtain ⟨t', ht', -, hcb'⟩ := htimers b t ht
    obtain ⟨u', hu', -, hcb''⟩ := htimers c u hu
    exact h.unique b hb c hc t' ht' u' hu' (hcb'.symm.trans (hcb.trans hcb''))
  · rw [hfired] at hf
    exact (h.past f hf).trans hclock
  · rw [hfired]
    exact h.spaced job
  · obtain ⟨u, hu, hdeadline, hcb⟩ := htimers b t ht
    rw [hfired] at hlast
    rw [hrunning] at hb
    rw [hdeadline]
    exact h.ahead b hb u hu job (hcb.symm.trans hjob) last hlast

lemma timerAdd : Inv conf { p with sched := p.sched.timerAdd a } := by
  have hs : (p.sched.timerAdd a).Inv := h.sched.step (.add a)
  obtain heq | ⟨t, ht, hmade, heq⟩ := p.sched.timerAdd_cases (a := a)
  · rw [heq]
    exact h
  have htimers : ∀ b, ∀ u ∈ (p.sched.timerAdd a).timers b, ∃ v ∈ p.sched.timers b,
      u.deadline = v.deadline ∧ u.callback = v.callback := by
    intro b u hu
    rw [heq] at hu
    rcases mem_update_some.1 hu with ⟨rfl, rfl⟩ | ⟨-, hu⟩
    · exact ⟨t, ht, rfl, rfl⟩
    · exact ⟨u, hu, rfl, rfl⟩
  refine h.frame hs (by rw [heq]) (by rw [heq]) (by rw [heq]) htimers fun b hb u hu => ?_
  obtain ⟨v, hv, hdeadline, -⟩ := htimers b u hu
  rw [removed_timerAdd] at hb
  rw [hdeadline, heq]
  exact h.due b hb v hv

lemma yielded : Inv conf { p with sched := p.sched.yielded now } := by
  have hs : (p.sched.yielded now).Inv := h.sched.step (.yield now)
  obtain heq | ⟨hclock, heq | ⟨b, t, -, ht, hdue, heq⟩⟩ := p.sched.yielded_cases now
  · rw [heq]
    exact h
  · refine h.frame hs (by rw [heq]) (by rw [heq]) (by rw [heq]; exact hclock)
      (by rw [heq]; exact fun b t ht => ⟨t, ht, rfl, rfl⟩) ?_
    rw [heq]
    exact fun b hb t ht => (h.due b hb t ht).trans hclock
  · refine h.frame hs (by rw [heq]) (by rw [heq]) (by rw [heq]; exact hclock)
      (by rw [heq]; exact fun b t ht => ⟨t, ht, rfl, rfl⟩) ?_
    rw [heq]
    intro c hc u hu
    rcases mem_cons.1 hc with rfl | hc
    · obtain rfl : t = u := some.inj (ht.symm.trans hu)
      exact hdue
    · exact (h.due c hc u hu).trans hclock

lemma notMem_running_of_removed (ha : a ∈ p.sched.removed) : a ∉ p.sched.running := by
  have hnodup := (nodup_append.1 (nodup_append.1 h.sched.pending.nodup).2.1).2.1
  exact fun hmem => (nodup_append.1 hnodup).2.2 a ha a hmem rfl

lemma notMem_running_of_none (ha : p.sched.timers a = none) : a ∉ p.sched.running := fun hmem =>
  h.sched.pending.notMem_of_none ha
    (mem_append_right _ (mem_append_right _ (mem_append_right _ hmem)))

/-- **A run begins.**  Its timer was due, and so the last run is long enough ago. -/
lemma invoke : Inv conf { p with sched := p.sched.invoke a now } := by
  have hs : (p.sched.invoke a now).Inv := h.sched.step (.invoke a now)
  obtain heq | ⟨t, ht, hclock, hremoved, heq⟩ := p.sched.invoke_cases a now
  · rw [heq]
    exact h
  obtain ⟨job, hstarted, hjob⟩ := h.started a t ht
  have ha := h.notMem_running_of_removed hremoved
  have hrearmed : ∀ b ∉ p.sched.running, b ∉ p.rearmed := fun b hb hmem => hb (h.rearmed b hmem)
  rw [hjob, map_some, toList_some] at heq
  rw [heq] at hs ⊢
  refine ⟨hs, fun r hr => mem_cons_of_mem a (h.rearmed r hr), h.nodup, h.started, fun f hf => ?_,
    h.unique, fun b hb u hu => ?_, fun f hf => ?_, fun job' => ?_, fun b hb u hu job' hjob' last hlast =>
    ?_⟩
  · rcases mem_append.1 hf with hf | hf
    · exact h.firedStarted f hf
    · rw [mem_singleton.1 hf]
      exact hstarted
  · exact (h.due b (mem_of_mem_erase hb) u hu).trans hclock
  · rcases mem_append.1 hf with hf | hf
    · exact (h.past f hf).trans hclock
    · rw [mem_singleton.1 hf]
  · by_cases hsame : job = job'
    · subst hsame
      dsimp only
      rw [runTimes_append_same job rfl]
      refine isChain_append.2 ⟨h.spaced job, .singleton _, fun last hlast d hd => ?_⟩
      obtain rfl := some.inj hd
      exact (h.ahead a ha t ht job hjob last hlast).trans ((h.due a hremoved t ht).trans hclock)
    · dsimp only
      rw [runTimes_append_other hsame]
      exact h.spaced job'
  · obtain ⟨hba, hb⟩ := not_or.1 (mem_cons.not.1 hb)
    by_cases hsame : job = job'
    · -- the timer that has begun was the only one of its job
      refine absurd (h.unique b (hrearmed b hb) a (hrearmed a ha) u hu t ht ?_) hba
      rw [hjob, hjob', hsame]
    · dsimp only at hlast
      rw [runTimes_append_other hsame] at hlast
      exact h.ahead b hb u hu job' hjob' last hlast

/-- **The next run is scheduled.**  No other timer of the job is left. -/
lemma arm {started : List PeriodicJob} {rearmed : List ℕ}
    (hcan : CanCall p.sched a now) (hsub : p.rearmed ⊆ rearmed) (hnodup : rearmed.Nodup)
    (hrunning : ∀ r ∈ rearmed, r ∈ p.sched.running) (hstarted : p.started ⊆ started)
    (hjob : job ∈ started) (hnone : ∀ b ∉ rearmed, ∀ t ∈ p.sched.timers b, t.callback ≠ some job) :
    Inv conf ⟨conf.callback job a now p.sched, started, rearmed⟩ := by
  have hfree : p.sched.timers a = none := isNone_iff_eq_none.1 hcan.2
  have ha := h.notMem_running_of_none hfree
  have hs : (conf.callback job a now p.sched).Inv := by
    rw [conf.callback_eq]
    exact h.sched.step (.call a now (conf.usec job) (some job) [0])
  have heq : conf.callback job a now p.sched =
      { p.sched with
        clock := now
        timers := Function.update p.sched.timers a
          (some (p.sched.newTimer now (conf.usec job) (some job) []))
        made := a :: p.sched.made
        calls := p.sched.calls ++ [⟨now, conf.usec job, some job, []⟩] } := by
    rw [conf.callback_eq]
    exact if_pos ⟨hcan.1, hcan.2, Nat.zero_le _⟩
  rw [heq] at hs ⊢
  refine ⟨hs, hrunning, hnodup, fun b t ht => ?_, fun f hf => hstarted (h.firedStarted f hf),
    fun b hb c hc t ht u hu hcb => ?_, fun b hb t ht => ?_, fun f hf => (h.past f hf).trans hcan.1,
    h.spaced, fun b hb t ht job' hjob' last hlast => ?_⟩
  · rcases mem_update_some.1 ht with ⟨-, rfl⟩ | ⟨-, ht⟩
    · exact ⟨job, hjob, rfl⟩
    · obtain ⟨job', hjob', hcb⟩ := h.started b t ht
      exact ⟨job', hstarted hjob', hcb⟩
  · rcases mem_update_some.1 ht with ⟨hba, rfl⟩ | ⟨-, ht⟩ <;>
      rcases mem_update_some.1 hu with ⟨hca, rfl⟩ | ⟨-, hu⟩
    · rw [hba, hca]
    · exact absurd hcb.symm (hnone c hc u hu)
    · exact absurd hcb (hnone b hb t ht)
    · exact h.unique b (fun hmem => hb (hsub hmem)) c (fun hmem => hc (hsub hmem)) t ht u hu hcb
  · rcases mem_update_some.1 ht with ⟨rfl, -⟩ | ⟨-, ht⟩
    · have howned := h.sched.pending.notMem_of_none hfree
      exact absurd (mem_append_right _ (mem_append_right _ (mem_append_left _ hb))) howned
    · exact (h.due b hb t ht).trans hcan.1
  · rcases mem_update_some.1 ht with ⟨rfl, rfl⟩ | ⟨-, ht⟩
    · obtain rfl : job = job' := some.inj hjob'
      have hle := (h.le_clock hlast).trans hcan.1
      exact Int.add_le_add_right hle _
    · exact h.ahead b hb t ht job' hjob' last hlast

lemma timerFree (hr : r ∈ p.rearmed) :
    Inv conf { p with sched := p.sched.timerFree r, rearmed := p.rearmed.erase r } := by
  have hs : (p.sched.timerFree r).Inv := h.sched.step (.free r)
  have heq : p.sched.timerFree r =
      { p.sched with
        timers := Function.update p.sched.timers r none, running := p.sched.running.erase r } :=
    if_pos (h.rearmed r hr)
  rw [heq] at hs ⊢
  have hnot {l : List ℕ} {b : ℕ} (hb : b ≠ r) (hmem : b ∉ l.erase r) : b ∉ l := fun h' =>
    hmem ((mem_erase_of_ne hb).2 h')
  refine ⟨hs, fun x hx => ?_, h.nodup.erase r, fun b t ht => h.started b t (mem_update_none.1 ht).2, h.firedStarted,
    fun b hb c hc t ht u hu hcb => ?_, fun b hb t ht => h.due b hb t (mem_update_none.1 ht).2, h.past, h.spaced,
    fun b hb t ht => ?_⟩
  · obtain ⟨hne, hx⟩ := h.nodup.mem_erase_iff.1 hx
    exact (mem_erase_of_ne hne).2 (h.rearmed x hx)
  · obtain ⟨hbr, ht⟩ := mem_update_none.1 ht
    obtain ⟨hcr, hu⟩ := mem_update_none.1 hu
    exact h.unique b (hnot hbr hb) c (hnot hcr hc) t ht u hu hcb
  · obtain ⟨hbr, ht⟩ := mem_update_none.1 ht
    exact h.ahead b (hnot hbr hb) t ht

lemma step (act : PeriodicAct) : Inv conf (p.step conf act) := by
  cases act with
  | start job a now =>
    rw [Periodic.step]
    split_ifs with hcond
    · refine h.arm hcond.2 (List.Subset.refl _) h.nodup h.rearmed (subset_cons_self job _)
        mem_cons_self fun b _ t ht hcb => ?_
      obtain ⟨job', hjob', hcb'⟩ := h.started b t ht
      rw [hcb'] at hcb
      exact hcond.1 (some.inj hcb ▸ hjob')
    · exact h
  | add a => exact h.timerAdd
  | yield now => exact h.yielded
  | invoke a now => exact h.invoke
  | rearm r a now =>
    rw [Periodic.step]
    cases hcb : (p.sched.timers r).bind Timer.callback with
    | none => exact h
    | some job =>
      dsimp only
      split_ifs with hcond
      · obtain ⟨t, ht, hjob⟩ := bind_eq_some_iff.1 hcb
        obtain ⟨job', hstarted, hjob'⟩ := h.started r t ht
        obtain rfl : job' = job := some.inj (hjob'.symm.trans hjob)
        refine h.arm hcond.2.2 (subset_cons_self r _) (nodup_cons.2 ⟨hcond.2.1, h.nodup⟩) ?_
          (List.Subset.refl _) hstarted fun b hb u hu hcb' => ?_
        · intro x hx
          rcases mem_cons.1 hx with rfl | hx
          · exact hcond.1
          · exact h.rearmed x hx
        · obtain ⟨hbr, hb⟩ := not_or.1 (mem_cons.not.1 hb)
          exact hbr (h.unique b hb r hcond.2.1 u hu t ht (hcb'.trans hjob.symm))
      · exact h
  | free r =>
    rw [Periodic.step]
    split_ifs with hr
    · exact h.timerFree hr
    · exact h

end

end Inv

/-- **Two runs of a job** are apart by the delay with which it is scheduled, whatever that is. -/
lemma spaced_runTimes (conf : Intervals) (job : PeriodicJob) (clock : ℤ) (acts : List PeriodicAct) :
    Spaced (conf.usec job) (runTimes job (run (step conf) (init clock) acts).sched.fired) := by
  have hinv : Inv conf (run (step conf) (init clock) acts) :=
    Along.run_inv (Inv.init clock) fun p act hp => hp.step act
  exact hinv.spaced job

end Periodic

/-- **Periodic jobs keep their period**, which is positive, exactly if it is at most 2147 seconds: then
the callback schedules the next run after the interval, and in every run of the servers the runs of the
job are at least the interval apart. -/
theorem periodic_iff (conf : Intervals) (job : PeriodicJob) (hpos : 0 < (conf.interval job).toInt) :
    ((∀ (s : Sched PeriodicJob) (a : ℕ) (now : ℤ), s.clock ≤ now → s.timers a = none →
        ∃ t, (conf.callback job a now s).timers a = some t ∧
          t.deadline = now + (conf.interval job).toInt * 10 ^ 6) ∧
      ∀ (clock : ℤ) (acts : List PeriodicAct), Periodic.Spaced ((conf.interval job).toInt * 10 ^ 6)
        (Periodic.runTimes job (run (Periodic.step conf) (Periodic.init clock) acts).sched.fired)) ↔
      (conf.interval job).toInt ≤ 2147 := by
  have htimer (s : Sched PeriodicJob) (a : ℕ) (now : ℤ) (hclock : s.clock ≤ now)
      (hfree : s.timers a = none) : (conf.callback job a now s).timers a =
        some (s.newTimer now (conf.usec job) (some job) []) := by
    have hcan : s.clock ≤ now ∧ (s.timers a).isNone ∧ (givenArgs [0]).length ≤ timerMaxArg :=
      ⟨hclock, by rw [hfree]; rfl, Nat.zero_le _⟩
    rw [conf.callback_eq, schedTimer, if_pos hcan]
    exact Function.update_self ..
  rw [← conf.usec_eq_iff hpos]
  constructor
  · rintro ⟨hdeadline, -⟩
    have hfirst := htimer (.init 0) 0 0 le_rfl rfl
    obtain ⟨t, ht, hd⟩ := hdeadline (.init 0) 0 0 le_rfl rfl
    rw [hfirst, some_inj] at ht
    rw [← ht] at hd
    exact Int.add_left_cancel hd
  · intro husec
    refine ⟨fun s a now hclock hfree => ⟨_, htimer s a now hclock hfree, ?_⟩, fun clock acts => ?_⟩
    · rw [← husec]
      rfl
    · rw [← husec]
      exact Periodic.spaced_runTimes conf job clock acts

/-- A snapshot every minute. -/
theorem periodic_minute : ∃ conf : Intervals, conf.snapshotThreadInterval = 60 ∧
    ∀ (clock : ℤ) (acts : List PeriodicAct), Periodic.Spaced (60 * 10 ^ 6)
      (Periodic.runTimes .snapshotSchedtimerCb
        (run (Periodic.step conf) (Periodic.init clock) acts).sched.fired) :=
  ⟨⟨60, 60, 60, 60⟩, rfl,
    ((periodic_iff ⟨60, 60, 60, 60⟩ .snapshotSchedtimerCb (by decide)).2 (by decide)).2⟩

/-- A snapshot every hour: `3600 * (1000 * 1000)` is a negative `int`, and the next run begins at
once. -/
theorem periodic_hour : ∃ (conf : Intervals) (acts : List PeriodicAct),
    conf.snapshotThreadInterval = 3600 ∧
    Periodic.runTimes .snapshotSchedtimerCb
      (run (Periodic.step conf) (Periodic.init 0) acts).sched.fired = [0, 0] ∧
    ¬ Periodic.Spaced (3600 * 10 ^ 6) (Periodic.runTimes .snapshotSchedtimerCb
      (run (Periodic.step conf) (Periodic.init 0) acts).sched.fired) := by
  let conf : Intervals := ⟨3600, 3600, 3600, 3600⟩
  let acts : List PeriodicAct := [.start .snapshotSchedtimerCb 1 0, .add 1, .yield 0, .invoke 1 0,
    .rearm 1 2 0, .free 1, .add 2, .yield 0, .invoke 2 0]
  have hruns : Periodic.runTimes .snapshotSchedtimerCb
      (run (Periodic.step conf) (Periodic.init 0) acts).sched.fired = [0, 0] := by decide +kernel
  refine ⟨conf, acts, rfl, hruns, ?_⟩
  rw [hruns]
  simp [Periodic.Spaced]

end Lfs.Common
