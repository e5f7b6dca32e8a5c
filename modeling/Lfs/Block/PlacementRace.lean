/-
Uploads that choose a directory at the same time.

The nio threads run `__block_map_path_polling` for their uploads.  The count of files is read before the
lock of the mounts is taken, and the directory after it has been given back, so a call is three steps
between which the other uploads may take theirs.  If an upload has read a count that another one has
changed by the time it gets the lock, its own count is written over that of the other.
-/
import Lfs.Block.Placement
import Lfs.Lib.Run
import Lfs.Lib.Workers

namespace Lfs.Block

open Lfs.Lib List Workers BlockSt

/-- Where an upload is in `__block_map_path_polling`. -/
inductive PollPc where
  | start
  /-- It has read the count, and `curr_file_count` is one more. -/
  | counted (currFileCount : Int32)
  | placed
  | done (dir : Int32 × Int32)
deriving DecidableEq

namespace PollPc

/-- The next step of an upload. -/
def next (conf : ConfItems) (b : BlockSt) : PollPc → BlockSt × PollPc
  | start => (b, counted (b.currPathMapFileCount + 1))
  | counted currFileCount => (b.lockedSection conf currFileCount, placed)
  | placed => (b, done b.directory)
  | done dir => (b, done dir)

/-- The upload has been through the section under the lock. -/
def passed : PollPc → Bool
  | start | counted _ => false
  | placed | done _ => true

end PollPc

/-- A mount and the uploads that choose a directory on it. -/
abbrev PlacementRace := Workers BlockSt PollPc

namespace PlacementRace

/-- The upload `i` takes its next step. -/
abbrev step (conf : ConfItems) : PlacementRace → ℕ → PlacementRace := Workers.step (PollPc.next conf)

/-- `k` uploads that have not begun. -/
def start (b : BlockSt) (k : ℕ) : PlacementRace := ⟨b, List.replicate k .start⟩

/-- If the upload `i` is to go through the section under the lock, the count that it has read is still
that of the mount, or both of them fill the directory. -/
def UpToDate (conf : ConfItems) (r : PlacementRace) (i : ℕ) : Prop :=
  ∀ currFileCount, r.workers[i]? = some (.counted currFileCount) →
    currFileCount = r.shared.currPathMapFileCount + 1 ∨ conf.blockMaxFileCount ≤ currFileCount ∧
        conf.blockMaxFileCount ≤ r.shared.currPathMapFileCount + 1

/-- The directories that have been given out are those of calls one after the other. -/
structure Inv (conf : ConfItems) (b : BlockSt) (r : PlacementRace) : Prop where
  serial : r.Serial (blockMapPathPolling conf) PollPc.passed b
  dirs : ∀ dir, PollPc.done dir ∈ r.workers → ∃ n, 1 ≤ n ∧ n ≤ r.workers.countP PollPc.passed ∧
    dir = directoryAt conf b n

variable {conf : ConfItems} {b : BlockSt} {r : PlacementRace} {i : ℕ} {pc : PollPc}

lemma lockedSection_eq {currFileCount : Int32} (h : currFileCount = b.currPathMapFileCount + 1 ∨
      conf.blockMaxFileCount ≤ currFileCount ∧ conf.blockMaxFileCount ≤ b.currPathMapFileCount + 1) :
    b.lockedSection conf currFileCount = b.blockMapPathPolling conf := by
  rcases h with rfl | ⟨hread, hnow⟩
  · rfl
  · rw [blockMapPathPolling, lockedSection, lockedSection, if_pos hread, if_pos hnow]

lemma UpToDate.passes (h : r.UpToDate conf i) (hpc : r.workers[i]? = some pc) :
    Workers.Passes (blockMapPathPolling conf) PollPc.passed r.shared pc
      (pc.next conf r.shared) := by
  cases pc with
  | start => exact .inl ⟨rfl, rfl⟩
  | counted currFileCount => exact .inr ⟨rfl, rfl, lockedSection_eq (h currFileCount hpc)⟩
  | placed | done dir => exact .inl ⟨rfl, rfl⟩

lemma passed_next (conf : ConfItems) (b : BlockSt) (pc : PollPc) (h : pc.passed = true) :
    (pc.next conf b).2.passed = true := by
  cases pc with
  | start | counted currFileCount => exact absurd h Bool.false_ne_true
  | placed | done dir => rfl

lemma countP_passed_le (conf : ConfItems) (r : PlacementRace) (hpc : r.workers[i]? = some pc) :
    r.workers.countP PollPc.passed ≤ (r.step conf i).workers.countP PollPc.passed := by
  have hcount := countP_set_add (pc.next conf r.shared).2 PollPc.passed hpc
  rw [step, step_of_some hpc]
  dsimp only
  cases hpassed : pc.passed with
  | false =>
    rw [hpassed] at hcount
    simp only [Bool.false_eq_true, if_false] at hcount
    omega
  | true =>
    rw [hpassed, passed_next conf r.shared pc hpassed] at hcount
    omega

lemma Inv.step (h : r.Inv conf b) (hdate : r.UpToDate conf i) : (r.step conf i).Inv conf b := by
  cases hpc : r.workers[i]? with
  | none =>
    rw [PlacementRace.step, step_of_none hpc]
    exact h
  | some pc =>
    have hserial := h.serial.step hpc (hdate.passes hpc)
    refine ⟨hserial, fun dir hdir => ?_⟩
    have hle := countP_passed_le conf r hpc
    have hstep := step_of_some (f := PollPc.next conf) hpc
    have hmem : PollPc.done dir ∈ r.workers.set i (pc.next conf r.shared).2 := by
      rw [PlacementRace.step, hstep] at hdir
      exact hdir
    rcases mem_or_eq_of_mem_set hmem with hold | hnew
    · obtain ⟨n, hn1, hn, heq⟩ := h.dirs dir hold
      exact ⟨n, hn1, hn.trans hle, heq⟩
    · cases pc with
      | start | counted currFileCount => exact absurd hnew (by simp [PollPc.next])
      | placed =>
        -- the directory of the last call that has been made by then, which may be another one's
        obtain rfl := PollPc.done.inj hnew
        have hpos : 0 < r.workers.countP PollPc.passed :=
          countP_pos_iff.2 ⟨_, mem_of_getElem? hpc, rfl⟩
        exact ⟨_, hpos, hle, by rw [directoryAt, ← h.serial]⟩
      | done dir' =>
        obtain rfl := PollPc.done.inj hnew
        obtain ⟨n, hn1, hn, heq⟩ := h.dirs _ (mem_of_getElem? hpc)
        exact ⟨n, hn1, hn.trans hle, heq⟩

lemma inv_start (conf : ConfItems) (b : BlockSt) (k : ℕ) : (start b k).Inv conf b := by
  refine ⟨?_, fun dir hdir => ?_⟩
  · have hzero : (List.replicate k PollPc.start).countP PollPc.passed = 0 :=
      countP_eq_zero.2 fun pc hpc => by
        rw [eq_of_mem_replicate hpc]
        exact Bool.false_ne_true
    rw [Workers.Serial, start, hzero]
    rfl
  · exact absurd (eq_of_mem_replicate hdir) (by simp)

lemma length_run (conf : ConfItems) (acts : List ℕ) (r : PlacementRace) :
    (run (step conf) r acts).workers.length = r.workers.length := by
  induction acts generalizing r with
  | nil => rfl
  | cons i acts ih =>
    rw [run_cons, ih]
    cases hpc : r.workers[i]? with
    | none => rw [step, step_of_none hpc]
    | some pc => rw [step, step_of_some hpc, length_set]

/-- **Placement is serial.**  Let `k` uploads take their steps in any order, and let every section under
the lock find a count that is up to date.  When all of them are done, the mount is as after `k` calls
one after the other, and each upload has the directory of one of these calls. -/
theorem placement_serial (conf : ConfItems) (b : BlockSt) (k : ℕ) (acts : List ℕ)
    (hdate : Along (step conf) (fun r i _ => r.UpToDate conf i) (start b k) acts)
    (hdone : ∀ pc ∈ (run (step conf) (start b k) acts).workers, ∃ dir, pc = .done dir) :
    (run (step conf) (start b k) acts).shared = (blockMapPathPolling conf)^[k] b ∧
      ∀ dir, PollPc.done dir ∈ (run (step conf) (start b k) acts).workers →
        ∃ n, 1 ≤ n ∧ n ≤ k ∧ dir = directoryAt conf b n := by
  have hinv : (run (step conf) (start b k) acts).Inv conf b :=
    hdate.inv (inv_start conf b k) fun r i hr hdate => hr.step hdate
  have hcount : (run (step conf) (start b k) acts).workers.countP PollPc.passed = k := by
    have hall : ∀ pc ∈ (run (step conf) (start b k) acts).workers, pc.passed = true := by
      intro pc hpc
      obtain ⟨dir, rfl⟩ := hdone pc hpc
      rfl
    rw [countP_eq_length.2 hall, length_run, start, length_replicate]
  have hserial := hinv.serial
  rw [Workers.Serial, hcount] at hserial
  refine ⟨hserial, fun dir hdir => ?_⟩
  obtain ⟨n, hn1, hn, heq⟩ := hinv.dirs dir hdir
  exact ⟨n, hn1, hcount ▸ hn, heq⟩

/-- Two uploads, of which the first one reads its directory back after the second one has gone on to
the next directory. -/
theorem placement_serial_readBack :
    (run (step ⟨3, 2⟩) (start firstDirectory 2) [0, 0, 1, 1, 1, 0]).shared =
        (blockMapPathPolling ⟨3, 2⟩)^[2] firstDirectory ∧
      ∀ dir, PollPc.done dir ∈
          (run (step ⟨3, 2⟩) (start firstDirectory 2) [0, 0, 1, 1, 1, 0]).workers →
        ∃ n, 1 ≤ n ∧ n ≤ 2 ∧ dir = directoryAt ⟨3, 2⟩ firstDirectory n := by
  have hworkers : (run (step ⟨3, 2⟩) (start firstDirectory 2) [0, 0, 1, 1, 1, 0]).workers =
      [.done (0, 1), .done (0, 1)] := by decide
  refine placement_serial ⟨3, 2⟩ firstDirectory 2 [0, 0, 1, 1, 1, 0] ?_ ?_
  · refine ⟨?_, ?_, ?_, ?_, ?_, ?_, trivial⟩ <;> intro currFileCount hcount
    · exact absurd hcount (by simp [start])
    · exact .inl (PollPc.counted.inj (Option.some.inj hcount)).symm
    · exact absurd hcount (by simp [start, step, Workers.step])
    · exact .inl (PollPc.counted.inj (Option.some.inj hcount)).symm
    · exact absurd hcount (by simp [start, step, Workers.step, PollPc.next])
    · exact absurd hcount (by simp [start, step, Workers.step, PollPc.next])
  · rw [hworkers]
    simp

/-- Two uploads that both read the count before one of them has the lock: the count of one of them is
lost. -/
theorem placement_lost :
    (∀ pc ∈ (run (step ⟨3, 10⟩) (start firstDirectory 2) [0, 1, 0, 1, 0, 1]).workers,
        ∃ dir, pc = .done dir) ∧
      (run (step ⟨3, 10⟩) (start firstDirectory 2) [0, 1, 0, 1, 0, 1]).shared.currPathMapFileCount = 1 ∧
      ((blockMapPathPolling ⟨3, 10⟩)^[2] firstDirectory).currPathMapFileCount = 2 := by
  have hworkers : (run (step ⟨3, 10⟩) (start firstDirectory 2) [0, 1, 0, 1, 0, 1]).workers =
      [.done (0, 0), .done (0, 0)] := by decide
  refine ⟨?_, by decide, by decide⟩
  rw [hworkers]
  simp

end PlacementRace

end Lfs.Block
