/-
The capacity that a dataserver reports.

A timer adds the sizes of all mounts to `block_total_size_mb` and `block_free_size_mb`, which are not
set back to zero before, and which a start from `block_snapshot.bat` does not set.
-/
import Lfs.Block.Mounts
import Lfs.Lib.Run
import Mathlib.Algebra.BigOperators.Group.List.Basic

namespace Lfs.Block

open Lfs.Lib List

/-- What happens to the sizes of the mounts of a running server. -/
inductive CapacityOp where
  /-- `__block_statvfs_cal` for the mount `mntIndex`. -/
  | update (mntIndex : ℕ) (stat : Option Statvfs)
  /-- `block_vfs_statistics_cb`. -/
  | tick
deriving DecidableEq

namespace BlockMount

def capacityStep (m : BlockMount) : CapacityOp → BlockMount
  | .update mntIndex stat => (m.blockStatvfsCal stat mntIndex).2
  | .tick => m.blockVfsStatistics

def sumMb (size : BlockSt → Int32) (m : BlockMount) : ℤ := (m.blocks.map fun b => (size b).toInt).sum

/-- The totals are the sums over all mounts. -/
structure Exact (m : BlockMount) : Prop where
  total : m.blockTotalSizeMb.toInt = m.sumMb BlockSt.totalSizeMb
  free : m.blockFreeSizeMb.toInt = m.sumMb BlockSt.freeSizeMb

/-- The value of an `int`. -/
def IsInt (z : ℤ) : Prop := -2 ^ 31 ≤ z ∧ z < 2 ^ 31

/-- Both totals are zero, and the sums do not overflow. -/
structure Clear (m : BlockMount) : Prop where
  total : m.blockTotalSizeMb = 0
  free : m.blockFreeSizeMb = 0
  total_isInt : IsInt (m.sumMb BlockSt.totalSizeMb)
  free_isInt : IsInt (m.sumMb BlockSt.freeSizeMb)

variable {m : BlockMount}

lemma toInt_foldl_add (size : BlockSt → Int32) (bs : List BlockSt) (a : Int32) :
    (bs.foldl (fun a b => a + size b) a).toInt =
      (a.toInt + (bs.map fun b => (size b).toInt).sum).bmod (2 ^ 32) := by
  induction bs generalizing a with
  | nil =>
    rw [foldl_nil, map_nil, sum_nil, Int.add_zero]
    exact (Int.bmod_eq_of_le (by have := a.le_toInt; omega) (by have := a.toInt_lt; omega)).symm
  | cons b bs ih =>
    rw [foldl_cons, ih, map_cons, sum_cons, Int32.toInt_add, Int.bmod_add_bmod, Int.add_assoc]

lemma blockVfsStatistics_eq (h : m.isStatistics = false) : m.blockVfsStatistics =
    { m with
      blockTotalSizeMb := m.blocks.foldl (fun a b => a + b.totalSizeMb) m.blockTotalSizeMb
      blockFreeSizeMb := m.blocks.foldl (fun a b => a + b.freeSizeMb) m.blockFreeSizeMb } := by
  have hloop (bs : List BlockSt) (m : BlockMount) : bs.foldl (fun m b =>
      { m with
        blockTotalSizeMb := m.blockTotalSizeMb + b.totalSizeMb
        blockFreeSizeMb := m.blockFreeSizeMb + b.freeSizeMb }) m =
      { m with
        blockTotalSizeMb := bs.foldl (fun a b => a + b.totalSizeMb) m.blockTotalSizeMb
        blockFreeSizeMb := bs.foldl (fun a b => a + b.freeSizeMb) m.blockFreeSizeMb } := by
    induction bs generalizing m with
    | nil => rfl
    | cons b bs ih => exact ih _
  rw [blockVfsStatistics, if_neg (by simp [h])]
  exact hloop m.blocks m

/-- An addition to a total gives the summand exactly if the total is zero and the summand is an
`int`. -/
lemma bmod_add_eq_iff {t : Int32} {z : ℤ} : (t.toInt + z).bmod (2 ^ 32) = z ↔ t = 0 ∧ IsInt z := by
  have hlo := t.le_toInt
  have hhi := t.toInt_lt
  rw [← Int32.toInt_inj, Int32.toInt_zero, IsInt]
  constructor
  · intro h
    have hle := Int.le_bmod (x := t.toInt + z) (m := 2 ^ 32) (by decide)
    have hlt := Int.bmod_lt (x := t.toInt + z) (m := 2 ^ 32) (by decide)
    have hdvd := Int.dvd_bmod_sub_self (x := t.toInt + z) (m := 2 ^ 32)
    omega
  · rintro ⟨ht, hz⟩
    rw [ht, Int.zero_add]
    exact Int.bmod_eq_of_le (by omega) (by omega)

lemma exact_blockVfsStatistics_iff (h : m.isStatistics = false) :
    m.blockVfsStatistics.Exact ↔ m.Clear := by
  rw [blockVfsStatistics_eq h]
  constructor
  · rintro ⟨htotal, hfree⟩
    rw [toInt_foldl_add] at htotal hfree
    obtain ⟨htotal, htotal'⟩ := bmod_add_eq_iff.1 htotal
    obtain ⟨hfree, hfree'⟩ := bmod_add_eq_iff.1 hfree
    exact ⟨htotal, hfree, htotal', hfree'⟩
  · rintro ⟨htotal, hfree, htotal', hfree'⟩
    refine ⟨?_, ?_⟩
    · rw [toInt_foldl_add]
      exact bmod_add_eq_iff.2 ⟨htotal, htotal'⟩
    · rw [toInt_foldl_add]
      exact bmod_add_eq_iff.2 ⟨hfree, hfree'⟩

lemma isStatistics_capacityStep (h : m.isStatistics = false) (op : CapacityOp) :
    (m.capacityStep op).isStatistics = false := by
  cases op with
  | update mntIndex stat =>
    cases stat with
    | none | some sbuff => exact h
  | tick =>
    rw [capacityStep, blockVfsStatistics_eq h]
    exact h

lemma isStatistics_mountBlockMapInit {paths : List (List Byte)} {file : Option (List Byte)}
    {stat : ℕ → Option Statvfs} {ok : Bool} (h : mountBlockMapInit paths file stat = some (ok, m)) :
    m.isStatistics = false := by
  have hround (bs : List (BlockSt × ℕ)) (r : Bool × BlockMount) :
      (bs.foldl (fun r b => mountBlockStatvfsRound r b.1 (stat b.2)) r).2.isStatistics =
        r.2.isStatistics := by
    induction bs generalizing r with
    | nil => rfl
    | cons b bs ih =>
      rw [foldl_cons, ih]
      obtain ⟨ok, m⟩ := r
      cases ok with
      | false => rfl
      | true => cases hstat : stat b.2 <;> simp [mountBlockStatvfsRound]
  cases file with
  | none =>
    have heq := congrArg (fun r => r.2.isStatistics) (Option.some.inj h)
    rw [← show _ = m.isStatistics from heq]
    exact hround _ _
  | some text =>
    rw [mountBlockMapInit, mountBlockInfoInit, Option.map_eq_some_iff] at h
    obtain ⟨blocks, -, heq⟩ := h
    rw [← (Prod.mk.inj heq).2]

/-- **The reported capacity.**  In every run of a server that has been started, the totals are the sums
over the mounts after every tick exactly if they are zero before every tick and the sums do not
overflow. -/
theorem capacity_exact_iff (paths : List (List Byte)) (file : Option (List Byte))
    (stat : ℕ → Option Statvfs) (m : BlockMount)
    (hinit : mountBlockMapInit paths file stat = some (true, m)) (ops : List CapacityOp) :
    Along capacityStep (fun _ op m' => op = .tick → m'.Exact) m ops ↔
      Along capacityStep (fun m op _ => op = .tick → m.Clear) m ops := by
  refine Along.iff_of_inv' (I := fun m => m.isStatistics = false)
    (isStatistics_mountBlockMapInit hinit) (fun m op hm => ?_)
    fun m op hm _ => isStatistics_capacityStep hm op
  cases op with
  | update mntIndex stat => simp
  | tick => exact forall_congr' fun _ => exact_blockVfsStatistics_iff hm

/-- One mount of 5 MB, 3 of them free, on a server that has just been started. -/
def oneMount : BlockMount where
  blocks := [⟨[47, 109], 0, 0, 0, 5, 3⟩]
  blockTotalSizeMb := 0
  blockFreeSizeMb := 0
  isStatistics := false

/-- The server is started from `block_snapshot.bat`; the first tick is right. -/
theorem capacity_exact_firstTick :
    mountBlockMapInit [[47, 109]] (some oneMount.mountBlockStatWrite) (fun _ => none) =
        some (true, oneMount) ∧
      Along capacityStep (fun _ op m' => op = .tick → m'.Exact) oneMount [.tick] := by
  have hinit : mountBlockMapInit [[47, 109]] (some oneMount.mountBlockStatWrite) (fun _ => none) =
      some (true, oneMount) := by decide +kernel
  refine ⟨hinit, (capacity_exact_iff [[47, 109]] _ _ oneMount hinit [.tick]).2 ⟨fun _ => ?_, trivial⟩⟩
  exact ⟨rfl, rfl, by rw [IsInt]; decide, by rw [IsInt]; decide⟩

/-- The second tick doubles the totals. -/
theorem capacity_doubled :
    mountBlockMapInit [[47, 109]] (some oneMount.mountBlockStatWrite) (fun _ => none) =
        some (true, oneMount) ∧
      (run capacityStep oneMount [.tick]).blockTotalSizeMb = 5 ∧
      (run capacityStep oneMount [.tick, .tick]).blockTotalSizeMb = 10 ∧
      ¬ Along capacityStep (fun _ op m' => op = .tick → m'.Exact) oneMount [.tick, .tick] := by
  refine ⟨by decide +kernel, by decide, by decide, ?_⟩
  rintro ⟨-, hsecond, -⟩
  exact absurd (hsecond rfl).total (by decide)

end BlockMount

end Lfs.Block
