/-
Where an upload is stored: its mount (`__conn_mount_polling`) and its directory
(`__block_map_path_polling`).

The mount of the socket number is taken if it has room, and otherwise the first other one that has.
Whether one was found is judged from the loop variable.  The directories are counted through by three
counters that carry into each other, so the directory of the `n`-th call is read off the digits of `n`
in the mixed radix of the three limits.
-/
import Lfs.Block.Mounts
import Lfs.Lib.Odometer
import Mathlib.Data.List.Range
import Mathlib.Data.Int.ModEq
import Mathlib.Tactic.Linarith

namespace Lfs.Block

open Lfs.Lib List

/-! ### The mount -/

/-- What `__conn_mount_polling` is for: it returns `LFS_OK` exactly if there is a mount with room, and
then the index is that of such a mount, and the one of the socket number if that mount has room. -/
structure MountChosen (check : ℕ → Bool) (mountCount sfd : ℕ) (r : Bool × ℤ) : Prop where
  ok_iff : r.1 = true ↔ ∃ i < mountCount, check i = true
  index : r.1 = true → ∃ i < mountCount, r.2 = i ∧ check i = true ∧
    (check (sfd % mountCount) = true → i = sfd % mountCount)

section Mount

variable {check : ℕ → Bool} {mountCount sfd : ℕ} {fMntBlockIndex : ℤ}

lemma mountChosen_of_check (hcount : 1 ≤ mountCount) (hcheck : check (sfd % mountCount) = true) :
    MountChosen check mountCount sfd (connMountPolling check mountCount sfd fMntBlockIndex) := by
  have hlt : sfd % mountCount < mountCount := Nat.mod_lt sfd hcount
  rw [connMountPolling, if_pos hcheck]
  refine ⟨iff_of_true rfl ⟨_, hlt, hcheck⟩, fun _ => ⟨_, hlt, rfl, hcheck, fun _ => rfl⟩⟩

lemma connMountPolling_of_some {i : ℕ} (hcheck : check (sfd % mountCount) = false)
    (hfind : (range mountCount).find? (fun i => decide (i ≠ sfd % mountCount) && check i) =
      some i) :
    connMountPolling check mountCount sfd fMntBlockIndex = (decide (i ≠ mountCount - 1), (i : ℤ)) := by
  rw [connMountPolling, if_neg (by simp [hcheck])]
  simp only [hfind]

section

variable (hcount : 1 ≤ mountCount) (hcheck : check (sfd % mountCount) = false)
    (hfind : (range mountCount).find? (fun i => decide (i ≠ sfd % mountCount) && check i) = none)
include hcount hcheck hfind

lemma connMountPolling_of_none :
    connMountPolling check mountCount sfd fMntBlockIndex = (true, fMntBlockIndex) := by
  rw [connMountPolling, if_neg (by simp [hcheck])]
  simp only [hfind]
  rw [decide_eq_true (by omega)]

lemma mountChosen_iff_of_none :
    MountChosen check mountCount sfd (connMountPolling check mountCount sfd fMntBlockIndex) ↔
      ∃ i, i + 1 < mountCount ∧ check i = true := by
  have hnone (i : ℕ) (hi : i < mountCount) : check i ≠ true := by
    have hi' := find?_eq_none.1 hfind i (mem_range.2 hi)
    by_cases heq : i = sfd % mountCount
    · simp [heq, hcheck]
    · simpa [heq] using hi'
  rw [connMountPolling_of_none hcount hcheck hfind]
  refine iff_of_false (fun h => ?_) ?_
  · obtain ⟨i, hi, hpass⟩ := h.ok_iff.1 rfl
    exact hnone i hi hpass
  · rintro ⟨i, hi, hpass⟩
    exact hnone i (by omega) hpass

end

/-- A mount with room is found: the last one is taken for the end of the loop. -/
lemma mountChosen_iff_of_some {i : ℕ} (hcheck : check (sfd % mountCount) = false)
    (hfind : (range mountCount).find? (fun i => decide (i ≠ sfd % mountCount) && check i) =
      some i) :
    MountChosen check mountCount sfd (connMountPolling check mountCount sfd fMntBlockIndex) ↔
      ∃ i, i + 1 < mountCount ∧ check i = true := by
  obtain ⟨hpass, hmem, hbefore⟩ := find?_range_eq_some.1 hfind
  rw [Bool.and_eq_true, decide_eq_true_eq] at hpass
  have hi : i < mountCount := mem_range.1 hmem
  rw [connMountPolling_of_some hcheck hfind]
  by_cases hlast : i = mountCount - 1
  · refine iff_of_false (fun h => ?_) ?_
    · have hok := h.ok_iff.2 ⟨i, hi, hpass.2⟩
      simp [hlast] at hok
    · rintro ⟨j, hj, hcheckj⟩
      have hne : j ≠ sfd % mountCount := fun heq => by
        rw [heq, hcheck] at hcheckj
        exact Bool.false_ne_true hcheckj
      have hj' := hbefore j (by omega)
      simp [hne, hcheckj] at hj'
  · refine iff_of_true ⟨iff_of_true (by simp [hlast]) ⟨i, hi, hpass.2⟩, fun _ => ?_⟩
      ⟨i, by omega, hpass.2⟩
    refine ⟨i, hi, rfl, hpass.2, fun hroom => ?_⟩
    rw [hcheck] at hroom
    exact absurd hroom Bool.false_ne_true

/-- **Choosing a mount.**  The function does what it is for exactly if the mount of the socket number
has room, or one in front of the last mount. -/
theorem mount_chosen_iff (check : ℕ → Bool) (mountCount : ℕ) (hcount : 1 ≤ mountCount) (sfd : ℕ)
    (fMntBlockIndex : ℤ) :
    MountChosen check mountCount sfd (connMountPolling check mountCount sfd fMntBlockIndex) ↔
      check (sfd % mountCount) = true ∨ ∃ i, i + 1 < mountCount ∧ check i = true := by
  cases hcheck : check (sfd % mountCount) with
  | true => exact iff_of_true (mountChosen_of_check hcount hcheck) (.inl rfl)
  | false =>
    rw [or_iff_right (by simp)]
    cases hfind : (range mountCount).find? fun i =>
        decide (i ≠ sfd % mountCount) && check i with
    | none => exact mountChosen_iff_of_none hcount hcheck hfind
    | some i => exact mountChosen_iff_of_some hcheck hfind

/-- Two mounts, of which the second one, that of the socket number 3, has room. -/
theorem mount_chosen_second : MountChosen (fun i => i = 1) 2 3 (connMountPolling (fun i => i = 1) 2 3 (-1)) :=
  (mount_chosen_iff (fun i => i = 1) 2 (by decide) 3 (-1)).2 (.inl (by decide))

/-- Two mounts, of which only the second one has room: for the socket number 4 the answer is
`LFS_ERROR`.  If none of them has room, the answer is `LFS_OK` and the index is not set. -/
theorem mount_not_chosen : connMountPolling (fun i => i = 1) 2 4 (-1) = (false, 1) ∧
      connMountPolling (fun _ => false) 2 4 (-1) = (true, -1) ∧
      ¬ MountChosen (fun i => i = 1) 2 4 (connMountPolling (fun i => i = 1) 2 4 (-1)) ∧
      ¬ MountChosen (fun _ => false) 2 4 (connMountPolling (fun _ => false) 2 4 (-1)) := by
  refine ⟨by decide, by decide, fun h => ?_, fun h => ?_⟩
  · exact absurd (h.ok_iff.2 ⟨1, by decide, by decide⟩) (by decide)
  · obtain ⟨i, -, hcheck⟩ := h.ok_iff.1 (by decide)
    exact absurd hcheck Bool.false_ne_true

end Mount

/-! ### The directory -/

/-- The directory that the `n`-th of several calls one after the other gives out. -/
def directoryAt (conf : ConfItems) (b : BlockSt) (n : ℕ) : Int32 × Int32 :=
  ((BlockSt.blockMapPathPolling conf)^[n] b).directory

/-- At most `m` calls in a row get the same directory. -/
def AtMostInARow (m : ℕ) (dir : ℕ → Int32 × Int32) : Prop :=
  ∀ i k, 1 ≤ i → (∀ j < k, dir (i + j) = dir i) → k ≤ m

/-- The number of a directory among the `s * s` directories. -/
def dirNumber (s : ℕ) (d : Int32 × Int32) : ℤ := d.1.toInt * s + d.2.toInt

/-- The directories are gone through in order, `m` calls for each. -/
structure Rotates (s m : ℕ) (dir : ℕ → Int32 × Int32) : Prop where
  closed : ∀ n, 1 ≤ n → (dir n).1.toInt = (n / m / s % s : ℕ) ∧ (dir n).2.toInt = (n / m % s : ℕ)
  below : ∀ n, 1 ≤ n → (0 ≤ (dir n).1.toInt ∧ (dir n).1.toInt < s) ∧
    0 ≤ (dir n).2.toInt ∧ (dir n).2.toInt < s
  /-- With one directory there is nothing to go on to. -/
  inARow : 2 ≤ s → AtMostInARow m dir
  order : ∀ n, 1 ≤ n → dir (n + 1) = dir n ∨
    dirNumber s (dir (n + 1)) = (dirNumber s (dir n) + 1) % (s * s)
  /-- Before a directory comes again all have been used. -/
  all : ∀ i j, 1 ≤ i → dir j = dir i → (∃ k, i < k ∧ k < j ∧ dir k ≠ dir i) →
    ∀ p < s, ∀ q < s, ∃ k, i ≤ k ∧ k < j ∧ (dir k).1.toInt = p ∧ (dir k).2.toInt = q

section Directory

variable {conf : ConfItems} {b : BlockSt} {s m n : ℕ}

/-- The counters of a mount stand at these wheels. -/
def BlockSt.Shows (b : BlockSt) (ds : List ℕ) : Prop :=
  [b.currPathMapFileCount, b.sufPathMap, b.prePathMap].map Int32.toInt = ds.map Nat.cast

lemma shows_iff {count suf pre : ℕ} : b.Shows [count, suf, pre] ↔
    b.currPathMapFileCount.toInt = count ∧ b.sufPathMap.toInt = suf ∧ b.prePathMap.toInt = pre := by
  simp [BlockSt.Shows]

lemma toInt_add_one {a bound : Int32} {d : ℕ} {base : ℕ} (ha : a.toInt = d)
    (hbound : bound.toInt = base) (hd : d < base) : (a + 1).toInt = d + 1 := by
  have hlt := bound.toInt_lt
  have hone : (1 : Int32).toInt = 1 := by decide
  rw [Int32.toInt_add, ha, hone]
  exact Int.bmod_eq_of_le (by omega) (by omega)

lemma BlockSt.Shows.blockMapPathPolling (hs : conf.blockSubCount.toInt = s)
    (hm : conf.blockMaxFileCount.toInt = m) (hs1 : 1 ≤ s) (hm1 : 1 ≤ m)
    (h : b.Shows (wheels [m, s, s] n)) :
    (b.blockMapPathPolling conf).Shows (wheels [m, s, s] (n + 1)) := by
  have hpos : ∀ base ∈ [m, s, s], 0 < base := by
    simp only [mem_cons, not_mem_nil, or_false, forall_eq_or_imp, forall_eq]
    omega
  rw [← turn_wheels hpos]
  simp only [wheels_cons, wheels_nil] at h ⊢
  have hcount : n % m < m := Nat.mod_lt _ hm1
  have hsuf : n / m % s < s := Nat.mod_lt _ hs1
  have hpre : n / m / s % s < s := Nat.mod_lt _ hs1
  generalize n % m = count at *
  generalize n / m % s = suf at *
  generalize n / m / s % s = pre at *
  obtain ⟨hb1, hb2, hb3⟩ := shows_iff.1 h
  have hcount1 := toInt_add_one hb1 hm hcount
  have hsuf1 := toInt_add_one hb2 hs hsuf
  have hpre1 := toInt_add_one hb3 hs hpre
  -- the comparisons of the source are those of the wheels
  have hfull : conf.blockMaxFileCount ≤ b.currPathMapFileCount + 1 ↔ m ≤ count + 1 := by
    rw [Int32.le_iff_toInt_le, hm, hcount1]
    omega
  have hcarry : conf.blockSubCount ≤ b.sufPathMap + 1 ↔ s ≤ suf + 1 := by
    rw [Int32.le_iff_toInt_le, hs, hsuf1]
    omega
  have hround : conf.blockSubCount ≤ b.prePathMap + 1 ↔ s ≤ pre + 1 := by
    rw [Int32.le_iff_toInt_le, hs, hpre1]
    omega
  simp only [BlockSt.blockMapPathPolling, BlockSt.lockedSection, turn, hfull, hcarry, hround]
  split_ifs <;> simp [shows_iff, hb2, hb3, hcount1, hsuf1, hpre1]

lemma shows_iterate (hs : conf.blockSubCount.toInt = s) (hm : conf.blockMaxFileCount.toInt = m)
    (hs1 : 1 ≤ s) (hm1 : 1 ≤ m) (hb : b.Shows [0, 0, 0]) (n : ℕ) :
    ((BlockSt.blockMapPathPolling conf)^[n] b).Shows (wheels [m, s, s] n) := by
  induction n with
  | zero =>
    rw [wheels_zero]
    exact hb
  | succ n ih =>
    rw [Function.iterate_succ_apply']
    exact ih.blockMapPathPolling hs hm hs1 hm1

/-- The `n`-th call gives out the directory with the digits of `n / m`. -/
def Closed (s m : ℕ) (dir : ℕ → Int32 × Int32) : Prop :=
  ∀ n, (dir n).1.toInt = (n / m / s % s : ℕ) ∧ (dir n).2.toInt = (n / m % s : ℕ)

variable {dir : ℕ → Int32 × Int32} {i j : ℕ}

section

variable (h : Closed s m dir)
include h

lemma Closed.eq_iff : dir i = dir j ↔ i / m % (s * s) = j / m % (s * s) := by
  have hwheels : wheels [s, s] (i / m) = wheels [s, s] (j / m) ↔
      i / m % (s * s) = j / m % (s * s) := by
    rw [wheels_eq_iff]
    simp
  rw [← hwheels, Prod.ext_iff, ← Int32.toInt_inj, ← Int32.toInt_inj, (h i).1, (h i).2, (h j).1,
    (h j).2]
  simp only [wheels_cons, wheels_nil, cons.injEq, and_true]
  omega

lemma Closed.dirNumber_eq (n : ℕ) :
    dirNumber s (dir n) = (n / m % (s * s) : ℕ) := by
  rw [dirNumber, (h n).1, (h n).2, Nat.mod_mul]
  push_cast
  ring

lemma Closed.below (hs1 : 1 ≤ s) (n : ℕ) :
    (0 ≤ (dir n).1.toInt ∧ (dir n).1.toInt < s) ∧ 0 ≤ (dir n).2.toInt ∧ (dir n).2.toInt < s := by
  have hpre : n / m / s % s < s := Nat.mod_lt _ hs1
  have hsuf : n / m % s < s := Nat.mod_lt _ hs1
  rw [(h n).1, (h n).2]
  omega

lemma Closed.inARow (hs2 : 2 ≤ s) (hm1 : 1 ≤ m) : AtMostInARow m dir := by
  intro i k _ hsame
  by_contra hlong
  have heq := h.eq_iff.1 (hsame m (by omega))
  rw [Nat.add_div_right i hm1] at heq
  have hss : 2 ≤ s * s := le_trans hs2 (Nat.le_mul_of_pos_left s (by omega))
  have hdvd : s * s ∣ i / m + 1 - i / m := (Nat.modEq_iff_dvd' (Nat.le_succ _)).1 heq.symm
  rw [Nat.add_sub_cancel_left] at hdvd
  exact absurd (Nat.le_of_dvd one_pos hdvd) (by omega)

lemma Closed.order (n : ℕ) : dir (n + 1) = dir n ∨
    dirNumber s (dir (n + 1)) = (dirNumber s (dir n) + 1) % (s * s) := by
  have hstep : (n + 1) / m = n / m ∨ (n + 1) / m = n / m + 1 := by
    rw [Nat.succ_div]
    split_ifs <;> simp
  rcases hstep with hstay | hnext
  · left
    rw [h.eq_iff, hstay]
  · right
    rw [h.dirNumber_eq, h.dirNumber_eq, hnext]
    push_cast
    exact (Int.emod_add_emod _ _ _).symm

end

lemma exists_mod_eq (a : ℕ) {N t : ℕ} (ht : t < N) : ∃ x, a ≤ x ∧ x < a + N ∧ x % N = t := by
  have hlt : a % N < N := Nat.mod_lt a (by omega)
  have ha : N * (a / N) + a % N = a := Nat.div_add_mod a N
  by_cases hle : a % N ≤ t
  · refine ⟨N * (a / N) + t, by omega, by omega, ?_⟩
    rw [Nat.mul_add_mod, Nat.mod_eq_of_lt ht]
  · refine ⟨N * (a / N + 1) + t, ?_, ?_, ?_⟩
    · rw [Nat.mul_add_one]
      omega
    · rw [Nat.mul_add_one]
      omega
    · rw [Nat.mul_add_mod, Nat.mod_eq_of_lt ht]

lemma Closed.all (h : Closed s m dir) (hs1 : 1 ≤ s) (hm1 : 1 ≤ m) (hsame : dir j = dir i)
    (hother : ∃ k, i < k ∧ k < j ∧ dir k ≠ dir i) {p q : ℕ} (hp : p < s) (hq : q < s) :
    ∃ k, i ≤ k ∧ k < j ∧ (dir k).1.toInt = p ∧ (dir k).2.toInt = q := by
  -- the directories are those of the numbers from `i / m` on, and at least all of them up to `j / m`
  have hround : i / m + s * s ≤ j / m := by
    obtain ⟨k, hik, hkj, hne⟩ := hother
    have hle : i / m ≤ k / m := Nat.div_le_div_right hik.le
    have hle' : k / m ≤ j / m := Nat.div_le_div_right hkj.le
    have hne' : i / m ≠ j / m := by
      intro heq
      refine hne (h.eq_iff.2 ?_)
      rw [show k / m = i / m by omega]
    have hdvd : s * s ∣ j / m - i / m :=
      (Nat.modEq_iff_dvd' (hle.trans hle')).1 (h.eq_iff.1 hsame).symm
    have hle'' := Nat.le_of_dvd (by omega) hdvd
    omega
  have ht : q + s * p < s * s := by
    calc q + s * p < s + s * p := Nat.add_lt_add_right hq _
      _ = s * (p + 1) := by ring
      _ ≤ s * s := Nat.mul_le_mul_left s hp
  obtain ⟨x, hix, hxj, hx⟩ := exists_mod_eq (i / m) ht
  -- the first call for the number `x`, or the call `i` itself
  obtain ⟨k, hik, hkj, hk⟩ : ∃ k, i ≤ k ∧ k < j ∧ k / m = x := by
    rcases Nat.eq_or_lt_of_le hix with rfl | hlt
    · obtain ⟨k, hik, hkj, -⟩ := hother
      exact ⟨i, le_rfl, hik.trans hkj, rfl⟩
    · refine ⟨x * m, ?_, ?_, Nat.mul_div_cancel x hm1⟩
      · exact ((Nat.div_lt_iff_lt_mul hm1).1 hlt).le
      · have hle := (Nat.le_div_iff_mul_le hm1).1 (Nat.succ_le_of_lt (hxj.trans_le hround))
        rw [Nat.succ_mul] at hle
        omega
  refine ⟨k, hik, hkj, ?_, ?_⟩
  · rw [(h k).1, hk, ← Nat.mod_mul_right_div_self, hx, Nat.add_mul_div_left _ _ hs1,
      Nat.div_eq_of_lt hq, zero_add]
  · rw [(h k).2, hk, ← Nat.mod_mul_right_mod x s s, hx, Nat.add_mul_mod_self_left,
      Nat.mod_eq_of_lt hq]

/-- **Directory rotation.**  From the first directory on, the `n`-th call gives out the directory whose
two numbers are the digits of `n / m` to the base `s`. -/
theorem directory_rotation (conf : ConfItems) (b : BlockSt) (s m : ℕ)
    (hs : conf.blockSubCount.toInt = s) (hm : conf.blockMaxFileCount.toInt = m) (hs1 : 1 ≤ s)
    (hm1 : 1 ≤ m) (hpre : b.prePathMap = 0) (hsuf : b.sufPathMap = 0)
    (hcount : b.currPathMapFileCount = 0) : Rotates s m (directoryAt conf b) := by
  have hb : b.Shows [0, 0, 0] := by
    rw [shows_iff, hpre, hsuf, hcount]
    decide
  have hclosed : Closed s m (directoryAt conf b) := by
    intro n
    obtain ⟨-, hsuf, hpre⟩ := shows_iff.1 (shows_iterate hs hm hs1 hm1 hb n)
    exact ⟨hpre, hsuf⟩
  exact
    { closed := fun n _ => hclosed n
      below := fun n _ => hclosed.below hs1 n
      inARow := fun hs2 => hclosed.inARow hs2 hm1
      order := fun n _ => hclosed.order n
      all := fun i j _ hsame hother p hp q hq => hclosed.all hs1 hm1 hsame hother hp hq }

def firstDirectory : BlockSt := ⟨[47, 109], 0, 0, 0, 0, 0⟩

/-- Two files to a directory and three times three directories: the seventh call starts the
directory `01/00`. -/
theorem directory_rotation_seven : (directoryAt ⟨3, 2⟩ firstDirectory 7).1.toInt = 1 ∧
    (directoryAt ⟨3, 2⟩ firstDirectory 7).2.toInt = 0 :=
  (directory_rotation ⟨3, 2⟩ firstDirectory 3 2 (by decide) (by decide) (by decide) (by decide)
    rfl rfl rfl).closed 7 (by decide)

/-- With one directory, two calls in a row get it, also for one file to a directory. -/
theorem directory_repeated : ¬ AtMostInARow 1 (directoryAt ⟨1, 1⟩ firstDirectory) := by
  intro h
  have hsame : ∀ j < 2, directoryAt ⟨1, 1⟩ firstDirectory (1 + j) =
      directoryAt ⟨1, 1⟩ firstDirectory 1 := by decide
  exact absurd (h 1 2 le_rfl hsame) (by decide)

end Directory

end Lfs.Block
