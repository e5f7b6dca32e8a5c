/-
A buffer as a function from addresses, written piece by piece.

A buffer that was filled with one value and then written from the front is `filled z l`: it holds the
list `l` and after it only `z`.  A write behind `l` leaves a gap of `z` in between.

A sequence of writes is a list of addresses with the values that are copied there.  What was in the
buffer before remains exactly at the addresses that none of them covers.
-/
import Mathlib.Data.List.Basic
import Mathlib.Tactic.Common

namespace Lfs.Lib

open List Option

variable {α : Type*} {z : α} {l d : List α} {m : ℕ → α} {p n : ℕ}

/-- The buffer after the values `d` have been copied to the address `p`. -/
def writeAt (p : ℕ) (d : List α) (m : ℕ → α) : ℕ → α := fun a =>
  if p ≤ a then (d[a - p]?).getD (m a) else m a

/-- The first `n` values of a buffer. -/
def readFront (n : ℕ) (m : ℕ → α) : List α := (range n).map m

/-- A buffer that holds the list `l`, and `z` after it. -/
def filled (z : α) (l : List α) : ℕ → α := fun a => (l[a]?).getD z

lemma filled_append_replicate (k : ℕ) : filled z (l ++ replicate k z) = filled z l := by
  funext a
  rw [filled, filled, getElem?_append]
  split_ifs with ha
  · rfl
  · rw [getElem?_eq_none (Nat.le_of_not_lt ha), getElem?_replicate]
    split_ifs <;> rfl

lemma writeAt_filled_end (hp : l.length = p) : writeAt p d (filled z l) = filled z (l ++ d) := by
  subst hp
  funext a
  rw [writeAt, filled, filled, getElem?_append]
  split_ifs with hle hlt hlt
  · exact absurd hle (Nat.not_le_of_lt hlt)
  · rw [getElem?_eq_none hle]
    rfl
  · rfl
  · exact absurd (Nat.lt_of_not_le hle) hlt

lemma writeAt_filled (hp : l.length ≤ p) :
    writeAt p d (filled z l) = filled z (l ++ replicate (p - l.length) z ++ d) := by
  have hlen : (l ++ replicate (p - l.length) z).length = p := by
    rw [length_append, length_replicate, Nat.add_sub_cancel' hp]
  rw [← writeAt_filled_end hlen, filled_append_replicate]

lemma readFront_filled (hn : n ≤ l.length) : readFront n (filled z l) = l.take n := by
  refine ext_getElem? fun a => ?_
  rw [readFront, getElem?_map, getElem?_take]
  split_ifs with ha
  · rw [getElem?_range ha, map_some, filled,
      getElem?_eq_getElem (Nat.lt_of_lt_of_le ha hn), getD_some]
  · rw [getElem?_eq_none (by simpa using ha)]
    rfl

lemma length_readFront : (readFront n m).length = n := by simp [readFront]

lemma readFront_eq_iff {m' : ℕ → α} : readFront n m = readFront n m' ↔ ∀ a < n, m a = m' a := by
  simp [readFront]

lemma readFront_add (k : ℕ) :
    readFront (n + k) m = readFront n m ++ readFront k fun a => m (n + a) := by
  rw [readFront, range_add, map_append, List.map_map]
  rfl

lemma writeAt_writeAt {d' : List α} :
    writeAt (p + d.length) d' (writeAt p d m) = writeAt p (d ++ d') m := by
  funext a
  simp only [writeAt, getElem?_append]
  by_cases hp : p ≤ a
  · by_cases hd : p + d.length ≤ a
    · have hnone : d[a - p]? = none := getElem?_eq_none (by omega)
      rw [if_pos hd, if_pos hp, if_pos hp, if_neg (by omega), hnone, getD_none, Nat.sub_sub]
    · rw [if_neg hd, if_pos hp, if_pos hp, if_pos (by omega)]
  · rw [if_neg (by omega), if_neg hp, if_neg hp]

lemma readFront_writeAt (hn : n ≤ d.length) : readFront n (writeAt 0 d m) = d.take n := by
  refine ext_getElem ?_ fun a ha ha' => ?_
  · rw [length_readFront, length_take, Nat.min_eq_left hn]
  · rw [length_readFront] at ha
    have hlt : a < d.length := by omega
    simp [readFront, writeAt, getElem?_eq_getElem hlt]

lemma readFront_writeAt_shift (hp : p ≤ d.length) (k : ℕ) :
    readFront (d.length - p + k) (fun a => writeAt 0 d m (p + a)) =
      d.drop p ++ readFront k fun a => m (d.length + a) := by
  rw [readFront_add]
  congr 1
  · refine ext_getElem ?_ fun a ha ha' => ?_
    · rw [length_readFront, length_drop]
    · rw [length_readFront] at ha
      have hlt : p + a < d.length := by omega
      simp [readFront, writeAt, getElem?_eq_getElem hlt]
  · refine congrArg (readFront k) (funext fun a => ?_)
    have hge : d.length ≤ p + (d.length - p + a) := by omega
    rw [writeAt, if_pos (Nat.zero_le _), Nat.sub_zero, getElem?_eq_none hge, getD_none]
    congr 1
    omega

/-! ### Several writes -/

/-- The buffer after several writes, the first one first. -/
def writeAll (ws : List (ℕ × List α)) (m : ℕ → α) : ℕ → α :=
  ws.foldl (fun m w => writeAt w.1 w.2 m) m

/-- One of the writes goes to the address `a`. -/
def Covered (ws : List (ℕ × List α)) (a : ℕ) : Prop := ∃ w ∈ ws, w.1 ≤ a ∧ a < w.1 + w.2.length

instance (ws : List (ℕ × List α)) (a : ℕ) : Decidable (Covered ws a) :=
  inferInstanceAs (Decidable (∃ w ∈ ws, _))

variable {ws : List (ℕ × List α)} {m' : ℕ → α} {a : ℕ}

lemma writeAll_append {vs : List (ℕ × List α)} : writeAll (vs ++ ws) m = writeAll ws (writeAll vs m) :=
  foldl_append

lemma covered_append {vs : List (ℕ × List α)} : Covered (vs ++ ws) a ↔ Covered vs a ∨ Covered ws a := by
  simp only [Covered, mem_append, or_and_right, exists_or]

lemma writeAt_shift (q : ℕ) :
    (fun a => writeAt (q + p) d m (q + a)) = writeAt p d fun a => m (q + a) := by
  funext a
  simp only [writeAt, Nat.add_le_add_iff_left, Nat.add_sub_add_left]

lemma writeAt_of_covered (hle : p ≤ a) (hlt : a < p + d.length) :
    writeAt p d m a = writeAt p d m' a := by
  have hlength : a - p < d.length := by omega
  rw [writeAt, writeAt, if_pos hle, if_pos hle, getElem?_eq_getElem hlength]
  rfl

lemma writeAt_of_not_covered (h : ¬ (p ≤ a ∧ a < p + d.length)) : writeAt p d m a = m a := by
  rw [writeAt]
  split_ifs with hle
  · rw [getElem?_eq_none (by omega), getD_none]
  · rfl

lemma writeAll_of_not_covered (h : ¬ Covered ws a) : writeAll ws m a = m a := by
  induction ws generalizing m with
  | nil => rfl
  | cons w ws ih =>
    have hw : ¬ (w.1 ≤ a ∧ a < w.1 + w.2.length) := fun hw => h ⟨w, mem_cons_self, hw⟩
    have hws : ¬ Covered ws a := fun ⟨w', hw', hcov⟩ => h ⟨w', mem_cons_of_mem w hw', hcov⟩
    rw [writeAll, foldl_cons, ← writeAll, ih hws, writeAt_of_not_covered hw]

lemma writeAll_of_covered (h : Covered ws a) : writeAll ws m a = writeAll ws m' a := by
  induction ws generalizing m m' with
  | nil => simp [Covered] at h
  | cons w ws ih =>
    rw [writeAll, writeAll, foldl_cons, foldl_cons, ← writeAll, ← writeAll]
    by_cases hws : Covered ws a
    · exact ih hws
    · -- the first write is the last one that goes there
      obtain ⟨w', hw', hle, hlt⟩ := h
      rcases mem_cons.1 hw' with rfl | hw'
      · rw [writeAll_of_not_covered hws, writeAll_of_not_covered hws, writeAt_of_covered hle hlt]
      · exact absurd ⟨w', hw', hle, hlt⟩ hws

/-- **What is left over.**  Two buffers look the same after the writes if and only if they were the
same at the addresses that the writes do not cover. -/
lemma readFront_writeAll_eq_iff : readFront n (writeAll ws m) = readFront n (writeAll ws m') ↔
      ∀ a < n, ¬ Covered ws a → m a = m' a := by
  rw [readFront_eq_iff]
  refine forall₂_congr fun a _ => ?_
  by_cases hcov : Covered ws a
  · exact iff_of_true (writeAll_of_covered hcov) fun h => absurd hcov h
  · rw [writeAll_of_not_covered hcov, writeAll_of_not_covered hcov]
    exact ⟨fun h _ => h, fun h => h hcov⟩

end Lfs.Lib
