/-
A stream that arrives in segments.

A reader that has taken `n` elements of the stream stands in one of the segments, or at its
end.  `advance n segs` is what it still has before it, `ahead n segs` is how much of the
segment is left, and `behind n segs` is how much of the `n` elements came from this segment.
-/
import Mathlib.Data.List.Basic
import Mathlib.Tactic.Common

namespace Lfs.Lib

open List

variable {α : Type*} {n m : ℕ} {s : List α} {segs : List (List α)}

/-- The segments after `n` elements have been taken. -/
def advance : ℕ → List (List α) → List (List α)
  | _, [] => []
  | n, s :: segs => if n ≤ s.length then s.drop n :: segs else advance (n - s.length) segs

/-- What is left of the segment from which the last of `n` elements was taken. -/
def ahead : ℕ → List (List α) → ℕ
  | _, [] => 0
  | n, s :: segs => if n ≤ s.length then s.length - n else ahead (n - s.length) segs

/-- How many of `n` elements were taken from the segment of the last one. -/
def behind : ℕ → List (List α) → ℕ
  | n, [] => n
  | n, s :: segs => if n ≤ s.length then n else behind (n - s.length) segs

lemma advance_of_le (h : n ≤ s.length) : advance n (s :: segs) = s.drop n :: segs := if_pos h

lemma advance_of_lt (h : s.length < n) : advance n (s :: segs) = advance (n - s.length) segs :=
  if_neg (by omega)

lemma ahead_of_le (h : n ≤ s.length) : ahead n (s :: segs) = s.length - n := if_pos h

lemma ahead_of_lt (h : s.length < n) : ahead n (s :: segs) = ahead (n - s.length) segs :=
  if_neg (by omega)

lemma behind_of_le (h : n ≤ s.length) : behind n (s :: segs) = n := if_pos h

lemma behind_of_lt (h : s.length < n) : behind n (s :: segs) = behind (n - s.length) segs :=
  if_neg (by omega)

lemma advance_nil_cons (h : 0 < n) : advance n ([] :: segs) = advance n segs := advance_of_lt h

lemma ahead_nil_cons (h : 0 < n) : ahead n ([] :: segs) = ahead n segs := ahead_of_lt h

lemma behind_nil_cons (h : 0 < n) : behind n ([] :: segs) = behind n segs := behind_of_lt h

@[simp] lemma advance_zero (segs : List (List α)) : advance 0 segs = segs := by
  cases segs with
  | nil => rfl
  | cons s segs => rw [advance_of_le (Nat.zero_le _), drop_zero]

@[simp] lemma behind_zero (segs : List (List α)) : behind 0 segs = 0 := by
  cases segs with
  | nil => rfl
  | cons s segs => rw [behind_of_le (Nat.zero_le _)]

lemma add_ahead_le (h : n ≤ segs.flatten.length) : n + ahead n segs ≤ segs.flatten.length := by
  induction segs generalizing n with
  | nil => simpa [ahead] using h
  | cons s segs ih =>
    rw [flatten_cons, length_append] at h ⊢
    rcases Nat.lt_or_ge s.length n with hlt | hle
    · have hsegs := ih (n := n - s.length) (by omega)
      rw [ahead_of_lt hlt]
      omega
    · rw [ahead_of_le hle]
      omega

lemma flatten_advance (n : ℕ) (segs : List (List α)) :
    (advance n segs).flatten = segs.flatten.drop n := by
  induction segs generalizing n with
  | nil => simp [advance]
  | cons s segs ih =>
    rcases Nat.lt_or_ge s.length n with hlt | hle
    · rw [advance_of_lt hlt, ih, flatten_cons, drop_append,
        drop_eq_nil_of_le (Nat.le_of_lt hlt), nil_append]
    · rw [advance_of_le hle, flatten_cons, flatten_cons, drop_append_of_le_length hle]

lemma advance_advance (m n : ℕ) (segs : List (List α)) :
    advance n (advance m segs) = advance (m + n) segs := by
  induction segs generalizing m with
  | nil => rfl
  | cons s segs ih =>
    rcases Nat.lt_or_ge s.length m with hm | hm
    · rw [advance_of_lt hm, ih, advance_of_lt (by omega)]
      congr 1
      omega
    · rw [advance_of_le hm]
      rcases Nat.lt_or_ge s.length (m + n) with hn | hn
      · rw [advance_of_lt (by simp only [length_drop]; omega), advance_of_lt hn]
        congr 1
        simp only [length_drop]
        omega
      · rw [advance_of_le (by simp only [length_drop]; omega), advance_of_le hn, drop_drop]

end Lfs.Lib
