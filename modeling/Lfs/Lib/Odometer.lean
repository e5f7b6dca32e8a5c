/-
Counters that carry into each other, as the wheels of an odometer do.

`turn bs ds` moves the wheels `ds` on by one: the first wheel goes up, and when it reaches its
base it goes to zero and the wheels behind it are moved on.  `wheels bs n` are the digits of `n` in
the mixed radix `bs`, the lowest one first.  Moving on the wheels of `n` gives the wheels of
`n + 1` (`turn_wheels`), and two numbers have the same wheels exactly if they are congruent modulo the
product of the bases (`wheels_eq_iff`).
-/
import Mathlib.Algebra.BigOperators.Group.List.Basic
import Mathlib.Tactic.Common

namespace Lfs.Lib

open List

/-- The wheels after one move. -/
def turn : List ℕ → List ℕ → List ℕ
  | b :: bs, d :: ds => if b ≤ d + 1 then 0 :: turn bs ds else (d + 1) :: ds
  | _, ds => ds

/-- The digits of `n` in the mixed radix `bs`, the lowest one first. -/
def wheels : List ℕ → ℕ → List ℕ
  | [], _ => []
  | b :: bs, n => n % b :: wheels bs (n / b)

variable {b : ℕ} {bs : List ℕ}

@[simp] lemma wheels_nil (n : ℕ) : wheels [] n = [] := rfl

@[simp] lemma wheels_cons (n : ℕ) : wheels (b :: bs) n = n % b :: wheels bs (n / b) := rfl

lemma wheels_zero (bs : List ℕ) : wheels bs 0 = List.replicate bs.length 0 := by
  induction bs with
  | nil => rfl
  | cons b bs ih => rw [wheels_cons, Nat.zero_mod, Nat.zero_div, ih, length_cons, replicate_succ]

lemma turn_wheels (hbs : ∀ b ∈ bs, 0 < b) (n : ℕ) : turn bs (wheels bs n) = wheels bs (n + 1) := by
  induction bs generalizing n with
  | nil => rfl
  | cons b bs ih =>
    obtain ⟨hb, htail⟩ := forall_mem_cons.1 hbs
    have hlt : n % b < b := Nat.mod_lt n hb
    have hn : n % b + b * (n / b) = n := Nat.mod_add_div n b
    rw [wheels_cons, wheels_cons, turn]
    split_ifs with hfull
    · obtain ⟨hdiv, hmod⟩ : (n + 1) / b = n / b + 1 ∧ (n + 1) % b = 0 := by
        refine (Nat.div_mod_unique hb).2 ⟨?_, hb⟩
        rw [Nat.mul_add, Nat.mul_one]
        omega
      rw [hdiv, hmod, ih htail]
    · obtain ⟨hdiv, hmod⟩ : (n + 1) / b = n / b ∧ (n + 1) % b = n % b + 1 := by
        refine (Nat.div_mod_unique hb).2 ⟨?_, by omega⟩
        omega
      rw [hdiv, hmod]

lemma wheels_eq_iff {n k : ℕ} : wheels bs n = wheels bs k ↔ n % bs.prod = k % bs.prod := by
  induction bs generalizing n k with
  | nil => simp [Nat.mod_one]
  | cons b bs ih =>
    rw [wheels_cons, wheels_cons, List.cons.injEq, ih, prod_cons]
    constructor
    · rintro ⟨hmod, hdiv⟩
      rw [Nat.mod_mul, Nat.mod_mul, hmod, hdiv]
    · intro h
      have hmod : n % b = k % b := by
        rw [← Nat.mod_mul_right_mod n b bs.prod, h, Nat.mod_mul_right_mod]
      refine ⟨hmod, ?_⟩
      rw [← Nat.mod_mul_right_div_self, h, Nat.mod_mul_right_div_self]

end Lfs.Lib
