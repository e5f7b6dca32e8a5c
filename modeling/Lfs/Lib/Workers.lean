/-
Workers that share a state and take their steps in any order.

A worker is a value, and a step of it reads and changes the shared state and the worker.  Where every
step leaves the shared state alone, or is the one with which a worker passes a point and which does
`g` to the shared state, the shared state after any steps is what `g` makes of the first one when it is
done once for each worker that has passed (`Workers.Serial.step`).
-/
import Mathlib.Data.List.Basic
import Mathlib.Logic.Function.Iterate
import Mathlib.Tactic.Common

namespace Lfs.Lib

open List

lemma countP_set_add {α : Type*} {l : List α} {n : ℕ} {a : α} (b : α) (p : α → Bool)
    (ha : l[n]? = some a) :
    (l.set n b).countP p + (if p a then 1 else 0) = l.countP p + if p b then 1 else 0 := by
  induction l generalizing n with
  | nil => simp at ha
  | cons x l ih =>
    cases n with
    | zero =>
      obtain rfl := Option.some.inj ha
      rw [set_cons_zero, countP_cons, countP_cons]
      omega
    | succ n =>
      have hrest := ih ha
      rw [set_cons_succ, countP_cons, countP_cons]
      omega

structure Workers (σ ω : Type*) where
  shared : σ
  workers : List ω

namespace Workers

variable {σ ω : Type*} {r : Workers σ ω} {n : ℕ} {w : ω}

/-- The worker `n` takes a step. -/
def step (f : σ → ω → σ × ω) (r : Workers σ ω) (n : ℕ) : Workers σ ω :=
  match r.workers[n]? with
  | none => r
  | some w => ⟨(f r.shared w).1, r.workers.set n (f r.shared w).2⟩

variable {f : σ → ω → σ × ω} {g : σ → σ} {p : ω → Bool} {s : σ}

lemma step_of_none (hw : r.workers[n]? = none) : r.step f n = r := by
  rw [step, hw]

lemma step_of_some (hw : r.workers[n]? = some w) :
    r.step f n = ⟨(f r.shared w).1, r.workers.set n (f r.shared w).2⟩ := by
  rw [step, hw]

/-- The step of a worker leaves the shared state alone, or passes the point and does `g`. -/
def Passes (g : σ → σ) (p : ω → Bool) (s : σ) (w : ω) (r : σ × ω) : Prop :=
  (p r.2 = p w ∧ r.1 = s) ∨ (p w = false ∧ p r.2 = true ∧ r.1 = g s)

/-- The shared state is what the workers that have passed would make of `s` one after the other. -/
def Serial (g : σ → σ) (p : ω → Bool) (s : σ) (r : Workers σ ω) : Prop :=
  r.shared = g^[r.workers.countP p] s

lemma Serial.step (h : r.Serial g p s) (hw : r.workers[n]? = some w)
    (hpass : Passes g p r.shared w (f r.shared w)) : (r.step f n).Serial g p s := by
  have hcount := countP_set_add (f r.shared w).2 p hw
  rw [step_of_some hw, Serial]
  rcases hpass with ⟨hsame, hshared⟩ | ⟨hbefore, hafter, hshared⟩
  · rw [hsame] at hcount
    rw [hshared, Nat.add_right_cancel hcount]
    exact h
  · rw [hbefore, hafter] at hcount
    simp only [Bool.false_eq_true, if_false, if_true, Nat.add_zero] at hcount
    rw [hshared, hcount, Function.iterate_succ_apply', ← h]

end Workers

end Lfs.Lib
