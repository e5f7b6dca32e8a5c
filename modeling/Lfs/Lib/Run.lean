/-
Runs of a step function, and properties that hold along a run.

A component is a function `step : σ → α → σ` that takes a state and an action.
`Along step R s as` says that the run of `as` from `s` keeps the relation `R` between
the state before a step, the action and the state after it.  An invariant that every
step keeps gives the promise along the run (`Along.of_inv`), and a condition on single
steps that is equivalent to the promise under the invariant is equivalent to it along
the run (`Along.iff_of_inv`).
-/
import Mathlib.Tactic.Common
import Mathlib.Data.Nat.Notation
import Mathlib.Logic.Function.Basic

namespace Lfs.Lib

open List Function

variable {σ α : Type*}

/-- The state reached from `s` by the actions `as`. -/
def run (step : σ → α → σ) (s : σ) (as : List α) : σ := as.foldl step s

/-- Every step of the run of `as` from `s` satisfies `R`. -/
def Along (step : σ → α → σ) (R : σ → α → σ → Prop) : σ → List α → Prop
  | _, [] => True
  | s, a :: as => R s a (step s a) ∧ Along step R (step s a) as

variable {step : σ → α → σ} {s : σ} {a : α} {as : List α} {R S : σ → α → σ → Prop} {I : σ → Prop}

@[simp] lemma run_nil : run step s [] = s := rfl

@[simp] lemma run_cons : run step s (a :: as) = run step (step s a) as := rfl

lemma run_append (as bs : List α) : run step s (as ++ bs) = run step (run step s as) bs :=
  foldl_append

@[simp] lemma along_nil : Along step R s [] := trivial

@[simp] lemma along_cons :
    Along step R s (a :: as) ↔ R s a (step s a) ∧ Along step R (step s a) as := Iff.rfl

instance Along.decidable [∀ s a t, Decidable (R s a t)] :
    ∀ (s : σ) (as : List α), Decidable (Along step R s as)
  | _, [] => isTrue trivial
  | s, a :: as =>
    have := Along.decidable (step s a) as
    inferInstanceAs (Decidable (R s a (step s a) ∧ Along step R (step s a) as))

namespace Along

lemma mono (h : Along step R s as) (hRS : ∀ s a t, R s a t → S s a t) : Along step S s as := by
  induction as generalizing s with
  | nil => trivial
  | cons a as ih => exact ⟨hRS _ _ _ h.1, ih h.2⟩

lemma of_forall (h : ∀ s a t, R s a t) : Along step R s as := by
  induction as generalizing s with
  | nil => trivial
  | cons a as ih => exact ⟨h _ _ _, ih⟩

lemma of_forall_mem {P : α → Prop} (h : ∀ a ∈ as, P a) : Along step (fun _ a _ => P a) s as := by
  induction as generalizing s with
  | nil => trivial
  | cons a as ih =>
    exact ⟨h a mem_cons_self, ih fun b hb => h b (mem_cons_of_mem a hb)⟩

lemma append_iff {bs : List α} :
    Along step R s (as ++ bs) ↔ Along step R s as ∧ Along step R (run step s as) bs := by
  induction as generalizing s with
  | nil => exact (and_iff_right trivial).symm
  | cons a as ih => rw [cons_append, along_cons, along_cons, run_cons, ih, and_assoc]

lemma inv (hI : I s) (h : Along step R s as)
    (hstep : ∀ s a, I s → R s a (step s a) → I (step s a)) : I (run step s as) := by
  induction as generalizing s with
  | nil => exact hI
  | cons a as ih => exact ih (hstep s a hI h.1) h.2

lemma of_inv (hI : I s) (h : Along step R s as)
    (hstep : ∀ s a, I s → R s a (step s a) → I (step s a) ∧ S s a (step s a)) :
    Along step S s as := by
  induction as generalizing s with
  | nil => trivial
  | cons a as ih =>
    obtain ⟨hI', hS⟩ := hstep s a hI h.1
    exact ⟨hS, ih hI' h.2⟩

lemma run_inv (hI : I s) (hstep : ∀ s a, I s → I (step s a)) : I (run step s as) :=
  inv (R := fun _ _ _ => True) hI (of_forall fun _ _ _ => trivial) fun s a hs _ => hstep s a hs

lemma iff_of_inv {E : σ → α → σ → Prop} (hI : I s) (hE : Along step E s as)
    (hiff : ∀ s a, I s → E s a (step s a) → (R s a (step s a) ↔ S s a (step s a)))
    (hinv : ∀ s a, I s → E s a (step s a) → R s a (step s a) → I (step s a)) :
    Along step R s as ↔ Along step S s as := by
  induction as generalizing s with
  | nil => simp
  | cons a as ih =>
    have hhead := hiff s a hI hE.1
    constructor
    · rintro ⟨hR, htail⟩
      exact ⟨hhead.1 hR, (ih (hinv s a hI hE.1 hR) hE.2).1 htail⟩
    · rintro ⟨hS, htail⟩
      have hR := hhead.2 hS
      exact ⟨hR, (ih (hinv s a hI hE.1 hR) hE.2).2 htail⟩

lemma iff_of_inv' (hI : I s) (hiff : ∀ s a, I s → (R s a (step s a) ↔ S s a (step s a)))
    (hinv : ∀ s a, I s → R s a (step s a) → I (step s a)) : Along step R s as ↔ Along step S s as :=
  iff_of_inv (E := fun _ _ _ => True) hI (of_forall fun _ _ _ => trivial)
    (fun s a hs _ => hiff s a hs) fun s a hs _ => hinv s a hs

/-- A condition that keeps the invariant, and that brings a state for good into `B` when it
is broken, holds along a run exactly if the run does not end in `B`. -/
lemma iff_not_absorbed {I B : σ → Prop} (hI : I s) (hdisjoint : ∀ s, I s → ¬ B s)
    (hinv : ∀ s a, I s → R s a (step s a) → I (step s a))
    (hbreak : ∀ s a, I s → ¬ R s a (step s a) → B (step s a)) (hstay : ∀ s a, B s → B (step s a)) :
    Along step R s as ↔ ¬ B (run step s as) := by
  constructor
  · intro h
    exact hdisjoint _ (h.inv hI hinv)
  · -- the first step that breaks the condition is followed by states in `B` only
    have habsorbed (s : σ) (as : List α) (hB : B s) : B (run step s as) := run_inv hB hstay
    intro h
    induction as generalizing s with
    | nil => trivial
    | cons a as ih =>
      have hR : R s a (step s a) := by
        by_contra hR
        exact h (habsorbed _ as (hbreak s a hI hR))
      exact ⟨hR, ih (hinv s a hI hR) h⟩

end Along

/-! ### Several components -/

section Components

variable {ι : Type*} [DecidableEq ι] {c : ι → σ} {acts : List (ι × α)}

/-- A step of one of several components that share nothing. -/
def componentStep (step : σ → α → σ) (c : ι → σ) (a : ι × α) : ι → σ :=
  Function.update c a.1 (step (c a.1) a.2)

/-- The actions of the component `i`. -/
def actionsOf (i : ι) (acts : List (ι × α)) : List α :=
  acts.filterMap fun a => if a.1 = i then some a.2 else none

lemma actionsOf_cons_self (i : ι) (a : α) : actionsOf i ((i, a) :: acts) = a :: actionsOf i acts :=
  filterMap_cons_some (if_pos rfl)

lemma actionsOf_cons_ne {i j : ι} (hij : j ≠ i) (a : α) :
    actionsOf i ((j, a) :: acts) = actionsOf i acts :=
  filterMap_cons_none (if_neg hij)

lemma run_componentStep (i : ι) :
    run (componentStep step) c acts i = run step (c i) (actionsOf i acts) := by
  induction acts generalizing c with
  | nil => rfl
  | cons a acts ih =>
    obtain ⟨j, a⟩ := a
    rw [run_cons, ih]
    by_cases hij : j = i
    · subst hij
      rw [actionsOf_cons_self, run_cons, componentStep, update_self]
    · rw [actionsOf_cons_ne hij, componentStep, update_of_ne (Ne.symm hij)]

lemma Along.component
    (h : Along (componentStep step) (fun c a d => R (c a.1) a.2 (d a.1)) c acts) (i : ι) :
    Along step R (c i) (actionsOf i acts) := by
  induction acts generalizing c with
  | nil => trivial
  | cons a acts ih =>
    obtain ⟨j, a⟩ := a
    obtain ⟨hstep, hrest⟩ := h
    have hrest := ih hrest
    by_cases hij : j = i
    · subst hij
      rw [componentStep, update_self] at hstep hrest
      rw [actionsOf_cons_self]
      exact ⟨hstep, hrest⟩
    · rw [componentStep, update_of_ne (Ne.symm hij)] at hrest
      rw [actionsOf_cons_ne hij]
      exact hrest

end Components

end Lfs.Lib
