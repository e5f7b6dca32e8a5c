/-
Where a machine that takes its steps by itself comes to rest.

The machine is a function `f : σ → σ`.  `Reaches f s t` says that it gets from `s` to `t`, and
`Settles f s t` that it gets there and stays.  A measure that every step brings down shows that the
machine gets where it should (`Reaches.of_measure`), and an invariant under which every step moves that
it never rests (`not_settles_of_inv`).
-/
import Mathlib.Logic.Function.Iterate

namespace Lfs.Lib

open Function

variable {σ : Type*} {f : σ → σ} {s t u : σ}

/-- The machine gets from `s` to `t`. -/
def Reaches (f : σ → σ) (s t : σ) : Prop := ∃ n, f^[n] s = t

/-- The machine gets from `s` to `t` and stays there. -/
def Settles (f : σ → σ) (s t : σ) : Prop := Reaches f s t ∧ f t = t

namespace Reaches

lemma refl (f : σ → σ) (s : σ) : Reaches f s s := ⟨0, rfl⟩

lemma trans (hst : Reaches f s t) (htu : Reaches f t u) : Reaches f s u := by
  obtain ⟨m, rfl⟩ := hst
  obtain ⟨n, rfl⟩ := htu
  exact ⟨n + m, iterate_add_apply f n m s⟩

lemma step (h : f s = t) : Reaches f s t := ⟨1, h⟩

lemma head (h : f s = t) (htu : Reaches f t u) : Reaches f s u := (step h).trans htu

lemma inv {I : σ → Prop} (h : Reaches f s t) (hI : ∀ s, I s → I (f s)) (hs : I s) : I t := by
  obtain ⟨n, rfl⟩ := h
  induction n generalizing s with
  | zero => exact hs
  | succ n ih => exact ih (hI s hs)

lemma total (hst : Reaches f s t) (hsu : Reaches f s u) : Reaches f t u ∨ Reaches f u t := by
  obtain ⟨m, rfl⟩ := hst
  obtain ⟨n, rfl⟩ := hsu
  rcases Nat.le_total m n with hle | hle
  · left
    exact ⟨n - m, by rw [← iterate_add_apply, Nat.sub_add_cancel hle]⟩
  · right
    exact ⟨m - n, by rw [← iterate_add_apply, Nat.sub_add_cancel hle]⟩

/-- A machine that, while `I` holds, keeps `I` and brings a measure down, or gets to `D` with its next
step, gets to `D`. -/
lemma of_measure {I D : σ → Prop} (μ : σ → ℕ)
    (hstep : ∀ s, I s → I (f s) ∧ μ (f s) < μ s ∨ D (f s)) (hs : I s) :
    ∃ t, Reaches f s t ∧ D t := by
  induction hn : μ s using Nat.strongRecOn generalizing s with
  | ind n ih =>
    rcases hstep s hs with ⟨hI, hlt⟩ | hD
    · obtain ⟨t, hreach, ht⟩ := ih (μ (f s)) (hn ▸ hlt) hI rfl
      exact ⟨t, head rfl hreach, ht⟩
    · exact ⟨f s, step rfl, hD⟩

end Reaches

lemma eq_of_reaches_of_fixed (hfix : f s = s) (h : Reaches f s t) : t = s :=
  h.inv (I := (· = s)) (by rintro _ rfl; exact hfix) rfl

lemma settles_iff_of_reaches (hst : Reaches f s t) : Settles f s u ↔ Settles f t u := by
  constructor
  · rintro ⟨hsu, hfix⟩
    refine ⟨?_, hfix⟩
    rcases hst.total hsu with h | h
    · exact h
    · rw [eq_of_reaches_of_fixed hfix h]
      exact Reaches.refl f u
  · rintro ⟨htu, hfix⟩
    exact ⟨hst.trans htu, hfix⟩

lemma Settles.unique (ht : Settles f s t) (hu : Settles f s u) : t = u := by
  have htu := (settles_iff_of_reaches ht.1).1 hu
  exact (eq_of_reaches_of_fixed ht.2 htu.1).symm

lemma not_settles_of_inv {I : σ → Prop} (hstep : ∀ s, I s → I (f s) ∧ f s ≠ s) (hs : I s) :
    ¬ Settles f s t := by
  rintro ⟨hreach, hfix⟩
  have ht : I t := hreach.inv (fun s hs => (hstep s hs).1) hs
  exact (hstep t ht).2 hfix

end Lfs.Lib
