/-
A machine whose every step takes the next item of an endless stream.

`feed step s xs n` is the state after the first `n` items.  A step may stall: it leaves the machine no
nearer to its end.  If every other step brings a measure down, the machine comes to its end exactly if it
does not stall at every step from some step on (`exists_feed_iff`).  A trap is a state that the machine
does not leave as long as the items are of one kind (`exists_feed_iff_of_traps`).
-/
import Mathlib.Data.Prod.Lex
import Mathlib.Order.WellFounded
import Mathlib.Tactic.Common

namespace Lfs.Lib

variable {σ α : Type*}

/-- The state after the first `n` items of the stream `xs`. -/
def feed (step : σ → α → σ) (s : σ) (xs : ℕ → α) : ℕ → σ
  | 0 => s
  | n + 1 => step (feed step s xs n) (xs n)

variable {step : σ → α → σ} {s : σ} {xs : ℕ → α} {I D : σ → Prop} {Stall : σ → α → Prop}

lemma feed_succ (n : ℕ) : feed step s xs (n + 1) = step (feed step s xs n) (xs n) := rfl

lemma feed_inv (hstep : ∀ s a, I s → I (step s a)) (hs : I s) (n : ℕ) : I (feed step s xs n) := by
  induction n with
  | zero => exact hs
  | succ n ih => exact hstep _ _ ih

/-- A machine that at every step keeps `I` and brings a measure down, or gets to `D`, gets to `D`. -/
lemma exists_feed_of_measure (μ : σ → ℕ)
    (hstep : ∀ s a, I s → I (step s a) ∧ μ (step s a) < μ s ∨ D (step s a)) (hs : I s) :
    ∃ n, D (feed step s xs n) := by
  -- after `n` steps, the measure has come down by `n`
  have hdown (n : ℕ) : (∃ m, D (feed step s xs m)) ∨
      I (feed step s xs n) ∧ μ (feed step s xs n) + n ≤ μ s := by
    induction n with
    | zero => exact .inr ⟨hs, le_refl _⟩
    | succ n ih =>
      rcases ih with h | ⟨hI, hle⟩
      · exact .inl h
      rcases hstep _ (xs n) hI with ⟨hI', hlt⟩ | hD
      · refine .inr ⟨hI', ?_⟩
        rw [feed_succ]
        omega
      · exact .inl ⟨n + 1, hD⟩
  rcases hdown (μ s + 1) with h | ⟨-, hle⟩
  · exact h
  · omega

/-- **The end of a stream machine.**  If every step that does not stall brings the measure down or
gets to `D`, the machine gets to `D` exactly if it does not stall for ever. -/
lemma exists_feed_iff {β : Type*} [Preorder β] [WellFoundedLT β] (μ : σ → β)
    (hI : ∀ s a, I s → I (step s a)) (hD : ∀ s a, D s → D (step s a) ∧ ¬ Stall s a)
    (hstall : ∀ s a, I s → Stall s a → μ (step s a) ≤ μ s)
    (hgo : ∀ s a, I s → ¬ Stall s a → μ (step s a) < μ s ∨ D (step s a)) (hs : I s) :
    (∃ n, D (feed step s xs n)) ↔ ∀ k, ∃ n, k ≤ n ∧ ¬ Stall (feed step s xs n) (xs n) := by
  have hinv (n : ℕ) : I (feed step s xs n) := feed_inv hI hs n
  constructor
  · rintro ⟨m, hm⟩ k
    have hlater (i : ℕ) : D (feed step s xs (m + i)) := by
      induction i with
      | zero => exact hm
      | succ i ih => exact (hD _ _ ih).1
    exact ⟨m + k, Nat.le_add_left k m, (hD _ _ (hlater k)).2⟩
  · intro hmoves
    by_contra hnever
    have hlt (n : ℕ) (hn : ¬ Stall (feed step s xs n) (xs n)) :
        μ (feed step s xs (n + 1)) < μ (feed step s xs n) :=
      (hgo _ _ (hinv n) hn).resolve_right fun h => hnever ⟨n + 1, h⟩
    have hle (k i : ℕ) : μ (feed step s xs (k + i)) ≤ μ (feed step s xs k) := by
      induction i with
      | zero => exact le_refl _
      | succ i ih =>
        by_cases hn : Stall (feed step s xs (k + i)) (xs (k + i))
        · exact (hstall _ _ (hinv (k + i)) hn).trans ih
        · exact (hlt (k + i) hn).le.trans ih
    -- there is no least value of the measure
    have hno (b : β) : ∀ k, μ (feed step s xs k) ≠ b := by
      induction b using WellFoundedLT.induction with
      | ind b ih =>
        intro k hk
        obtain ⟨n, hkn, hn⟩ := hmoves k
        obtain ⟨i, rfl⟩ := Nat.exists_eq_add_of_le hkn
        exact ih _ (((hlt (k + i) hn).trans_le (hle k i)).trans_eq hk) (k + i + 1) rfl
    exact hno _ 0 rfl

/-- The machine has come to a lower phase, or there is less to do in the same phase. -/
def Later (phase todo : σ → ℕ) (s t : σ) : Prop :=
  phase t < phase s ∨ phase t = phase s ∧ todo t < todo s

lemma exists_feed_iff_of_later (phase todo : σ → ℕ)
    (hI : ∀ s a, I s → I (step s a)) (hD : ∀ s a, D s → D (step s a) ∧ ¬ Stall s a)
    (hstall : ∀ s a, I s → Stall s a → phase (step s a) = phase s ∧ todo (step s a) = todo s)
    (hgo : ∀ s a, I s → ¬ Stall s a → Later phase todo s (step s a) ∨ D (step s a)) (hs : I s) :
    (∃ n, D (feed step s xs n)) ↔ ∀ k, ∃ n, k ≤ n ∧ ¬ Stall (feed step s xs n) (xs n) := by
  refine exists_feed_iff (fun s => toLex (phase s, todo s)) hI hD ?_ ?_ hs
  · intro s a hs h
    obtain ⟨hphase, htodo⟩ := hstall s a hs h
    rw [hphase, htodo]
  · intro s a hs h
    exact (hgo s a hs h).imp_left Prod.Lex.toLex_lt_toLex.2

/-- **Traps.**  The machine gets to its end exactly if from every trap that it gets into, some later item
lets it out. -/
lemma exists_feed_iff_of_traps {ι : Type*} {Trap : ι → σ → Prop} {Held : ι → α → Prop}
    (phase todo : σ → ℕ) (hI : ∀ s a, I s → I (step s a)) (hD : ∀ s a, D s → D (step s a))
    (hfree : ∀ s i, D s → ¬ Trap i s) (huniq : ∀ s i j, Trap i s → Trap j s → i = j)
    (hkeep : ∀ s a i, I s → Trap i s → Held i a →
      Trap i (step s a) ∧ phase (step s a) = phase s ∧ todo (step s a) = todo s)
    (hgo : ∀ s a, I s → (∀ i, Trap i s → ¬ Held i a) → Later phase todo s (step s a) ∨ D (step s a))
    (hs : I s) :
    (∃ n, D (feed step s xs n)) ↔
      ∀ i k, Trap i (feed step s xs k) → ∃ n, k ≤ n ∧ ¬ Held i (xs n) := by
  have hstays {i : ι} {k : ℕ} (htrap : Trap i (feed step s xs k))
      (hheld : ∀ n, k ≤ n → Trap i (feed step s xs n) → Held i (xs n)) (j : ℕ) :
      Trap i (feed step s xs (k + j)) := by
    induction j with
    | zero => exact htrap
    | succ j ih => exact (hkeep _ _ i (feed_inv hI hs _) ih (hheld _ (Nat.le_add_right k j) ih)).1
  have hiff := @exists_feed_iff_of_later σ α step s xs I D (fun s a => ∃ i, Trap i s ∧ Held i a)
    phase todo hI ?_ ?_ ?_ hs
  · rw [hiff]
    constructor
    · intro hmoves i k htrap
      by_contra hheld
      have hheld (n : ℕ) (hn : k ≤ n) : Held i (xs n) := by
        by_contra hnot
        exact hheld ⟨n, hn, hnot⟩
      obtain ⟨n, hkn, hn⟩ := hmoves k
      obtain ⟨j, rfl⟩ := Nat.exists_eq_add_of_le hkn
      exact hn ⟨i, hstays htrap (fun n hkn _ => hheld n hkn) j, hheld (k + j) hkn⟩
    · intro hout k
      by_contra hstalls
      push Not at hstalls
      obtain ⟨i, htrap, -⟩ := hstalls k le_rfl
      -- the machine stays in this trap
      have hheld (n : ℕ) (hkn : k ≤ n) (ht : Trap i (feed step s xs n)) : Held i (xs n) := by
        obtain ⟨i', ht', hheld⟩ := hstalls n hkn
        rwa [huniq _ i' i ht' ht] at hheld
      obtain ⟨n, hkn, hn⟩ := hout i k htrap
      obtain ⟨j, rfl⟩ := Nat.exists_eq_add_of_le hkn
      exact hn (hheld _ hkn (hstays htrap hheld j))
  · exact fun s a h => ⟨hD s a h, fun ⟨i, hi, _⟩ => hfree s i h hi⟩
  · rintro s a hs ⟨i, htrap, hheld⟩
    exact (hkeep s a i hs htrap hheld).2
  · exact fun s a hs h => hgo s a hs fun i hi hh => h ⟨i, hi, hh⟩

end Lfs.Lib
