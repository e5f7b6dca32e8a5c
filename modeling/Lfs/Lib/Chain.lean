/-
Chains of pointers.

The cells of a singly linked list have addresses, and `fwd x` is the pointer at the position `x`:
the position `none` is the head of the list and the position `some a` is the cell `a`.  `Chain fwd L`
says that the pointers lead through the addresses `L`, in this order, and then to the null pointer.
A cell is put into a chain and taken out of it by changing the pointers at one or two positions.
-/
import Mathlib.Data.List.Basic

namespace Lfs.Lib

open List Option

variable {α : Type*} {fwd : Option α → Option α} {L P S : List α}

/-- The pointers lead from the head through the addresses `L`. -/
def Chain (fwd : Option α → Option α) (L : List α) : Prop :=
  ∀ P S, L = P ++ S → fwd P.getLast? = S.head?

namespace Chain

lemma nil (h : fwd none = none) : Chain fwd [] := by
  intro P S hL
  obtain ⟨rfl, rfl⟩ := append_eq_nil_iff.1 hL.symm
  exact h

lemma head (h : Chain fwd L) : fwd none = L.head? := h [] L rfl

lemma cell {a : α} (h : Chain fwd (P ++ a :: S)) : fwd (some a) = S.head? := by
  have hcell := h (P ++ [a]) S (by rw [append_assoc, singleton_append])
  rwa [getLast?_append, getLast?_singleton, some_or] at hcell

lemma getLast?_ne {M : List α} (hL : (P ++ (M ++ S)).Nodup) (hM : M ≠ []) :
    (P ++ M).getLast? ≠ P.getLast? := by
  rw [getLast?_append, getLast?_eq_some_getLast hM, some_or]
  intro heq
  have hP := mem_of_getLast? heq.symm
  have hlast := mem_append_left S (getLast_mem hM)
  exact (nodup_append.1 hL).2.2 _ hP _ hlast rfl

section Update

variable [DecidableEq α] {a : α}

lemma insert (h : Chain fwd (P ++ S)) (hnodup : (P ++ S).Nodup) (ha : a ∉ P ++ S) :
    Chain (fun x => if x = some a then fwd P.getLast? else if x = P.getLast? then some a else fwd x)
      (P ++ a :: S) := by
  have hlast {Q R : List α} (hQ : P ++ S = Q ++ R) : Q.getLast? ≠ some a := by
    intro heq
    exact ha (hQ ▸ mem_append_left R (mem_of_getLast? heq))
  have hP : P.getLast? ≠ some a := hlast rfl
  intro Q R hQ
  dsimp only
  rcases append_eq_append_iff.1 hQ with ⟨M, rfl, hM⟩ | ⟨M, rfl, rfl⟩
  · cases M with
    | nil =>
      rw [append_nil, if_neg hP, if_pos rfl]
      rw [nil_append] at hM
      rw [← hM, head?_cons]
    | cons b M =>
      obtain ⟨rfl, rfl⟩ := cons_eq_cons.1 hM
      have hget : (P ++ a :: M).getLast? = M.getLast?.or (some a) := by
        rw [append_cons, getLast?_append, getLast?_append, getLast?_singleton, some_or]
      rcases eq_or_ne M [] with rfl | hne
      · rw [hget, getLast?_nil, none_or, if_pos rfl]
        exact h P R rfl
      · -- the position is after the new cell
        have hget' : (P ++ a :: M).getLast? = (P ++ M).getLast? := by
          rw [hget, getLast?_append, getLast?_eq_some_getLast hne, some_or, some_or]
        rw [hget', if_neg (hlast (append_assoc P M R).symm), if_neg (getLast?_ne hnodup hne)]
        exact h (P ++ M) R (append_assoc P M R).symm
  · rcases eq_or_ne M [] with rfl | hne
    · rw [append_nil] at hP ⊢
      rw [if_neg hP, if_pos rfl, nil_append, head?_cons]
    · -- the position is before the new cell
      have hL : Q ++ M ++ S = Q ++ (M ++ S) := append_assoc Q M S
      rw [if_neg (hlast hL), if_neg (getLast?_ne (hL ▸ hnodup) hne).symm, h Q (M ++ S) hL,
        head?_append_of_ne_nil _ hne, head?_append_of_ne_nil _ hne]

lemma remove (h : Chain fwd (P ++ a :: S)) (hnodup : (P ++ a :: S).Nodup) :
    Chain (fun x => if x = P.getLast? then fwd (some a) else fwd x) (P ++ S) := by
  intro Q R hQ
  dsimp only
  rcases append_eq_append_iff.1 hQ with ⟨M, rfl, rfl⟩ | ⟨M, rfl, rfl⟩
  · rcases eq_or_ne M [] with rfl | hne
    · rw [append_nil, if_pos rfl]
      exact h.cell
    · -- the position is after the cell
      have hnodup' : (P ++ (M ++ R)).Nodup :=
        hnodup.sublist ((sublist_cons_self a _).append_left P)
      have hget : (P ++ a :: M).getLast? = (P ++ M).getLast? := by
        rw [getLast?_append, getLast?_cons, getLast?_append, getLast?_eq_some_getLast hne, some_or]
        simp
      rw [if_neg (getLast?_ne hnodup' hne), ← hget]
      exact h (P ++ a :: M) R (by rw [append_assoc, cons_append])
  · rcases eq_or_ne M [] with rfl | hne
    · rw [append_nil, if_pos rfl, nil_append]
      exact h.cell
    · -- the position is before the cell
      have hL : Q ++ M ++ a :: S = Q ++ (M ++ a :: S) := append_assoc Q M (a :: S)
      rw [if_neg (getLast?_ne (hL ▸ hnodup) hne).symm, h Q (M ++ a :: S) hL,
        head?_append_of_ne_nil _ hne, head?_append_of_ne_nil _ hne]

end Update

end Chain

/-- From the position `x`, the pointers are followed while the cells satisfy `p`. -/
def walk (fwd : Option α → Option α) (p : α → Bool) : ℕ → Option α → Option α
  | 0, x => x
  | n + 1, x =>
    match fwd x with
    | none => x
    | some a => if p a then walk fwd p n (some a) else x

/-- In a chain, the walk goes over the cells after its position that satisfy `p`. -/
lemma Chain.walk_eq {p : α → Bool} {n : ℕ} (h : Chain fwd (P ++ S)) (hn : S.length ≤ n) :
    walk fwd p n P.getLast? = (P ++ S.takeWhile p).getLast? := by
  induction S generalizing P n with
  | nil =>
    have hend : fwd P.getLast? = none := h P [] rfl
    rw [takeWhile_nil, append_nil]
    cases n with
    | zero => rfl
    | succ n => rw [walk, hend]
  | cons a S ih =>
    have hnext : fwd P.getLast? = some a := h P (a :: S) rfl
    cases n with
    | zero => simp at hn
    | succ n =>
      rw [walk, hnext]
      by_cases hp : p a = true
      · have hL : P ++ a :: S = (P ++ [a]) ++ S := by rw [append_assoc, singleton_append]
        have hwalk := ih (P := P ++ [a]) (hL ▸ h) (Nat.le_of_succ_le_succ hn)
        rw [getLast?_append, getLast?_singleton, some_or] at hwalk
        simp only [hp, if_true, takeWhile_cons_of_pos]
        rw [hwalk, append_assoc, singleton_append]
      · simp only [hp, Bool.false_eq_true, if_false]
        rw [takeWhile_cons_of_neg hp, append_nil]

/-- The cells after the position `x`. -/
def follow (fwd : Option α → Option α) : ℕ → Option α → List α
  | 0, _ => []
  | n + 1, x =>
    match fwd x with
    | none => []
    | some a => a :: follow fwd n (some a)

lemma Chain.follow_eq {n : ℕ} (h : Chain fwd (P ++ S)) (hn : S.length ≤ n) :
    follow fwd n P.getLast? = S := by
  induction S generalizing P n with
  | nil =>
    have hend : fwd P.getLast? = none := h P [] rfl
    cases n with
    | zero => rfl
    | succ n => rw [follow, hend]
  | cons a S ih =>
    have hnext : fwd P.getLast? = some a := h P (a :: S) rfl
    cases n with
    | zero => simp at hn
    | succ n =>
      have hL : P ++ a :: S = (P ++ [a]) ++ S := append_cons P a S
      have hfollow := ih (P := P ++ [a]) (hL ▸ h) (Nat.le_of_succ_le_succ hn)
      rw [getLast?_concat] at hfollow
      rw [follow, hnext]
      exact congrArg (a :: ·) hfollow

end Lfs.Lib
