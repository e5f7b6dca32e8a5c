/-
The levels of a skip list.

A cell of a skip list has a height and one pointer on each level below it, so the level `i` is a
chain through the cells that are higher than `i`.  A search starts at the head on the highest level,
follows the pointers of a level while the cells satisfy a predicate, and goes on from there on the
level below.  It ends before the first cell of the list that does not satisfy the predicate, if on each
level the first cell from there on does not satisfy it either.
-/
import Lfs.Lib.Chain
import Mathlib.Data.List.TakeWhile

namespace Lfs.Lib

open List Option

variable {α : Type*} {forward : Option α → ℕ → Option α} {height : α → ℕ} {p : α → Bool} {L : List α}
  {P S : List α} {a s : α} {x : Option α} {i j k n : ℕ}

/-- The cells of a list that are higher than `i`. -/
def level (height : α → ℕ) (i : ℕ) (L : List α) : List α := L.filter fun a => i < height a

/-- Each level of the list leads through its cells. -/
def Levels (forward : Option α → ℕ → Option α) (height : α → ℕ) (L : List α) : Prop :=
  ∀ i, Chain (fun x => forward x i) (level height i L)

@[simp] lemma level_append : level height i (P ++ S) = level height i P ++ level height i S :=
  filter_append ..

lemma mem_level : a ∈ level height i L ↔ a ∈ L ∧ i < height a := by
  simp [level]

lemma level_cons_of_lt (h : i < height a) : level height i (a :: S) = a :: level height i S :=
  filter_cons_of_pos (by simpa using h)

lemma level_cons_of_le (h : height a ≤ i) : level height i (a :: S) = level height i S :=
  filter_cons_of_neg (by simpa using h)

lemma level_zero (h : ∀ a ∈ L, 0 < height a) : level height 0 L = L :=
  filter_eq_self.2 (by simpa using h)

lemma nodup_level (h : L.Nodup) : (level height i L).Nodup := h.filter _

lemma level_getLast? (h : ∀ a ∈ P.getLast?, i < height a) :
    (level height i P).getLast? = P.getLast? := by
  rcases eq_nil_or_concat' P with rfl | ⟨Q, a, rfl⟩
  · rfl
  · have ha : i < height a := h a (by simp)
    rw [level_append, level_cons_of_lt ha, getLast?_append, getLast?_append]
    simp [level]

/-! ### Searching -/

/-- The search from the position `x` on the levels below `k`; the result has for each level the
position at which the search left it. -/
def descend (forward : Option α → ℕ → Option α) (p : α → Bool) (n : ℕ) : ℕ → Option α → ℕ → Option α
  | 0, x, _ => x
  | i + 1, x, j =>
    let y := walk (fun x => forward x i) p n x
    if j = i then y else descend forward p n i y j

lemma exists_getLast?_eq (h : ∀ a ∈ x, a ∈ L) : ∃ Q R, L = Q ++ R ∧ Q.getLast? = x := by
  cases x with
  | none => exact ⟨[], L, rfl, rfl⟩
  | some a =>
    obtain ⟨Q, R, rfl⟩ := append_of_mem (h a rfl)
    exact ⟨Q ++ [a], R, append_cons Q a R, by simp⟩

lemma takeWhile_eq_nil (h : ∀ a ∈ L.head?, p a = false) : L.takeWhile p = [] := by
  cases L with
  | nil => rfl
  | cons a L => exact takeWhile_cons_of_neg (by simp [h a rfl])

lemma head?_dropWhile : ∀ a ∈ (L.dropWhile p).head?, p a = false := by
  intro a ha
  have hnot := head?_dropWhile_not p L
  rw [mem_def.1 ha] at hnot
  simpa using hnot

lemma of_mem_dropWhile {r : α → α → Prop} (hL : L.Pairwise r)
    (hp : ∀ a b, r a b → p b = true → p a = true) : ∀ a ∈ L.dropWhile p, p a = false := by
  induction L with
  | nil => simp
  | cons a L ih =>
    obtain ⟨ha, hL⟩ := pairwise_cons.1 hL
    cases hpa : p a with
    | true =>
      rw [dropWhile_cons_of_pos hpa]
      exact ih hL
    | false =>
      rw [dropWhile_cons_of_neg (by simp [hpa])]
      intro b hb
      rcases mem_cons.1 hb with rfl | hb
      · exact hpa
      · refine Bool.eq_false_iff.2 fun hpb => ?_
        rw [hp a b (ha b hb) hpb] at hpa
        exact absurd hpa (by simp)

/-- A walk on a level from a cell of `P`, where all cells of `P` satisfy the predicate. -/
lemma walk_level_eq (h : Levels forward height (P ++ S)) (hP : ∀ a ∈ P, p a = true)
    (hn : (P ++ S).length ≤ n) (hx : ∀ a ∈ x, a ∈ P ∧ i < height a) :
    walk (fun x => forward x i) p n x =
      (level height i P ++ (level height i S).takeWhile p).getLast? := by
  obtain ⟨Q, R, hQR, rfl⟩ : ∃ Q R, level height i P = Q ++ R ∧ Q.getLast? = x :=
    exists_getLast?_eq fun a ha => mem_level.2 (hx a ha)
  have hchain := h i
  rw [level_append, hQR, append_assoc] at hchain
  have hlen : (R ++ level height i S).length ≤ n := by
    have hle : (level height i (P ++ S)).length ≤ (P ++ S).length := length_filter_le _ _
    rw [level_append, hQR, append_assoc, length_append] at hle
    omega
  have hR : ∀ a ∈ R, p a = true := by
    intro a ha
    have hmem : a ∈ level height i P := hQR ▸ mem_append_right Q ha
    exact hP a (mem_level.1 hmem).1
  rw [hchain.walk_eq hlen, takeWhile_append_of_pos hR, hQR, append_assoc]

/-- **The search of a skip list.**  The search for the first cell after `P` leaves every level at the
last cell of `P`, if on each level the first cell after `P` does not satisfy the predicate. -/
lemma descend_eq (h : Levels forward height (P ++ S)) (hP : ∀ a ∈ P, p a = true)
    (hS : ∀ i < k, ∀ a ∈ (level height i S).head?, p a = false) (hn : (P ++ S).length ≤ n)
    (hx : ∀ a ∈ x, a ∈ P ∧ k ≤ height a) (hj : j < k) :
    descend forward p n k x j = (level height j P).getLast? := by
  induction k generalizing x with
  | zero => exact absurd hj (Nat.not_lt_zero j)
  | succ i ih =>
    have hwalk := walk_level_eq h hP hn fun a ha => ⟨(hx a ha).1, (hx a ha).2⟩
    rw [takeWhile_eq_nil (hS i (Nat.lt_succ_self i)), append_nil] at hwalk
    rw [descend, hwalk]
    split_ifs with hji
    · rw [hji]
    · refine ih (fun i' hi' => hS i' (Nat.lt_succ_of_lt hi')) (fun a ha => ?_) (by omega)
      have hmem := mem_level.1 (mem_of_getLast? ha)
      exact ⟨hmem.1, le_of_lt hmem.2⟩

lemma level_eq_append_cons {L U D : List α} (h : level height i L = U ++ a :: D) :
    ∃ M R, L = M ++ a :: R ∧ level height i M = U ∧ level height i R = D := by
  obtain ⟨L₁, L₂, rfl, hU, hD⟩ := filter_eq_append_iff.1 h
  obtain ⟨M, R, rfl, hM, -, hR⟩ := filter_eq_cons_iff.1 hD
  have hnone : level height i M = [] := filter_eq_nil_iff.2 hM
  have hU' : level height i L₁ = U := hU
  exact ⟨L₁ ++ M, R, (append_assoc ..).symm, by rw [level_append, hU', hnone, append_nil], hR⟩

lemma level_takeWhile_getLast? (ha : a ∈ ((level height i L).takeWhile p).getLast?) :
    ∃ M R, L = M ++ a :: R ∧ p a = true ∧ i < height a ∧
      ∀ b ∈ (level height i R).head?, p b = false := by
  obtain ⟨U, hU⟩ := getLast?_eq_some_iff.1 ha
  have hsplit : level height i L = U ++ a :: (level height i L).dropWhile p := by
    rw [append_cons, ← hU, takeWhile_append_dropWhile]
  have hmem : a ∈ (level height i L).takeWhile p := mem_of_getLast? ha
  obtain ⟨M, R, hL, -, hR⟩ := level_eq_append_cons hsplit
  have hlevel := mem_level.1 ((takeWhile_sublist p).mem hmem)
  refine ⟨M, R, hL, mem_takeWhile_imp hmem, hlevel.2, ?_⟩
  rw [hR]
  exact head?_dropWhile

/-- A walk on a level gets to a later position of the list, at a cell that satisfies the predicate,
or it stays. -/
lemma walk_level_after (h : Levels forward height (P ++ S)) (hn : (P ++ S).length ≤ n)
    (hx : ∀ a ∈ P.getLast?, i < height a) :
    ∃ M R, S = M ++ R ∧ walk (fun x => forward x i) p n P.getLast? = (P ++ M).getLast? ∧
      (∀ a ∈ (P ++ M).getLast?, i < height a) ∧ (M ≠ [] → ∀ a ∈ (P ++ M).getLast?, p a = true) ∧
      ∀ a ∈ (level height i R).head?, p a = false := by
  have hchain := h i
  rw [level_append] at hchain
  have hlen : (level height i S).length ≤ n := by
    have hle : (level height i S).length ≤ S.length := length_filter_le _ _
    rw [length_append] at hn
    omega
  have hwalk := hchain.walk_eq (p := p) hlen
  rw [level_getLast? hx] at hwalk
  rcases hlast : ((level height i S).takeWhile p).getLast? with _ | a
  · rw [getLast?_eq_none_iff] at hlast
    rw [hlast, append_nil, level_getLast? hx] at hwalk
    refine ⟨[], S, rfl, by rw [hwalk, append_nil], by rwa [append_nil], by simp, ?_⟩
    have hdrop := head?_dropWhile (p := p) (L := level height i S)
    rwa [← takeWhile_append_dropWhile (p := p) (l := level height i S), hlast]
  · obtain ⟨M, R, rfl, hpa, hia, hR⟩ := level_takeWhile_getLast? hlast
    have hget : (P ++ (M ++ [a])).getLast? = some a := by simp
    rw [getLast?_append, hlast, some_or] at hwalk
    refine ⟨M ++ [a], R, append_cons M a R, by rw [hwalk, hget], ?_, fun _ => ?_, hR⟩
    · rw [hget]
      rintro b ⟨⟩
      exact hia
    · rw [hget]
      rintro b ⟨⟩
      exact hpa

/-- A search from a cell that is on all levels below `k` ends at a later position of the list, before
a cell that does not satisfy the predicate. -/
lemma descend_after (h : Levels forward height (P ++ S)) (hn : (P ++ S).length ≤ n)
    (hx : ∀ a ∈ P.getLast?, k ≤ height a) (hk : 0 < k) :
    ∃ M R, S = M ++ R ∧ descend forward p n k P.getLast? 0 = (P ++ M).getLast? ∧
      (M ≠ [] → ∀ a ∈ (P ++ M).getLast?, p a = true) ∧
      ∀ a ∈ (level height 0 R).head?, p a = false := by
  induction k generalizing P S with
  | zero => exact absurd hk (lt_irrefl 0)
  | succ i ih =>
    obtain ⟨M, R, rfl, hwalk, hheight, hp, hR⟩ := walk_level_after (p := p) h hn hx
    rw [descend, hwalk]
    rcases Nat.eq_zero_or_pos i with rfl | hi
    · exact ⟨M, R, rfl, if_pos rfl, hp, hR⟩
    · rw [← append_assoc] at h hn
      obtain ⟨M', R', rfl, hdescend, hp', hR'⟩ :=
        ih h hn (fun a ha => le_of_lt (hheight a ha)) hi
      refine ⟨M ++ M', R', (append_assoc ..).symm, ?_, fun hne => ?_, hR'⟩
      · rw [if_neg (ne_of_lt hi), hdescend, append_assoc]
      · rw [← append_assoc]
        rcases eq_or_ne M' [] with rfl | hM'
        · rw [append_nil] at hne ⊢
          exact hp hne
        · exact hp' hM'

/-- A search that stands at the cell `a`, which is past `s`, ends past `s` at a cell that satisfies the
predicate. -/
lemma descend_of_past {M R : List α} (h : Levels forward height (P ++ s :: (M ++ a :: R)))
    (hn : (P ++ s :: (M ++ a :: R)).length ≤ n) (hpa : p a = true) (hheight : k ≤ height a) (hk : 0 < k) :
    ∃ M' R', M ++ a :: R = M' ++ R' ∧ descend forward p n k (some a) 0 = M'.getLast? ∧ M' ≠ [] ∧
      (∀ b ∈ M'.getLast?, p b = true) ∧ ∀ b ∈ (level height 0 R').head?, p b = false := by
  have hL : P ++ s :: (M ++ a :: R) = (P ++ s :: (M ++ [a])) ++ R := by simp
  have hlast : (P ++ s :: (M ++ [a])).getLast? = some a := by
    rw [← cons_append, ← append_assoc, getLast?_concat]
  have hget (N : List α) : (P ++ s :: (M ++ [a]) ++ N).getLast? = (M ++ [a] ++ N).getLast? := by
    rw [getLast?_append, hlast, getLast?_append, getLast?_concat]
  have hx : ∀ b ∈ (P ++ s :: (M ++ [a])).getLast?, k ≤ height b := by
    rw [hlast]
    rintro b ⟨⟩
    exact hheight
  obtain ⟨M', R', rfl, hdescend, hp', hR'⟩ := descend_after (p := p) (hL ▸ h) (hL ▸ hn) hx hk
  rw [hlast, hget] at hdescend
  refine ⟨M ++ [a] ++ M', R', by simp, hdescend, by simp, ?_, hR'⟩
  rcases eq_or_ne M' [] with rfl | hne
  · rw [append_nil, getLast?_concat]
    rintro b ⟨⟩
    exact hpa
  · rw [← hget]
    exact hp' hne

/-- **A search that gets past its goal.**  All cells of `P` satisfy the predicate and `s` does not,
but on some level the first cell after `P` does.  Then the search gets past `s`, and it ends at a cell
that satisfies the predicate. -/
lemma descend_overshoot (h : Levels forward height (P ++ s :: S)) (hP : ∀ a ∈ P, p a = true)
    (hs : p s = false) (hpos : 0 < height s)
    (hover : ∃ i < k, ∃ a ∈ (level height i (s :: S)).head?, p a = true)
    (hn : (P ++ s :: S).length ≤ n) (hx : ∀ a ∈ x, a ∈ P ∧ k ≤ height a) :
    ∃ M R, S = M ++ R ∧ descend forward p n k x 0 = M.getLast? ∧ M ≠ [] ∧
      (∀ a ∈ M.getLast?, p a = true) ∧ ∀ a ∈ (level height 0 R).head?, p a = false := by
  induction k generalizing x with
  | zero =>
    obtain ⟨i, hi, -⟩ := hover
    exact absurd hi (Nat.not_lt_zero i)
  | succ i ih =>
    have hwalk := walk_level_eq h hP hn hx
    rcases hlast : ((level height i (s :: S)).takeWhile p).getLast? with _ | a
    · -- the search stays before `s` on this level
      rw [getLast?_eq_none_iff] at hlast
      have hstop : ∀ a ∈ (level height i (s :: S)).head?, p a = false := by
        have hdrop := head?_dropWhile (p := p) (L := level height i (s :: S))
        rwa [← takeWhile_append_dropWhile (p := p) (l := level height i (s :: S)), hlast]
      have hover' : ∃ i' < i, ∃ a ∈ (level height i' (s :: S)).head?, p a = true := by
        obtain ⟨i', hi', a, ha, hpa⟩ := hover
        refine ⟨i', lt_of_le_of_ne (Nat.le_of_lt_succ hi') ?_, a, ha, hpa⟩
        rintro rfl
        exact absurd hpa (by simp [hstop a ha])
      have hi : 0 < i := by
        obtain ⟨i', hi', -⟩ := hover'
        omega
      rw [hlast, append_nil] at hwalk
      rw [descend, hwalk, if_neg (ne_of_lt hi)]
      refine ih hover' fun a ha => ?_
      have hmem := mem_level.1 (mem_of_getLast? ha)
      exact ⟨hmem.1, le_of_lt hmem.2⟩
    · -- the search gets past `s` on this level, and so it does on the levels below
      obtain ⟨M, R, hM, hpa, hia, hR⟩ := level_takeWhile_getLast? hlast
      have hi : 0 < i := by
        rcases Nat.eq_zero_or_pos i with rfl | hi
        · rw [level_cons_of_lt hpos, takeWhile_cons_of_neg (by simp [hs])] at hlast
          exact absurd hlast (by simp)
        · exact hi
      cases M with
      | nil =>
        obtain ⟨rfl, -⟩ := cons_eq_cons.1 hM
        exact absurd hpa (by simp [hs])
      | cons b M =>
        obtain ⟨rfl, rfl⟩ := cons_eq_cons.1 hM
        rw [getLast?_append, hlast, some_or] at hwalk
        rw [descend, hwalk, if_neg (ne_of_lt hi)]
        exact descend_of_past h hn hpa (le_of_lt hia) hi

/-! ### Inserting and removing a cell -/

section Update

variable [DecidableEq α] {update : ℕ → Option α} {c : α}

/-- The cell `c` is linked on the levels below `k`, one after the other, after the positions
`update`. -/
def linkLevels (c : α) (update : ℕ → Option α) (forward : Option α → ℕ → Option α) :
    ℕ → Option α → ℕ → Option α
  | 0, x, j => forward x j
  | i + 1, x, j =>
    if j = i then
      if x = some c then linkLevels c update forward i (update i) i
      else if x = update i then some c
      else linkLevels c update forward i x i
    else linkLevels c update forward i x j

/-- The cell `c` is unlinked on the levels below `k` on which it is the one after the position
`update`. -/
def unlinkLevels (c : α) (update : ℕ → Option α) (forward : Option α → ℕ → Option α) :
    ℕ → Option α → ℕ → Option α
  | 0, x, j => forward x j
  | i + 1, x, j =>
    if j = i ∧ unlinkLevels c update forward i (update i) i = some c ∧ x = update i then
      unlinkLevels c update forward i (some c) i
    else unlinkLevels c update forward i x j

lemma linkLevels_of_le (h : k ≤ j) : linkLevels c update forward k x j = forward x j := by
  induction k with
  | zero => rfl
  | succ i ih =>
    have hj : j ≠ i := by omega
    rw [linkLevels, if_neg hj, ih (by omega)]

lemma linkLevels_of_lt (h : j < k) : linkLevels c update forward k x j =
    if x = some c then forward (update j) j else if x = update j then some c else forward x j := by
  induction k with
  | zero => exact absurd h (Nat.not_lt_zero j)
  | succ i ih =>
    rw [linkLevels]
    by_cases hj : j = i
    · subst hj
      simp only [linkLevels_of_le (le_refl j), if_true]
    · rw [if_neg hj, ih (by omega)]

lemma unlinkLevels_of_le (h : k ≤ j) : unlinkLevels c update forward k x j = forward x j := by
  induction k with
  | zero => rfl
  | succ i ih =>
    have hj : j ≠ i := by omega
    rw [unlinkLevels, if_neg fun hc => hj hc.1, ih (by omega)]

lemma unlinkLevels_of_lt (h : j < k) : unlinkLevels c update forward k x j =
    if forward (update j) j = some c ∧ x = update j then forward (some c) j else forward x j := by
  induction k with
  | zero => exact absurd h (Nat.not_lt_zero j)
  | succ i ih =>
    rw [unlinkLevels]
    by_cases hj : j = i
    · subst hj
      simp only [unlinkLevels_of_le (le_refl j), true_and]
    · rw [if_neg (fun hc => hj hc.1), ih (by omega)]

lemma Levels.insert (h : Levels forward height (P ++ S)) (hnodup : (P ++ S).Nodup)
    (hc : c ∉ P ++ S) (hupdate : ∀ i < height c, update i = (level height i P).getLast?) :
    Levels (linkLevels c update forward (height c)) height (P ++ c :: S) := by
  intro i
  have hchain := h i
  rw [level_append] at hchain ⊢
  rcases lt_or_ge i (height c) with hi | hi
  · have hnodup' : (level height i (P ++ S)).Nodup := nodup_level hnodup
    have hnot : c ∉ level height i P ++ level height i S := by
      rw [← level_append]
      exact fun hmem => hc (mem_level.1 hmem).1
    rw [level_append] at hnodup'
    rw [level_cons_of_lt hi]
    simp only [linkLevels_of_lt hi, hupdate i hi]
    exact hchain.insert hnodup' hnot
  · rw [level_cons_of_le hi]
    simpa only [linkLevels_of_le hi] using hchain

lemma Levels.remove (h : Levels forward height (P ++ c :: S)) (hnodup : (P ++ c :: S).Nodup)
    (hupdate : ∀ i < k, update i = (level height i P).getLast?) (hk : height c ≤ k) :
    Levels (unlinkLevels c update forward k) height (P ++ S) := by
  intro i
  have hchain := h i
  have hnodup' : (level height i (P ++ c :: S)).Nodup := nodup_level hnodup
  rw [level_append] at hchain hnodup' ⊢
  rcases lt_or_ge i k with hik | hik
  · simp only [unlinkLevels_of_lt hik, hupdate i hik]
    rcases lt_or_ge i (height c) with hi | hi
    · rw [level_cons_of_lt hi] at hchain hnodup'
      have hnext : forward (level height i P).getLast? i = some c := hchain _ _ rfl
      simp only [hnext, true_and]
      exact hchain.remove hnodup'
    · rw [level_cons_of_le hi] at hchain
      have hnext : forward (level height i P).getLast? i = (level height i S).head? :=
        hchain _ _ rfl
      have hne : ¬ (level height i S).head? = some c := by
        intro hhead
        have hmem := (mem_level.1 (mem_of_head? hhead)).1
        exact (nodup_cons.1 (nodup_append.1 hnodup).2.1).1 hmem
      simpa only [hnext, hne, false_and, if_false] using hchain
  · rw [level_cons_of_le (le_trans hk hik)] at hchain
    simpa only [unlinkLevels_of_le hik] using hchain

end Update

end Lfs.Lib
