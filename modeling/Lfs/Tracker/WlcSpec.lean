/-
What the operations of the skip list do to the list of its nodes.

`Rep s L` says that the skip list `s` holds the nodes `L`, in this order.  `wlcsl_insert` puts a node
where it belongs.  `wlcsl_find` and `wlcsl_delete` find the first node with the `wlc` and the
`block_id` that are asked for, unless it is hidden: a node with the same `wlc` and a larger
`block_id` is higher than all those nodes, so that the search gets past them.
-/
import Lfs.Tracker.Wlc
import Mathlib.Data.List.Perm.Subperm

namespace Lfs.Tracker

open Lfs.Lib List Option Function

namespace WlcSkiplist

variable {blockId : ℕ → UInt32} {s : WlcSkiplist} {L P S : List ℕ} {wlc : ℤ} {dblk lv a x : ℕ}

/-- The order of the nodes: by `wlc`, then by `block_id`. -/
def NodeLe (blockId : ℕ → UInt32) (s : WlcSkiplist) (a b : ℕ) : Prop :=
  s.wlc a < s.wlc b ∨ s.wlc a = s.wlc b ∧ blockId (s.dblk a) ≤ blockId (s.dblk b)

/-- The skip list holds the nodes `L`, in this order. -/
structure Rep (blockId : ℕ → UInt32) (s : WlcSkiplist) (L : List ℕ) : Prop where
  nodup : L.Nodup
  allocated : ∀ a ∈ L, a < s.allocated
  live : ∀ a ∈ L, s.freed a = false
  height_pos : ∀ a ∈ L, 0 < s.height a
  height_le : ∀ a ∈ L, s.height a ≤ s.level
  level_pos : 0 < s.level
  levels : Levels s.forward s.height L
  sorted : L.Pairwise (s.NodeLe blockId)

/-- The node `a` has `wlc` and a block with the id of `dblk`. -/
def Matches (blockId : ℕ → UInt32) (s : WlcSkiplist) (wlc : ℤ) (dblk a : ℕ) : Prop :=
  s.wlc a = wlc ∧ blockId (s.dblk a) = blockId dblk

instance (a : ℕ) : Decidable (s.Matches blockId wlc dblk a) :=
  inferInstanceAs (Decidable (s.wlc a = wlc ∧ blockId (s.dblk a) = blockId dblk))

/-- The nodes with `wlc` and the id of `dblk` are hidden: there is a higher node with the same `wlc`
and a larger id. -/
def Hidden (blockId : ℕ → UInt32) (s : WlcSkiplist) (L : List ℕ) (wlc : ℤ) (dblk : ℕ) : Prop :=
  ∃ e ∈ L, s.wlc e = wlc ∧ blockId dblk < blockId (s.dblk e) ∧
    ∀ t ∈ L, s.Matches blockId wlc dblk t → s.height t < s.height e

instance : Decidable (s.Hidden blockId L wlc dblk) := inferInstanceAs (Decidable (∃ e ∈ L, _))

lemma rep_create : Rep blockId wlcslCreate [] where
  nodup := nodup_nil
  allocated := by simp
  live := by simp
  height_pos := by simp
  height_le := by simp
  level_pos := Nat.one_pos
  levels := fun _ => .nil rfl
  sorted := List.Pairwise.nil

lemma Rep.length_le (h : Rep blockId s L) : L.length ≤ s.allocated := by
  have hsub : L ⊆ List.range s.allocated := fun a ha => mem_range.2 (h.allocated a ha)
  have hle := (subperm_of_subset h.nodup hsub).length_le
  rwa [length_range] at hle

lemma Rep.nodes_eq (h : Rep blockId s L) : s.nodes = L := by
  have hchain := h.levels 0
  rw [level_zero h.height_pos] at hchain
  exact Chain.follow_eq (P := []) hchain h.length_le

lemma Rep.forward_zero (h : Rep blockId s L) {P S : List ℕ} (hL : L = P ++ S) :
    s.forward P.getLast? 0 = S.head? := by
  have hchain := h.levels 0
  rw [level_zero h.height_pos] at hchain
  exact hchain P S hL

/-! ### Inserting -/

lemma before_iff : s.before blockId wlc dblk a = true ↔
    s.wlc a < wlc ∨ s.wlc a = wlc ∧ blockId (s.dblk a) < blockId dblk := by
  simp [before]

lemma passes_iff : s.passes blockId wlc dblk a = true ↔
    s.wlc a < wlc ∨ s.wlc a = wlc ∧ blockId (s.dblk a) ≠ blockId dblk := by
  simp [passes]

lemma Rep.before_dropWhile (h : Rep blockId s L) :
    ∀ a ∈ L.dropWhile (s.before blockId wlc dblk), s.before blockId wlc dblk a = false := by
  refine of_mem_dropWhile h.sorted fun a b hab hb => ?_
  rw [before_iff] at hb ⊢
  rcases hab with hlt | ⟨heq, hid⟩
  · left
    rcases hb with hb | ⟨hb, -⟩ <;> omega
  · rcases hb with hb | ⟨hb, hlt⟩
    · left
      omega
    · right
      exact ⟨heq.trans hb, UInt32.lt_of_le_of_lt hid hlt⟩

/-- The search of `wlcsl_insert` leaves each level before the place of the new node. -/
lemma Rep.insertUpdate_eq (h : Rep blockId s L) (i : ℕ) : s.insertUpdate blockId wlc dblk i =
      (Lib.level s.height i (L.takeWhile (s.before blockId wlc dblk))).getLast? := by
  have hL := takeWhile_append_dropWhile (p := s.before blockId wlc dblk) (l := L)
  rw [insertUpdate]
  split_ifs with hi
  · refine descend_eq (by rw [hL]; exact h.levels) (fun a ha => mem_takeWhile_imp ha)
      (fun j _ a ha => ?_) (by rw [hL]; exact h.length_le) (by simp) hi
    exact h.before_dropWhile a (mem_level.1 (mem_of_head? ha)).1
  · -- above the highest level there is only the header
    have hnone : Lib.level s.height i (L.takeWhile (s.before blockId wlc dblk)) = [] := by
      refine filter_eq_nil_iff.2 fun a ha => ?_
      have hle := h.height_le a ((takeWhile_sublist _).mem ha)
      simp only [decide_eq_true_eq]
      omega
    rw [hnone, getLast?_nil]

/-- The nodes `L` with a new node for `wlc` and `dblk`. -/
def inserted (blockId : ℕ → UInt32) (s : WlcSkiplist) (wlc : ℤ) (dblk : ℕ) (L : List ℕ) : List ℕ :=
  L.takeWhile (s.before blockId wlc dblk) ++ s.allocated :: L.dropWhile (s.before blockId wlc dblk)

lemma wlcslInsert_eq (blockId : ℕ → UInt32) (s : WlcSkiplist) (wlc : ℤ) (dblk lv : ℕ) :
    ∃ backward tail, s.wlcslInsert blockId lv wlc dblk =
      { (s.nodeNew lv wlc dblk).2 with
        forward := linkLevels s.allocated (s.insertUpdate blockId wlc dblk) s.forward lv
        level := max s.level lv
        length := s.length + 1
        backward := backward
        tail := tail } := by
  rw [wlcslInsert]
  dsimp only [nodeNew]
  unfold linkBack
  split
  · exact ⟨_, _, rfl⟩
  · exact ⟨_, _, rfl⟩

lemma inserted_perm : (s.inserted blockId wlc dblk L).Perm (s.allocated :: L) := by
  have hL := takeWhile_append_dropWhile (p := s.before blockId wlc dblk) (l := L)
  rw [inserted]
  conv_rhs => rw [← hL]
  exact perm_middle

lemma mem_inserted : a ∈ s.inserted blockId wlc dblk L ↔ a = s.allocated ∨ a ∈ L := by
  rw [inserted_perm.mem_iff, mem_cons]

lemma Rep.update_eq {β : Type} (h : Rep blockId s L) (f : ℕ → β) (v : β) (ha : a ∈ L) :
    update f s.allocated v a = f a :=
  update_of_ne (ne_of_lt (h.allocated a ha)) v f

/-- The old nodes keep their order, and the new node is between the two parts. -/
lemma Rep.sorted_inserted (h : Rep blockId s L) {s' : WlcSkiplist}
    (hwlc : s'.wlc = update s.wlc s.allocated wlc)
    (hdblk : s'.dblk = update s.dblk s.allocated dblk) :
    (s.inserted blockId wlc dblk L).Pairwise (s'.NodeLe blockId) := by
  have hL := takeWhile_append_dropWhile (p := s.before blockId wlc dblk) (l := L)
  have hold : L.Pairwise (s'.NodeLe blockId) := by
    refine h.sorted.imp_of_mem fun {a b} ha hb hab => ?_
    rw [NodeLe, hwlc, hdblk, h.update_eq _ _ ha, h.update_eq _ _ hb, h.update_eq _ _ ha,
      h.update_eq _ _ hb]
    exact hab
  rw [← hL, pairwise_append] at hold
  obtain ⟨hP, hS, hPS⟩ := hold
  refine pairwise_append.2 ⟨hP, pairwise_cons.2 ⟨fun b hb => ?_, hS⟩, fun a ha b hb => ?_⟩
  · have hbefore := h.before_dropWhile b hb
    rw [← Bool.not_eq_true, before_iff, not_or, not_and, not_lt] at hbefore
    rw [NodeLe, hwlc, hdblk, update_self, update_self,
      h.update_eq _ _ ((dropWhile_sublist _).mem hb),
      h.update_eq _ _ ((dropWhile_sublist _).mem hb)]
    rcases hbefore.1.lt_or_eq with hlt | heq
    · exact .inl hlt
    · exact .inr ⟨heq, UInt32.not_lt.1 (hbefore.2 heq.symm)⟩
  · rcases mem_cons.1 hb with rfl | hb
    · rw [NodeLe, hwlc, hdblk, update_self, update_self,
        h.update_eq _ _ ((takeWhile_sublist _).mem ha),
        h.update_eq _ _ ((takeWhile_sublist _).mem ha)]
      rcases before_iff.1 (mem_takeWhile_imp ha) with hlt | ⟨heq, hlt⟩
      · exact .inl hlt
      · exact .inr ⟨heq, UInt32.le_of_lt hlt⟩
    · exact hPS a ha b hb

lemma Rep.wlcslInsert (h : Rep blockId s L) (hlv : 0 < lv) :
    Rep blockId (s.wlcslInsert blockId lv wlc dblk) (s.inserted blockId wlc dblk L) := by
  have hL := takeWhile_append_dropWhile (p := s.before blockId wlc dblk) (l := L)
  have hnew : s.allocated ∉ L := fun hmem => lt_irrefl _ (h.allocated _ hmem)
  have hmem {q : ℕ → Prop} (hq : q s.allocated) (hold : ∀ a ∈ L, q a) :
      ∀ a ∈ s.inserted blockId wlc dblk L, q a := by
    intro a ha
    rcases mem_inserted.1 ha with rfl | ha
    · exact hq
    · exact hold a ha
  obtain ⟨backward, tail, heq⟩ := wlcslInsert_eq blockId s wlc dblk lv
  rw [heq]
  have hheight : update s.height s.allocated lv s.allocated = lv := update_self ..
  refine ⟨?_, hmem (Nat.lt_succ_self _) fun a ha => Nat.lt_succ_of_lt (h.allocated a ha), ?_, ?_, ?_,
    h.level_pos.trans_le (le_max_left _ _), ?_, ?_⟩
  · rw [inserted_perm.nodup_iff]
    exact nodup_cons.2 ⟨hnew, h.nodup⟩
  · exact hmem (update_self ..) fun a ha => (h.update_eq _ _ ha).trans (h.live a ha)
  · dsimp only [nodeNew]
    refine hmem (by rwa [hheight]) fun a ha => ?_
    rw [h.update_eq _ _ ha]
    exact h.height_pos a ha
  · dsimp only [nodeNew]
    refine hmem (by rw [hheight]; exact le_max_right _ _) fun a ha => ?_
    rw [h.update_eq _ _ ha]
    exact (h.height_le a ha).trans (le_max_left _ _)
  · dsimp only [nodeNew]
    -- the old nodes keep their heights, so the levels are the old ones with the new node linked
    have hlevel {M : List ℕ} (hM : M ⊆ L) (i : ℕ) :
        Lib.level (update s.height s.allocated lv) i M = Lib.level s.height i M :=
      filter_congr fun a ha => by rw [h.update_eq _ _ (hM ha)]
    have hlevels : Levels s.forward (update s.height s.allocated lv)
        (L.takeWhile (s.before blockId wlc dblk) ++ L.dropWhile (s.before blockId wlc dblk)) := by
      intro i
      rw [hL, hlevel (List.Subset.refl L)]
      exact h.levels i
    have hupdate (i : ℕ) : s.insertUpdate blockId wlc dblk i =
        (Lib.level (update s.height s.allocated lv) i
          (L.takeWhile (s.before blockId wlc dblk))).getLast? := by
      rw [h.insertUpdate_eq, hlevel (takeWhile_sublist _).subset]
    have hinsert := hlevels.insert (by rw [hL]; exact h.nodup) (by rw [hL]; exact hnew)
      fun i _ => hupdate i
    rwa [hheight] at hinsert
  · exact h.sorted_inserted rfl rfl

/-! ### Searching -/

lemma passes_of_not_matches (ha : ¬ s.Matches blockId wlc dblk a) (hwlc : s.wlc a ≤ wlc) :
    s.passes blockId wlc dblk a = true := by
  rcases hwlc.lt_or_eq with hlt | heq
  · exact passes_iff.2 (.inl hlt)
  · exact passes_iff.2 (.inr ⟨heq, fun hid => ha ⟨heq, hid⟩⟩)

lemma not_passes_iff : s.passes blockId wlc dblk a = false ↔
    wlc < s.wlc a ∨ s.Matches blockId wlc dblk a := by
  rw [← Bool.not_eq_true, passes_iff, Matches]
  constructor
  · intro h
    rw [not_or, not_and, not_not, not_lt] at h
    rcases h.1.lt_or_eq with hlt | heq
    · exact .inl hlt
    · exact .inr ⟨heq.symm, h.2 heq.symm⟩
  · rintro (hlt | ⟨heq, hid⟩) (hlt' | ⟨heq', hid'⟩)
    · omega
    · omega
    · omega
    · exact hid' hid

/-- A node that the search goes over, after one that it looks for: it has the same `wlc` and a
larger id. -/
lemma of_passes_of_nodeLe {a t : ℕ} (ht : s.Matches blockId wlc dblk t)
    (ha : s.passes blockId wlc dblk a = true) (hta : s.NodeLe blockId t a) :
    s.wlc a = wlc ∧ blockId dblk < blockId (s.dblk a) := by
  obtain ⟨hwlc, hid⟩ := ht
  rcases passes_iff.1 ha with hlt | ⟨heq, hne⟩
  · rcases hta with hlt' | ⟨heq', -⟩ <;> omega
  · rcases hta with hlt' | ⟨-, hle⟩
    · omega
    · exact ⟨heq, UInt32.lt_of_le_of_ne (hid ▸ hle) hne.symm⟩

lemma not_matches_of_passes (ha : s.passes blockId wlc dblk a = true) :
    ¬ s.Matches blockId wlc dblk a := by
  intro hmatch
  rw [not_passes_iff.2 (.inr hmatch)] at ha
  exact absurd ha (by simp)

lemma not_nodeLe_of_matches {a t : ℕ} (ht : s.Matches blockId wlc dblk t)
    (ha : s.wlc a = wlc ∧ blockId dblk < blockId (s.dblk a)) : ¬ s.NodeLe blockId a t := by
  obtain ⟨hwlc, hid⟩ := ht
  rintro (hlt | ⟨-, hle⟩)
  · omega
  · rw [hid] at hle
    exact absurd (UInt32.lt_of_lt_of_le ha.2 hle) (UInt32.lt_irrefl _)

section Search

variable {t : ℕ}

lemma Rep.nodeLe_of_mem (h : Rep blockId s (P ++ t :: S)) (ha : a ∈ S) : s.NodeLe blockId t a :=
  (pairwise_cons.1 (pairwise_append.1 h.sorted).2.1).1 a ha

lemma find?_eq (hP : ∀ a ∈ P, s.passes blockId wlc dblk a = true) :
    (P ++ S).find? (s.Matches blockId wlc dblk) = S.find? (s.Matches blockId wlc dblk) := by
  have hnone : P.find? (s.Matches blockId wlc dblk) = none := by
    exact find?_eq_none.2 fun a ha hmatch =>
      not_matches_of_passes (hP a ha) (of_decide_eq_true hmatch)
  rw [find?_append, hnone, none_or]

lemma Rep.stop_of_lt (h : Rep blockId s (P ++ t :: S)) (ht : wlc < s.wlc t) :
    ∀ a ∈ t :: S, s.passes blockId wlc dblk a = false ∧ ¬ s.Matches blockId wlc dblk a := by
  intro a ha
  have hlt : wlc < s.wlc a := by
    rcases mem_cons.1 ha with rfl | ha
    · exact ht
    · rcases h.nodeLe_of_mem ha with hlt | ⟨heq, -⟩ <;> omega
  exact ⟨not_passes_iff.2 (.inl hlt), fun hmatch => absurd hmatch.1 (ne_of_gt hlt)⟩

/-- The search stays before the nodes that it looks for unless they are hidden. -/
lemma Rep.stop_of_not_hidden (h : Rep blockId s (P ++ t :: S))
    (hP : ∀ a ∈ P, s.passes blockId wlc dblk a = true) (ht : s.Matches blockId wlc dblk t)
    (hh : ¬ s.Hidden blockId (P ++ t :: S) wlc dblk) {i : ℕ} :
    ∀ a ∈ (Lib.level s.height i (t :: S)).head?, s.passes blockId wlc dblk a = false := by
  intro a ha
  refine Bool.eq_false_iff.2 fun hpass => hh ?_
  obtain ⟨R, hR⟩ : ∃ R, Lib.level s.height i (t :: S) = [] ++ a :: R :=
    ⟨_, (head?_eq_some_iff.1 ha).choose_spec⟩
  obtain ⟨M, R', hsplit, hM, -⟩ := level_eq_append_cons hR
  have hia : i < s.height a := (mem_level.1 (mem_of_head? ha)).2
  have hmem : a ∈ t :: S := (mem_level.1 (mem_of_head? ha)).1
  have hat : a ≠ t := by
    rintro rfl
    exact not_matches_of_passes hpass ht
  have hlarger := of_passes_of_nodeLe ht hpass
    (h.nodeLe_of_mem ((mem_cons.1 hmem).resolve_left hat))
  refine ⟨a, mem_append_right P hmem, hlarger.1, hlarger.2, fun t' ht' hmatch => ?_⟩
  -- a node with the id that is looked for comes before `a`, so it is not on the level
  have ht'M : t' ∈ M := by
    rcases mem_append.1 ht' with ht' | ht'
    · exact absurd hmatch (not_matches_of_passes (hP t' ht'))
    · rw [hsplit, mem_append, mem_cons] at ht'
      rcases ht' with ht' | rfl | ht'
      · exact ht'
      · exact absurd hmatch (not_matches_of_passes hpass)
      · rw [hsplit, ← append_assoc] at h
        exact absurd (h.nodeLe_of_mem ht') (not_nodeLe_of_matches hmatch hlarger)
  have hnone : t' ∉ Lib.level s.height i M := by rw [hM]; exact not_mem_nil
  have hle : s.height t' ≤ i := not_lt.1 fun hlt => hnone (mem_level.2 ⟨ht'M, hlt⟩)
  omega

/-- If the nodes are hidden, then on some level the first node after `P` is one that the search goes
over. -/
lemma Rep.overshoot_of_hidden (h : Rep blockId s (P ++ t :: S)) (ht : s.Matches blockId wlc dblk t)
    (hh : s.Hidden blockId (P ++ t :: S) wlc dblk) :
    ∃ i < s.level, ∃ a ∈ (Lib.level s.height i (t :: S)).head?,
      s.passes blockId wlc dblk a = true := by
  obtain ⟨e, he, hwlc, hid, hhigher⟩ := hh
  have heS : e ∈ t :: S := by
    refine (mem_append.1 he).resolve_left fun heP => ?_
    exact not_nodeLe_of_matches ht ⟨hwlc, hid⟩
      ((pairwise_append.1 h.sorted).2.2 e heP t mem_cons_self)
  have hpos := h.height_pos e he
  have hle := h.height_le e he
  have helevel : e ∈ Lib.level s.height (s.height e - 1) (t :: S) :=
    mem_level.2 ⟨heS, by omega⟩
  obtain ⟨a, R, hR⟩ := exists_cons_of_ne_nil (ne_nil_of_mem helevel)
  have ha : a ∈ Lib.level s.height (s.height e - 1) (t :: S) := hR ▸ mem_cons_self
  obtain ⟨haS, hheight⟩ := mem_level.1 ha
  have hnot : ¬ s.Matches blockId wlc dblk a := by
    intro hmatch
    have := hhigher a (mem_append_right P haS) hmatch
    omega
  -- the first node on the level of `e` is `e` or comes before it
  have hale : s.wlc a ≤ wlc := by
    rw [hR] at helevel
    rcases mem_cons.1 helevel with rfl | heR
    · exact hwlc.le
    · have hsorted := (pairwise_append.1 h.sorted).2.1.filter
        fun b => decide (s.height e - 1 < s.height b)
      have hcons : (a :: R).Pairwise (s.NodeLe blockId) := hR ▸ hsorted
      rcases (pairwise_cons.1 hcons).1 e heR with hlt | ⟨heq, -⟩ <;> omega
  refine ⟨s.height e - 1, by omega, a, by rw [hR]; rfl, passes_of_not_matches hnot hale⟩

section

variable (h : Rep blockId s (P ++ S)) (hP : ∀ a ∈ P, s.passes blockId wlc dblk a = true)
    (hS : ∀ i < s.level, ∀ a ∈ (Lib.level s.height i S).head?, s.passes blockId wlc dblk a = false)
include h hP hS

lemma Rep.search_eq
    {i : ℕ} (hi : i < s.level) : s.search blockId wlc dblk i = (Lib.level s.height i P).getLast? :=
  descend_eq h.levels hP hS h.length_le (by simp) hi

lemma Rep.forward_search : s.forward (s.search blockId wlc dblk 0) 0 = S.head? := by
  rw [h.search_eq hP hS h.level_pos, level_zero fun a ha => h.height_pos a
    (mem_append_left S ha)]
  exact h.forward_zero rfl

end

/-- After a search that has got past the nodes it looks for there is none of them. -/
lemma Rep.forward_search_hidden (h : Rep blockId s (P ++ t :: S))
    (hP : ∀ a ∈ P, s.passes blockId wlc dblk a = true) (ht : s.Matches blockId wlc dblk t)
    (hh : s.Hidden blockId (P ++ t :: S) wlc dblk) :
    ∀ y ∈ s.forward (s.search blockId wlc dblk 0) 0, ¬ s.Matches blockId wlc dblk y := by
  obtain ⟨M, R, rfl, hsearch, hne, hlast, -⟩ := descend_overshoot h.levels hP
    (not_passes_iff.2 (.inr ht)) (h.height_pos t (by simp)) (h.overshoot_of_hidden ht hh)
    h.length_le (x := none) (by simp)
  have hget : (P ++ t :: M).getLast? = M.getLast? := by
    rw [append_cons, getLast?_append, getLast?_eq_some_getLast hne, some_or]
  have hforward := h.forward_zero (P := P ++ t :: M) (S := R) (by simp)
  rw [hget] at hforward
  intro y hy
  rw [search, hsearch, hforward] at hy
  -- the last node that the search goes over has a larger id
  have hm := getLast_mem hne
  have hlarger := of_passes_of_nodeLe ht (hlast _ (getLast?_eq_some_getLast hne))
    (h.nodeLe_of_mem (mem_append_left R hm))
  have hle : s.NodeLe blockId (M.getLast hne) y := by
    have hsorted := (pairwise_cons.1 (pairwise_append.1 h.sorted).2.1).2
    exact (pairwise_append.1 hsorted).2.2 _ hm y (mem_of_head? hy)
  exact fun hmatch => not_nodeLe_of_matches hmatch hlarger hle

lemma exists_passes_append (blockId : ℕ → UInt32) (s : WlcSkiplist) (wlc : ℤ) (dblk : ℕ)
    (L : List ℕ) :
    ∃ P S, L = P ++ S ∧ (∀ a ∈ P, s.passes blockId wlc dblk a = true) ∧
      ∀ a ∈ S.head?, s.passes blockId wlc dblk a = false :=
  ⟨_, _, takeWhile_append_dropWhile.symm, fun _ ha => mem_takeWhile_imp ha, head?_dropWhile⟩

lemma wlcslFind_eq_filter : s.wlcslFind blockId wlc dblk =
    (s.forward (s.search blockId wlc dblk 0) 0).filter (s.Matches blockId wlc dblk) := by
  rw [wlcslFind]
  cases s.forward (s.search blockId wlc dblk 0) 0 with
  | none => rfl
  | some x =>
    by_cases hmatch : s.Matches blockId wlc dblk x
    · rw [filter_some_pos (by simpa using hmatch)]
      exact if_pos hmatch
    · rw [filter_some_neg (by simpa using hmatch)]
      exact if_neg hmatch

/-- **Searching.**  `wlcsl_find` returns the first node with the `wlc` and the id that are asked for,
or nothing if they are hidden. -/
lemma Rep.wlcslFind_eq (h : Rep blockId s L) : s.wlcslFind blockId wlc dblk =
      if s.Hidden blockId L wlc dblk then none else L.find? (s.Matches blockId wlc dblk) := by
  obtain ⟨P, S, rfl, hP, hS⟩ := exists_passes_append blockId s wlc dblk L
  rw [wlcslFind_eq_filter, find?_eq hP]
  cases S with
  | nil =>
    rw [h.forward_search hP (by simp [Lib.level])]
    simp
  | cons t S =>
    rcases not_passes_iff.1 (hS t rfl) with hlt | ht
    · -- there is no such node
      have hstop : ∀ a ∈ t :: S, s.passes blockId wlc dblk a = false ∧
          ¬ s.Matches blockId wlc dblk a := h.stop_of_lt hlt
      rw [h.forward_search hP fun i _ a ha => (hstop a (mem_level.1 (mem_of_head? ha)).1).1]
      have hnone : (t :: S).find? (s.Matches blockId wlc dblk) = none :=
        find?_eq_none.2 fun a ha hmatch => (hstop a ha).2 (of_decide_eq_true hmatch)
      have hfilter : (t :: S).head?.filter (s.Matches blockId wlc dblk) = none := by
        simpa [filter] using (hstop t mem_cons_self).2
      rw [hnone, hfilter, ite_self]
    · split_ifs with hh
      · refine filter_eq_none_iff.2 fun y hy hmatch => ?_
        exact h.forward_search_hidden hP ht hh y hy (of_decide_eq_true hmatch)
      · rw [h.forward_search hP fun i _ => h.stop_of_not_hidden hP ht hh,
          find?_cons_of_pos (by simpa using ht), head?_cons]
        simpa [filter] using ht

/-! ### Deleting -/

lemma lowerLevel_pos {forward : Option ℕ → ℕ → Option ℕ} {k : ℕ} (hk : 0 < k) :
    0 < lowerLevel forward k := by
  induction k with
  | zero => exact absurd hk (lt_irrefl 0)
  | succ i ih =>
    cases i with
    | zero => exact Nat.one_pos
    | succ i =>
      rw [lowerLevel]
      split_ifs
      · exact ih (Nat.succ_pos i)
      · exact Nat.succ_pos _

lemma height_le_lowerLevel {forward : Option ℕ → ℕ → Option ℕ} {height : ℕ → ℕ} {k a : ℕ}
    (h : Levels forward height L) (ha : a ∈ L) (hle : height a ≤ k) :
    height a ≤ lowerLevel forward k := by
  induction k with
  | zero => exact hle
  | succ i ih =>
    cases i with
    | zero => exact hle
    | succ i =>
      rw [lowerLevel]
      split_ifs with hnone
      · have hhead := (h (i + 1)).head
        rw [hnone] at hhead
        have hempty : Lib.level height (i + 1) L = [] := head?_eq_none_iff.1 hhead.symm
        have hnot : a ∉ Lib.level height (i + 1) L := by rw [hempty]; exact not_mem_nil
        exact ih (not_lt.1 fun hlt => hnot (mem_level.2 ⟨ha, hlt⟩))
      · exact hle

/-- `wlcsl_delete` deletes the node that `wlcsl_find` finds. -/
lemma wlcslDelete_eq_elim : s.wlcslDelete blockId wlc dblk =
    (s.wlcslFind blockId wlc dblk).elim (false, s) fun x =>
      (true,
        { s.wlcslNodeDelete x (s.search blockId wlc dblk) with
          freed := update
            (s.wlcslNodeDelete x (s.search blockId wlc dblk)).freed x true }) := by
  rw [wlcslFind, wlcslDelete]
  cases s.forward (s.search blockId wlc dblk 0) 0 with
  | none => rfl
  | some y =>
    dsimp only
    split_ifs <;> rfl

lemma wlcslDelete_of_none (hfind : s.wlcslFind blockId wlc dblk = none) :
    s.wlcslDelete blockId wlc dblk = (false, s) := by
  rw [wlcslDelete_eq_elim, hfind]
  rfl

/-- `wlcsl_node_delete` and `wlcsl_node_free` but for the pointers back. -/
lemma wlcslDelete_eq (hfind : s.wlcslFind blockId wlc dblk = some x) :
    ∃ backward tail, s.wlcslDelete blockId wlc dblk = (true,
        { s with
          forward := unlinkLevels x (s.search blockId wlc dblk) s.forward s.level
          level := lowerLevel (unlinkLevels x (s.search blockId wlc dblk) s.forward s.level) s.level
          length := s.length - 1
          freed := update s.freed x true
          backward := backward
          tail := tail }) := by
  rw [wlcslDelete_eq_elim, hfind, elim_some, wlcslNodeDelete]
  dsimp only
  split
  · exact ⟨_, _, rfl⟩
  · exact ⟨_, _, rfl⟩

lemma Rep.wlcslDelete (h : Rep blockId s L) (hfind : s.wlcslFind blockId wlc dblk = some x) :
    Rep blockId (s.wlcslDelete blockId wlc dblk).2 (L.erase x) := by
  have heq := hfind
  rw [h.wlcslFind_eq] at heq
  split_ifs at heq with hh
  obtain ⟨P, S, rfl, hP, hS⟩ := exists_passes_append blockId s wlc dblk L
  rw [find?_eq hP] at heq
  cases S with
  | nil => simp at heq
  | cons t S =>
    rcases not_passes_iff.1 (hS t rfl) with hlt | ht
    · have hmem := mem_of_find?_eq_some heq
      have hmatch := find?_some heq
      exact absurd (of_decide_eq_true hmatch) (h.stop_of_lt hlt x hmem).2
    rw [find?_cons_of_pos (by simpa using ht)] at heq
    obtain rfl := some.inj heq
    have hnodup := h.nodup
    have htP : t ∉ P := fun hmem =>
      (nodup_append.1 hnodup).2.2 t hmem t mem_cons_self rfl
    obtain ⟨backward, tail, hdelete⟩ := wlcslDelete_eq hfind
    rw [hdelete, erase_append_right _ htP, erase_cons_head]
    have hsub : (P ++ S).Sublist (P ++ t :: S) := (sublist_cons_self t S).append_left P
    have hlevels : Levels (unlinkLevels t (s.search blockId wlc dblk) s.forward s.level) s.height
        (P ++ S) :=
      h.levels.remove hnodup
        (fun i hi => h.search_eq hP (fun j _ => h.stop_of_not_hidden hP ht hh) hi)
        (h.height_le t (by simp))
    refine ⟨hnodup.sublist hsub, fun a ha => h.allocated a (hsub.mem ha), fun a ha => ?_,
      fun a ha => h.height_pos a (hsub.mem ha), fun a ha => ?_, lowerLevel_pos h.level_pos, hlevels,
      h.sorted.sublist hsub⟩
    · have hne : a ≠ t := by
        rintro rfl
        exact (nodup_middle.1 hnodup).notMem ha
      exact (update_of_ne hne _ _).trans (h.live a (hsub.mem ha))
    · exact height_le_lowerLevel hlevels ha (h.height_le a (hsub.mem ha))

end Search

/-! ### The operations of the tracker -/

/-- The nodes that are left when the node that `wlcsl_find` finds is deleted. -/
def removed (blockId : ℕ → UInt32) (s : WlcSkiplist) (wlc : ℤ) (dblk : ℕ) (L : List ℕ) : List ℕ :=
  match s.wlcslFind blockId wlc dblk with
  | none => L
  | some x => L.erase x

lemma Rep.of_wlcslFind (h : Rep blockId s L)
    (hfind : s.wlcslFind blockId wlc dblk = some x) : x ∈ L ∧ s.Matches blockId wlc dblk x := by
  rw [h.wlcslFind_eq] at hfind
  split_ifs at hfind
  have hmatch := find?_some hfind
  exact ⟨mem_of_find?_eq_some hfind, of_decide_eq_true hmatch⟩

lemma Rep.mem_removed (h : Rep blockId s L) :
    a ∈ s.removed blockId wlc dblk L ↔ a ∈ L ∧ s.wlcslFind blockId wlc dblk ≠ some a := by
  rw [removed]
  cases s.wlcslFind blockId wlc dblk with
  | none => simp
  | some x =>
    rw [h.nodup.mem_erase_iff, and_comm, ne_eq, ne_eq, some_inj, eq_comm]

lemma Rep.wlcslFind_eq_some_iff (h : Rep blockId s L) : s.wlcslFind blockId wlc dblk = some a ↔
      ¬ s.Hidden blockId L wlc dblk ∧ L.find? (s.Matches blockId wlc dblk) = some a := by
  rw [h.wlcslFind_eq]
  split_ifs with hh <;> simp [hh]

lemma wlcslDelete_congr {dblk' : ℕ} (hid : blockId dblk' = blockId dblk) :
    s.wlcslDelete blockId wlc dblk' = s.wlcslDelete blockId wlc dblk := by
  have hpasses : s.passes blockId wlc dblk' = s.passes blockId wlc dblk := by
    funext a
    rw [passes, passes, hid]
  have hsearch : s.search blockId wlc dblk' = s.search blockId wlc dblk := by
    funext i
    rw [search, search, hpasses]
  rw [WlcSkiplist.wlcslDelete, WlcSkiplist.wlcslDelete, hsearch, hid]

lemma wlcslDelete_frame (blockId : ℕ → UInt32) (s : WlcSkiplist) (wlc : ℤ) (dblk : ℕ) :
    (s.wlcslDelete blockId wlc dblk).2.wlc = s.wlc ∧
      (s.wlcslDelete blockId wlc dblk).2.dblk = s.dblk ∧
      (s.wlcslDelete blockId wlc dblk).2.allocated = s.allocated := by
  cases hfind : s.wlcslFind blockId wlc dblk with
  | none =>
    rw [wlcslDelete_of_none hfind]
    exact ⟨rfl, rfl, rfl⟩
  | some x =>
    obtain ⟨_, _, hdelete⟩ := wlcslDelete_eq hfind
    rw [hdelete]
    exact ⟨rfl, rfl, rfl⟩

/-- **A report of the load.**  If the product has changed, the node that is found for the old one is
deleted and a node for the new one is inserted. -/
lemma Rep.clusterWlcBlockAdd (h : Rep blockId s L) (hlv : 0 < lv) (wctx : WlcCtx)
    (hne : wctx.oldWlc ≠ wctx.newWlc) :
    ∃ L', (∀ a, a ∈ L' ↔ a = s.allocated ∨ a ∈ s.removed blockId wctx.oldWlc wctx.dblk L) ∧
      Rep blockId (s.clusterWlcBlockAdd blockId lv wctx) L' ∧
      (s.clusterWlcBlockAdd blockId lv wctx).wlc = update s.wlc s.allocated wctx.newWlc ∧
      (s.clusterWlcBlockAdd blockId lv wctx).dblk = update s.dblk s.allocated wctx.dblk := by
  -- the skip list after the deletion, if there is one
  obtain ⟨s', hs', hrep, hwlc, hdblk, hallocated⟩ : ∃ s' : WlcSkiplist,
      s.clusterWlcBlockAdd blockId lv wctx = s'.wlcslInsert blockId lv wctx.newWlc wctx.dblk ∧
      Rep blockId s' (s.removed blockId wctx.oldWlc wctx.dblk L) ∧ s'.wlc = s.wlc ∧
      s'.dblk = s.dblk ∧ s'.allocated = s.allocated := by
    rw [WlcSkiplist.clusterWlcBlockAdd, if_neg hne, removed]
    cases hfind : s.wlcslFind blockId wctx.oldWlc wctx.dblk with
    | none => exact ⟨s, rfl, h, rfl, rfl, rfl⟩
    | some x =>
      obtain ⟨hwlc, hid⟩ := (h.of_wlcslFind hfind).2
      have hdelete := h.wlcslDelete hfind
      obtain ⟨hwlc', hdblk', hallocated'⟩ := wlcslDelete_frame blockId s wctx.oldWlc wctx.dblk
      refine ⟨(s.wlcslDelete blockId wctx.oldWlc wctx.dblk).2, ?_, hdelete, hwlc', hdblk',
        hallocated'⟩
      dsimp only
      rw [hwlc, wlcslDelete_congr hid]
  obtain ⟨_, _, hinsert⟩ := wlcslInsert_eq blockId s' wctx.newWlc wctx.dblk lv
  refine ⟨_, fun a => ?_, hs' ▸ hrep.wlcslInsert hlv, ?_, ?_⟩
  · rw [mem_inserted, hallocated]
  · rw [hs', hinsert, ← hwlc, ← hallocated]
    rfl
  · rw [hs', hinsert, ← hdblk, ← hallocated]
    rfl

/-- A search that finds a node finds the first one with its `wlc` and id, so it finds the node itself
if those before it are hidden. -/
lemma Rep.wlcslFind_self {y : ℕ} (h : Rep blockId s (P ++ y :: S))
    (hP : ∀ z ∈ P, s.Hidden blockId (P ++ y :: S) (s.wlc z) (s.dblk z))
    (hy : ¬ s.Hidden blockId (P ++ y :: S) (s.wlc y) (s.dblk y)) :
    s.wlcslFind blockId (s.wlc y) (s.dblk y) = some y := by
  have hnone : P.find? (s.Matches blockId (s.wlc y) (s.dblk y)) = none := by
    refine find?_eq_none.2 fun z hz hmatch => hy ?_
    obtain ⟨hwlc, hid⟩ := of_decide_eq_true hmatch
    have hhidden := hP z hz
    rw [Hidden, hwlc] at hhidden
    simpa only [Hidden, Matches, hid] using hhidden
  rw [h.wlcslFind_eq, if_neg hy, find?_append, hnone, none_or]
  exact find?_cons_of_pos (by simp [Matches])

lemma Rep.getLast?_live (h : Rep blockId s (P ++ S)) : P.getLast?.any s.freed = false := by
  cases hlast : P.getLast? with
  | none => rfl
  | some a => exact h.live a (mem_append_left S (mem_of_getLast? hlast))

/-- The loop of `cluster_wlc_write_block_get` after the nodes `P`, which are expired and hidden. -/
lemma Rep.writeBlockLoop_eq {expired : ℕ → Bool} {n : ℕ} {offLine : List ℕ}
    (h : Rep blockId s (P ++ S)) (hn : S.length < n)
    (hP : ∀ y ∈ P, s.Hidden blockId (P ++ S) (s.wlc y) (s.dblk y)) :
    s.writeBlockLoop blockId expired n P.getLast? offLine =
      if ∀ y ∈ S.takeWhile fun y => expired (s.dblk y),
          s.Hidden blockId (P ++ S) (s.wlc y) (s.dblk y) then
        some ⟨s, offLine ++ (S.takeWhile fun y => expired (s.dblk y)).map s.dblk,
          (S.dropWhile fun y => expired (s.dblk y)).head?.map s.dblk⟩
      else none := by
  induction S generalizing P n offLine with
  | nil =>
    cases n with
    | zero => exact absurd hn (Nat.not_lt_zero _)
    | succ n =>
      rw [writeBlockLoop, h.getLast?_live, h.forward_zero rfl]
      simp
  | cons y S ih =>
    cases n with
    | zero => exact absurd hn (Nat.not_lt_zero _)
    | succ n =>
      rw [writeBlockLoop, h.getLast?_live, h.forward_zero rfl]
      simp only [Bool.false_eq_true, if_false, head?_cons]
      by_cases hexpired : expired (s.dblk y) = true
      · rw [if_pos hexpired, takeWhile_cons_of_pos (p := fun y => expired (s.dblk y)) hexpired,
          dropWhile_cons_of_pos (p := fun y => expired (s.dblk y)) hexpired]
        by_cases hy : s.Hidden blockId (P ++ y :: S) (s.wlc y) (s.dblk y)
        · -- nothing is deleted, and the loop goes on after `y`
          have hfind : s.wlcslFind blockId (s.wlc y) (s.dblk y) = none := by
            rw [h.wlcslFind_eq, if_pos hy]
          have hL : P ++ y :: S = (P ++ [y]) ++ S := append_cons P y S
          have hP' : ∀ z ∈ P ++ [y], s.Hidden blockId (P ++ y :: S) (s.wlc z) (s.dblk z) := by
            intro z hz
            rcases mem_append.1 hz with hz | hz
            · exact hP z hz
            · rwa [mem_singleton.1 hz]
          rw [hL] at h hP'
          have hloop : s.writeBlockLoop blockId expired n (P ++ [y]).getLast?
              (offLine ++ [s.dblk y]) = _ := ih h (Nat.lt_of_succ_lt_succ hn) hP'
          rw [getLast?_concat, ← hL] at hloop
          rw [wlcslDelete_of_none hfind, hloop]
          simp only [forall_mem_cons, hy, true_and, map_cons, append_assoc, singleton_append]
        · -- the node `y` is freed, and then its pointer is read
          have hfind := h.wlcslFind_self hP hy
          obtain ⟨_, _, hdelete⟩ := wlcslDelete_eq hfind
          rw [if_neg fun hall => hy (hall y mem_cons_self), hdelete]
          cases n with
          | zero => rfl
          | succ n =>
            rw [writeBlockLoop]
            simp
      · rw [if_neg hexpired, takeWhile_cons_of_neg (p := fun y => expired (s.dblk y)) hexpired,
          dropWhile_cons_of_neg (p := fun y => expired (s.dblk y)) hexpired]
        simp

/-- **The choice of a server.**  `cluster_wlc_write_block_get` returns the block of the first node
that is not expired, if all nodes before it are hidden.  Otherwise it frees a node and then reads the
pointer of the node. -/
lemma Rep.clusterWlcWriteBlockGet_eq {expired : ℕ → Bool} (h : Rep blockId s L) :
    s.clusterWlcWriteBlockGet blockId expired = if ∀ y ∈ L.takeWhile fun y => expired (s.dblk y),
          s.Hidden blockId L (s.wlc y) (s.dblk y) then
        some ⟨s, (L.takeWhile fun y => expired (s.dblk y)).map s.dblk,
          (L.dropWhile fun y => expired (s.dblk y)).head?.map s.dblk⟩
      else none :=
  Rep.writeBlockLoop_eq (P := []) h (Nat.lt_succ_of_le h.length_le) (by simp)

end WlcSkiplist

end Lfs.Tracker
