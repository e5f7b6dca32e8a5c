/-
The skip list over runs of its own calls.

From `wlcsl_create` on, whatever is inserted and deleted, the skip list is in order (`Linked`), so a
call changes the nodes by the one that it inserts or deletes.  What does not hold is that a search finds
what is there, since it goes over the nodes with the same `wlc` and a larger `block_id` (`Hidden`).  And
`cluster_wlc_write_block_get` may not go on from a node after it has deleted the node.
-/
import Lfs.Lib.Run
import Lfs.Tracker.WlcSpec
import Mathlib.Data.Multiset.AddSub

namespace Lfs.Tracker

open Lfs.Lib List Option Function

/-- A call of `wlcsl_insert`, with the draws of `random`, or of `wlcsl_delete`. -/
inductive WlcCall where
  | insert (draws : ℕ) (wlc : ℤ) (dblk : ℕ)
  | delete (wlc : ℤ) (dblk : ℕ)
deriving DecidableEq

namespace WlcSkiplist

/-- The pointer back at a position: `tail` for the end of the list, `backward` for a node. -/
def back (s : WlcSkiplist) (x : Option ℕ) : Option ℕ := x.elim s.tail s.backward

/-- The pairs of `wlc` and block that are in the list. -/
def pairs (s : WlcSkiplist) : Multiset (ℤ × ℕ) := ↑(s.nodes.map fun a => (s.wlc a, s.dblk a))

variable (blockId : ℕ → UInt32)

def call (s : WlcSkiplist) : WlcCall → WlcSkiplist
  | .insert draws wlc dblk => s.wlcslInsert blockId (wlcslRandomLevel draws) wlc dblk
  | .delete wlc dblk => (s.wlcslDelete blockId wlc dblk).2

/-- The skip list holds the nodes `L`, and everything about it fits them. -/
structure Linked (s : WlcSkiplist) (L : List ℕ) : Prop extends Rep blockId s L where
  occupied : s.level = 1 ∨ ∃ a ∈ L, s.height a = s.level
  level_le : s.level ≤ wlcSkiplistMaxLevel
  length : s.length = L.length
  mirror : Chain s.back L.reverse

/-- What a call does to the pairs: an insertion adds one, a deletion that returns 1 takes one away
that has the `wlc` and the id, and one that returns 0 does nothing. -/
def Changes (s : WlcSkiplist) : WlcCall → WlcSkiplist → Prop
  | .insert _ wlc dblk, s' => s'.pairs = (wlc, dblk) ::ₘ s.pairs
  | .delete wlc dblk, s' =>
    if (s.wlcslDelete blockId wlc dblk).1 then
      ∃ b, blockId b = blockId dblk ∧ s.pairs = (wlc, b) ::ₘ s'.pairs
    else s'.pairs = s.pairs

/-- A search for `wlc` and the block `dblk` succeeds: `wlcsl_find` returns a node with this `wlc` and
the id of the block, and `wlcsl_delete` returns 1 and removes such a node. -/
def Found (s : WlcSkiplist) (wlc : ℤ) (dblk : ℕ) : Prop :=
  (∃ x ∈ s.nodes, s.wlcslFind blockId wlc dblk = some x ∧ s.Matches blockId wlc dblk x) ∧
    (s.wlcslDelete blockId wlc dblk).1 = true ∧
    ∃ x ∈ s.nodes, s.Matches blockId wlc dblk x ∧
      (s.wlcslDelete blockId wlc dblk).2.nodes = s.nodes.erase x

/-- In the loop of `cluster_wlc_write_block_get`, from the position `x` on, pointers are only read
from the header and from nodes that are in the list. -/
def StaysLinked (expired : ℕ → Bool) : ℕ → Option ℕ → WlcSkiplist → Prop
  | 0, _, _ => True
  | n + 1, x, s =>
    (∀ a ∈ x, a ∈ s.nodes) ∧
      match s.forward x 0 with
      | none => True
      | some y =>
        if expired (s.dblk y) then
          StaysLinked expired n (some y) (s.wlcslDelete blockId (s.wlc y) (s.dblk y)).2
        else True

/-- What `cluster_wlc_write_block_get` should do: it stays in the list, it removes the expired nodes
before the one that it chooses, and it removes no other node. -/
def WalksWell (expired : ℕ → Bool) (s : WlcSkiplist) : Prop :=
  s.StaysLinked blockId expired (s.allocated + 1) none ∧
    ∃ w, s.clusterWlcWriteBlockGet blockId expired = some w ∧
      (∀ a ∈ s.nodes.takeWhile fun a => expired (s.dblk a), a ∉ w.wlcsl.nodes) ∧
      ∀ a ∈ s.nodes, expired (s.dblk a) = false → a ∈ w.wlcsl.nodes

variable {blockId} {s : WlcSkiplist} {L P S : List ℕ} {wlc : ℤ} {dblk lv x : ℕ}

/-! ### The pointers back -/

lemma back_linkBack (y : Option ℕ) :
    (linkBack x s).back y = if y = s.forward (some x) 0 then some x else s.back y := by
  unfold linkBack
  cases hx : s.forward (some x) 0 with
  | none => cases y <;> simp [back]
  | some z =>
    cases y with
    | none => simp [back]
    | some y =>
      simp only [back, elim_some, some_inj]
      exact update_apply ..

lemma unlinkLevels_self {update : ℕ → Option ℕ} {k : ℕ} (hk : 0 < k) :
    unlinkLevels x update s.forward k (some x) 0 = s.forward (some x) 0 := by
  rw [unlinkLevels_of_lt hk, ite_self]

lemma back_wlcslDelete (hfind : s.wlcslFind blockId wlc dblk = some x) (hlevel : 0 < s.level)
    (y : Option ℕ) : (s.wlcslDelete blockId wlc dblk).2.back y =
      if y = s.forward (some x) 0 then s.backward x else s.back y := by
  rw [wlcslDelete_eq_elim, hfind, elim_some, wlcslNodeDelete]
  dsimp only
  rw [unlinkLevels_self hlevel]
  cases s.forward (some x) 0 with
  | none => cases y <;> simp [back]
  | some w =>
    cases y with
    | none => simp [back]
    | some y =>
      simp only [back, elim_some, some_inj]
      exact update_apply ..

/-! ### Inserting and deleting -/

lemma linked_create : Linked blockId wlcslCreate [] where
  toRep := rep_create
  occupied := .inl rfl
  level_le := by decide
  length := rfl
  mirror := .nil rfl

lemma wlcslRandomLevel_pos (n : ℕ) : 0 < wlcslRandomLevel n := by
  rw [wlcslRandomLevel, wlcSkiplistMaxLevel]
  split_ifs <;> omega

lemma wlcslRandomLevel_le (n : ℕ) : wlcslRandomLevel n ≤ wlcSkiplistMaxLevel := by
  rw [wlcslRandomLevel]
  split_ifs <;> omega

lemma Rep.back_wlcslInsert (h : Rep blockId s L) (hlv : 0 < lv) (y : Option ℕ) :
    (s.wlcslInsert blockId lv wlc dblk).back y =
      if y = (L.dropWhile (s.before blockId wlc dblk)).head? then some s.allocated
      else if y = some s.allocated then (L.takeWhile (s.before blockId wlc dblk)).getLast?
      else s.back y := by
  have hupdate : s.insertUpdate blockId wlc dblk 0 =
      (L.takeWhile (s.before blockId wlc dblk)).getLast? := by
    rw [h.insertUpdate_eq, level_zero fun a ha => h.height_pos a ((takeWhile_sublist _).mem ha)]
  have hforward : linkLevels s.allocated (s.insertUpdate blockId wlc dblk) s.forward lv
      (some s.allocated) 0 = (L.dropWhile (s.before blockId wlc dblk)).head? := by
    rw [linkLevels_of_lt hlv, if_pos rfl, hupdate]
    exact h.forward_zero takeWhile_append_dropWhile.symm
  rw [WlcSkiplist.wlcslInsert]
  dsimp only [nodeNew]
  rw [back_linkBack]
  simp only [hforward, hupdate]
  congr 1
  cases y with
  | none => rfl
  | some y =>
    simp only [back, elim_some, some_inj]
    exact update_apply ..

/-- From `tail` on, the pointers back lead through the nodes with the new one. -/
lemma Linked.mirror_wlcslInsert (h : s.Linked blockId L) (hlv : 0 < lv) :
    Chain (s.wlcslInsert blockId lv wlc dblk).back (s.inserted blockId wlc dblk L).reverse := by
  have hback (y : Option ℕ) : (s.wlcslInsert blockId lv wlc dblk).back y = _ :=
    h.toRep.back_wlcslInsert hlv y
  rw [inserted]
  have hL := takeWhile_append_dropWhile (p := s.before blockId wlc dblk) (l := L)
  generalize L.takeWhile (s.before blockId wlc dblk) = P at hback hL ⊢
  generalize L.dropWhile (s.before blockId wlc dblk) = S at hback hL ⊢
  subst hL
  -- in the opposite order the new node comes after those of `S`
  have hmirror := h.mirror
  have hnodup := nodup_reverse.2 h.nodup
  have hnew : s.allocated ∉ (P ++ S).reverse := fun hmem =>
    lt_irrefl _ (h.allocated _ (mem_reverse.1 hmem))
  rw [reverse_append] at hmirror hnodup hnew
  have hinsert := hmirror.insert hnodup hnew
  have hend : s.back S.reverse.getLast? = P.getLast? := by
    rw [hmirror _ _ rfl, head?_reverse]
  have hhead : S.head? ≠ some s.allocated := by
    intro heq
    exact hnew (mem_append_left _ (mem_reverse.2 (mem_of_head? heq)))
  rw [getLast?_reverse] at hinsert hend
  rw [reverse_append, reverse_cons, append_assoc, singleton_append]
  convert hinsert using 1
  funext y
  rw [hback, hend]
  by_cases hy : y = S.head?
  · subst hy
    rw [if_pos rfl, if_neg hhead, if_pos rfl]
  · rw [if_neg hy, if_neg hy]

lemma Linked.wlcslInsert (h : s.Linked blockId L) (hlv : 0 < lv) (hle : lv ≤ wlcSkiplistMaxLevel) :
    (s.wlcslInsert blockId lv wlc dblk).Linked blockId (s.inserted blockId wlc dblk L) := by
  have hrep : Rep blockId (s.wlcslInsert blockId lv wlc dblk) (s.inserted blockId wlc dblk L) :=
    h.toRep.wlcslInsert hlv
  obtain ⟨backward, tail, heq⟩ := wlcslInsert_eq blockId s wlc dblk lv
  refine ⟨hrep, ?_, ?_, ?_, h.mirror_wlcslInsert hlv⟩
  · rw [heq]
    show max s.level lv = 1 ∨ ∃ a ∈ _, update s.height s.allocated lv a = max s.level lv
    rcases lt_or_ge lv s.level with hlt | hge
    · -- the highest node is an old one
      obtain ⟨a, ha, hheight⟩ : ∃ a ∈ L, s.height a = s.level := by
        refine h.occupied.resolve_left ?_
        omega
      refine .inr ⟨a, mem_inserted.2 (.inr ha), ?_⟩
      rw [h.update_eq _ _ ha, hheight, max_eq_left hlt.le]
    · refine .inr ⟨s.allocated, mem_inserted.2 (.inl rfl), ?_⟩
      rw [update_self, max_eq_right hge]
  · rw [heq]
    exact max_le h.level_le hle
  · rw [heq]
    show s.length + 1 = _
    rw [h.length, inserted_perm.length_eq, length_cons]

lemma lowerLevel_le {forward : Option ℕ → ℕ → Option ℕ} {k : ℕ} : lowerLevel forward k ≤ k := by
  induction k with
  | zero => exact le_rfl
  | succ i ih =>
    cases i with
    | zero => exact le_rfl
    | succ i =>
      rw [lowerLevel]
      split_ifs
      · exact ih.trans (Nat.le_succ _)
      · exact le_rfl

/-- The loop that lowers `level` ends at the lowest level or at one that has a node. -/
lemma lowerLevel_occupied {forward : Option ℕ → ℕ → Option ℕ} {k : ℕ} (hk : 0 < k) :
    lowerLevel forward k = 1 ∨ forward none (lowerLevel forward k - 1) ≠ none := by
  induction k with
  | zero => exact absurd hk (lt_irrefl 0)
  | succ i ih =>
    cases i with
    | zero => exact .inl rfl
    | succ i =>
      rw [lowerLevel]
      split_ifs with hnone
      · exact ih (Nat.succ_pos i)
      · exact .inr hnone

lemma Rep.occupied (h : Rep blockId s L) (hsome : s.forward none (s.level - 1) ≠ none) :
    ∃ a ∈ L, s.height a = s.level := by
  obtain ⟨a, ha⟩ := ne_none_iff_exists'.1 hsome
  have hhead := (h.levels (s.level - 1)).head
  rw [ha] at hhead
  obtain ⟨hmem, hlt⟩ := mem_level.1 (mem_of_head? hhead.symm)
  have hle := h.height_le a hmem
  exact ⟨a, hmem, by omega⟩

lemma Linked.wlcslDelete (h : s.Linked blockId L) (hfind : s.wlcslFind blockId wlc dblk = some x) :
    (s.wlcslDelete blockId wlc dblk).2.Linked blockId (L.erase x) := by
  have hrep : Rep blockId (s.wlcslDelete blockId wlc dblk).2 (L.erase x) := h.toRep.wlcslDelete hfind
  have hmem := (h.toRep.of_wlcslFind hfind).1
  have hback (y : Option ℕ) := back_wlcslDelete hfind h.level_pos y
  obtain ⟨backward, tail, heq⟩ := wlcslDelete_eq hfind
  refine ⟨hrep, ?_, ?_, ?_, ?_⟩
  · rcases lowerLevel_occupied h.level_pos with hone | hsome
    · rw [heq]
      exact .inl hone
    · refine .inr (hrep.occupied ?_)
      rw [heq]
      exact hsome
  · rw [heq]
    exact lowerLevel_le.trans h.level_le
  · rw [heq, length_erase_of_mem hmem, ← h.length]
  · obtain ⟨P, S, rfl⟩ := append_of_mem hmem
    have hnodup := h.nodup
    have hxP : x ∉ P := fun hxP => (nodup_append.1 hnodup).2.2 x hxP x mem_cons_self rfl
    have hmirror := h.mirror
    have hforward : s.forward (some x) 0 = S.head? := by
      have hnext := h.toRep.forward_zero (append_cons P x S)
      rwa [getLast?_concat] at hnext
    rw [erase_append_right _ hxP, erase_cons_head, reverse_append]
    rw [reverse_append, reverse_cons, append_assoc, singleton_append] at hmirror
    have hnodup' : (S.reverse ++ x :: P.reverse).Nodup := by
      rw [← nodup_reverse]
      simpa using hnodup
    have hremove := hmirror.remove hnodup'
    rw [getLast?_reverse] at hremove
    convert hremove using 1
    funext y
    rw [hback, hforward]
    rfl

/-! ### Runs of calls -/

lemma Rep.pairs_eq (h : Rep blockId s L) : s.pairs = ↑(L.map fun a => (s.wlc a, s.dblk a)) := by
  rw [pairs, h.nodes_eq]

lemma Rep.pairs_wlcslInsert (h : Rep blockId s L) (hlv : 0 < lv) :
    (s.wlcslInsert blockId lv wlc dblk).pairs = (wlc, dblk) ::ₘ s.pairs := by
  have hrep : Rep blockId (s.wlcslInsert blockId lv wlc dblk) (s.inserted blockId wlc dblk L) :=
    h.wlcslInsert hlv
  obtain ⟨_, _, heq⟩ := wlcslInsert_eq blockId s wlc dblk lv
  have hold : L.map (fun a => (update s.wlc s.allocated wlc a,
      update s.dblk s.allocated dblk a)) = L.map fun a => (s.wlc a, s.dblk a) :=
    map_congr_left fun a ha => by rw [h.update_eq _ _ ha, h.update_eq _ _ ha]
  have hperm : (s.inserted blockId wlc dblk L).Perm (s.allocated :: L) := inserted_perm
  rw [hrep.pairs_eq, h.pairs_eq, heq]
  dsimp only [nodeNew]
  rw [Multiset.coe_eq_coe.2 (hperm.map _), map_cons, hold, update_self,
    update_self, Multiset.cons_coe]

lemma Rep.pairs_wlcslDelete (h : Rep blockId s L) (hfind : s.wlcslFind blockId wlc dblk = some x) :
    s.pairs = (s.wlc x, s.dblk x) ::ₘ (s.wlcslDelete blockId wlc dblk).2.pairs := by
  have hrep : Rep blockId (s.wlcslDelete blockId wlc dblk).2 (L.erase x) := h.wlcslDelete hfind
  obtain ⟨hwlc, hdblk, -⟩ := wlcslDelete_frame blockId s wlc dblk
  have hperm := perm_cons_erase (h.of_wlcslFind hfind).1
  rw [h.pairs_eq, hrep.pairs_eq, hwlc, hdblk, Multiset.coe_eq_coe.2 (hperm.map _), map_cons,
    Multiset.cons_coe]

lemma wlcslDelete_fst : (s.wlcslDelete blockId wlc dblk).1 = (s.wlcslFind blockId wlc dblk).isSome := by
  cases hfind : s.wlcslFind blockId wlc dblk with
  | none => rw [wlcslDelete_of_none hfind, isSome_none]
  | some x =>
    obtain ⟨_, _, heq⟩ := wlcslDelete_eq hfind
    rw [heq, isSome_some]

/-- **One call** keeps everything in order, and changes the pairs by the one that it is about. -/
lemma Linked.call (h : s.Linked blockId s.nodes) (c : WlcCall) :
    (s.call blockId c).Linked blockId (s.call blockId c).nodes ∧
      s.Changes blockId c (s.call blockId c) := by
  cases c with
  | insert draws wlc dblk =>
    have hlinked : (s.call blockId (.insert draws wlc dblk)).Linked blockId
        (s.inserted blockId wlc dblk s.nodes) :=
      h.wlcslInsert (wlcslRandomLevel_pos draws) (wlcslRandomLevel_le draws)
    rw [hlinked.toRep.nodes_eq]
    exact ⟨hlinked, h.toRep.pairs_wlcslInsert (wlcslRandomLevel_pos draws)⟩
  | delete wlc dblk =>
    rw [Changes, wlcslDelete_fst]
    cases hfind : s.wlcslFind blockId wlc dblk with
    | none =>
      have hcall : s.call blockId (.delete wlc dblk) = s :=
        congrArg Prod.snd (wlcslDelete_of_none hfind)
      rw [hcall]
      exact ⟨h, rfl⟩
    | some x =>
      have hlinked : (s.call blockId (.delete wlc dblk)).Linked blockId (s.nodes.erase x) :=
        h.wlcslDelete hfind
      obtain ⟨hwlc, hid⟩ := (h.toRep.of_wlcslFind hfind).2
      rw [hlinked.toRep.nodes_eq]
      refine ⟨hlinked, s.dblk x, hid, ?_⟩
      rw [← hwlc]
      exact h.toRep.pairs_wlcslDelete (hwlc.symm ▸ hfind)

lemma linked_start : wlcslCreate.Linked blockId wlcslCreate.nodes := by
  have hnodes : wlcslCreate.nodes = [] := (@linked_create blockId).toRep.nodes_eq
  rw [hnodes]
  exact linked_create

/-- **The invariant of the skip list.**  After every call from `wlcsl_create` on, the lowest level is
sorted and each level leads through the nodes that are higher, `level` is the largest height of a node,
`length` the number of nodes, and `backward` and `tail` mirror the list; and the pairs have changed by
the one that was inserted or deleted. -/
theorem calls_linked (blockId : ℕ → UInt32) (calls : List WlcCall) : Along (call blockId)
      (fun s c s' => s'.Linked blockId s'.nodes ∧ s.Changes blockId c s') wlcslCreate calls :=
  Along.of_inv (I := fun s : WlcSkiplist => s.Linked blockId s.nodes) linked_start
    (Along.of_forall (R := fun _ _ _ => True) fun _ _ _ => trivial)
    fun _ c hs _ => ⟨(hs.call c).1, hs.call c⟩

lemma linked_run (blockId : ℕ → UInt32) (calls : List WlcCall) :
    (run (call blockId) wlcslCreate calls).Linked blockId
      (run (call blockId) wlcslCreate calls).nodes :=
  Along.inv (I := fun s : WlcSkiplist => s.Linked blockId s.nodes) linked_start
    (Along.of_forall (R := fun _ _ _ => True) fun _ _ _ => trivial) fun _ c hs _ => (hs.call c).1

/-! ### What a search finds -/

/-- A pair of the list is found exactly if it is not hidden. -/
lemma Linked.found_iff (h : s.Linked blockId s.nodes) (hmem : (wlc, dblk) ∈ s.pairs) :
    s.Found blockId wlc dblk ↔ ¬ s.Hidden blockId s.nodes wlc dblk := by
  constructor
  · rintro ⟨⟨x, -, hfind, -⟩, -⟩
    exact (h.toRep.wlcslFind_eq_some_iff.1 hfind).1
  · intro hnot
    obtain ⟨a, ha, hpair⟩ := List.mem_map.1 (Multiset.mem_coe.1 hmem)
    have hmatch : s.Matches blockId wlc dblk a := by
      obtain ⟨rfl, rfl⟩ := Prod.mk.inj hpair
      exact ⟨rfl, rfl⟩
    -- the first node with the `wlc` and the id is the one that is found
    obtain ⟨x, hx⟩ : ∃ x, s.nodes.find? (s.Matches blockId wlc dblk) = some x := by
      rw [← isSome_iff_exists, find?_isSome]
      exact ⟨a, ha, decide_eq_true hmatch⟩
    have hfind := h.toRep.wlcslFind_eq_some_iff.2 ⟨hnot, hx⟩
    obtain ⟨hmem', hmatch'⟩ := h.toRep.of_wlcslFind hfind
    refine ⟨⟨x, hmem', hfind, hmatch'⟩, ?_, x, hmem', hmatch', (h.wlcslDelete hfind).toRep.nodes_eq⟩
    rw [wlcslDelete_fst, hfind, isSome_some]

/-- **The search of the skip list.**  In a skip list that calls have built, `wlcsl_find` and
`wlcsl_delete` find a pair of `wlc` and block that is there exactly if no node with the same `wlc` and a
larger `block_id` is higher than all nodes of the pair. -/
theorem search_complete_iff (blockId : ℕ → UInt32) (calls : List WlcCall) (wlc : ℤ) (dblk : ℕ)
    (hmem : (wlc, dblk) ∈ (run (call blockId) wlcslCreate calls).pairs) :
    (run (call blockId) wlcslCreate calls).Found blockId wlc dblk ↔
      ¬ (run (call blockId) wlcslCreate calls).Hidden blockId
        (run (call blockId) wlcslCreate calls).nodes wlc dblk :=
  (linked_run blockId calls).found_iff hmem

def ownId (i : ℕ) : UInt32 := UInt32.ofNat i

/-- Of two blocks with the same load, the one with the larger id is always found. -/
theorem found_second :
    (run (call ownId) wlcslCreate [.insert 0 5 1, .insert 1 5 2]).Found ownId 5 2 :=
  (search_complete_iff ownId _ 5 2 (by decide +kernel)).2 (by decide +kernel)

/-- The other one is not found if its node is lower. -/
theorem not_found_first : ownId 1 ≠ ownId 2 ∧
      (5, 1) ∈ (run (call ownId) wlcslCreate [.insert 0 5 1, .insert 1 5 2]).pairs ∧
      (run (call ownId) wlcslCreate [.insert 0 5 1, .insert 1 5 2]).wlcslFind ownId 5 1 = none ∧
      ((run (call ownId) wlcslCreate [.insert 0 5 1, .insert 1 5 2]).wlcslDelete ownId 5 1).1 =
        false ∧
      ¬ (run (call ownId) wlcslCreate [.insert 0 5 1, .insert 1 5 2]).Found ownId 5 1 := by
  have hfind : (run (call ownId) wlcslCreate [.insert 0 5 1, .insert 1 5 2]).wlcslFind ownId 5 1 =
      none := by decide +kernel
  refine ⟨by decide, by decide +kernel, hfind, by rw [wlcslDelete_fst, hfind]; rfl, ?_⟩
  rintro ⟨⟨x, -, hsome, -⟩, -⟩
  rw [hfind] at hsome
  exact absurd hsome (by simp)

/-! ### The walk for a server to write to -/

/-- The walk does what it should exactly if the first node is not expired. -/
lemma Linked.walksWell_iff {expired : ℕ → Bool} (h : s.Linked blockId s.nodes) :
    s.WalksWell blockId expired ↔ ∀ a ∈ s.nodes.head?, expired (s.dblk a) = false := by
  have hget : s.clusterWlcWriteBlockGet blockId expired = _ := h.toRep.clusterWlcWriteBlockGet_eq
  constructor
  · rintro ⟨-, w, hw, hremoved, -⟩ a ha
    rw [hget] at hw
    split_ifs at hw
    obtain rfl := some.inj hw
    -- the walk has removed nothing, so the first node is not one that should have been removed
    refine Bool.eq_false_iff.2 fun hexpired => ?_
    obtain ⟨S, hS⟩ := head?_eq_some_iff.1 ha
    refine hremoved a ?_ (mem_of_head? ha)
    rw [hS, takeWhile_cons_of_pos (p := fun a => expired (s.dblk a)) hexpired]
    exact mem_cons_self
  · intro hhead
    have hnone : s.nodes.takeWhile (fun a => expired (s.dblk a)) = [] := takeWhile_eq_nil hhead
    rw [hnone] at hget
    refine ⟨⟨by simp, ?_⟩, _, hget.trans (if_pos (by simp)), by simp [hnone], fun a ha _ => ha⟩
    have hfirst := h.toRep.forward_zero (P := []) (S := s.nodes) rfl
    rw [getLast?_nil] at hfirst
    rw [hfirst]
    cases hnodes : s.nodes.head? with
    | none => trivial
    | some y =>
      show if _ then _ else _
      rw [hhead y hnodes]
      trivial

/-- **The walk for a server to write to.**  In a skip list that calls have built, the walk of
`cluster_wlc_write_block_get` stays in the list, removes the expired nodes before the one that it
chooses and removes no other, exactly if the first node is not expired. -/
theorem walk_well_iff (blockId : ℕ → UInt32) (calls : List WlcCall) (expired : ℕ → Bool) :
    (run (call blockId) wlcslCreate calls).WalksWell blockId expired ↔
      ∀ a ∈ (run (call blockId) wlcslCreate calls).nodes.head?,
        expired ((run (call blockId) wlcslCreate calls).dblk a) = false :=
  (linked_run blockId calls).walksWell_iff

/-- With one node, which is expired, the walk deletes the node and then follows its pointer. -/
theorem walk_follows_freed :
    (run (call ownId) wlcslCreate [.insert 0 5 1]).clusterWlcWriteBlockGet ownId (fun _ => true) = none
      ∧ ¬ (run (call ownId) wlcslCreate [.insert 0 5 1]).StaysLinked ownId (fun _ => true) 2 none ∧
      ¬ (run (call ownId) wlcslCreate [.insert 0 5 1]).WalksWell ownId fun _ => true := by
  set s := run (call ownId) wlcslCreate [.insert 0 5 1] with hs
  have hget : s.clusterWlcWriteBlockGet ownId (fun _ => true) = none :=
    isNone_iff_eq_none.1 (by rw [hs]; decide +kernel)
  refine ⟨hget, ?_, ?_⟩
  · rintro ⟨-, hnext⟩
    have hfirst : s.forward none 0 = some 0 := by rw [hs]; decide +kernel
    rw [hfirst] at hnext
    have hdeleted : 0 ∉ (s.wlcslDelete ownId (s.wlc 0) (s.dblk 0)).2.nodes := by
      rw [hs]
      decide +kernel
    exact hdeleted (hnext.1 0 rfl)
  · rintro ⟨-, w, hw, -⟩
    rw [hget] at hw
    exact absurd hw (by simp)

end WlcSkiplist

end Lfs.Tracker
